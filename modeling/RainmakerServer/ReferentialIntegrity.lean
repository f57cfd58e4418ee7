import RainmakerServer.AccountCalls
import RainmakerServer.GrantSteps
import RainmakerServer.Lib.References
import RainmakerServer.OtaOffers
import RainmakerServer.Participation
import RainmakerServer.Redelivery

/-!
The foreign keys of the migrations over whole runs. Each handler checks what
its new rows refer to and the cascades of a deletion take every referring row
with them, so no reachable state has a row that refers to a missing one, and an
account that is deleted leaves nothing behind.
-/
namespace RainmakerServer.ReferentialIntegrity
open Tables Runs References Accounts

def Forested (groups : Table NodeGroup) (members : Table NodeGroupNode) : Prop :=
  GroupForest.Grouped {nodeGroups := groups, nodeGroupNodes := members}

/-- The foreign keys. Those among groups and their members are part of the
    forest the groups form. -/
structure Linked (db : Db) : Prop where
  forest : Forested db.nodeGroups db.nodeGroupNodes
  tokens : Refers (some ·.userId) User.id db.refreshTokens db.users
  configs : Refers (some ·.nodeId) Node.nodeId db.nodeConfigs db.nodes
  shadows : Refers (some ·.nodeId) Node.nodeId db.nodeParamsShadow db.nodes
  mappingUsers : Refers (some ·.userId) User.id db.userNodeMappings db.users
  mappingNodes : Refers (some ·.nodeId) Node.nodeId db.userNodeMappings db.nodes
  challenges : Refers (some ·.userId) User.id db.mappingChallenges db.users
  shareNodes : Refers (some ·.nodeId) Node.nodeId db.nodeSharing db.nodes
  sharesFrom : Refers (some ·.fromUserId) User.id db.nodeSharing db.users
  sharesTo : Refers (some ·.toUserId) User.id db.nodeSharing db.users
  requestNodes : Refers (some ·.nodeId) Node.nodeId db.nodeSharingRequests db.nodes
  requestsFrom : Refers (some ·.fromUserId) User.id db.nodeSharingRequests db.users
  owners : Refers (some ·.ownerId) User.id db.nodeGroups db.users
  members : Refers (some ·.nodeId) Node.nodeId db.nodeGroupNodes db.nodes
  automations : Refers (some ·.userId) User.id db.automations db.users
  images : Refers (some ·.imageId) OtaImage.id db.otaJobs db.otaImages
  jobs : Refers (some ·.jobId) OtaJob.id db.otaJobNodes db.otaJobs
  targets : Refers (some ·.nodeId) Node.nodeId db.otaJobNodes db.nodes

/-- A change that removes nothing that is referred to and founds every new row
    on what was there. A rollout is written with its targets. -/
structure Linking (db db' : Db) : Prop where
  forest : Forested db.nodeGroups db.nodeGroupNodes → Forested db'.nodeGroups db'.nodeGroupNodes
  userKeys : Kept User.id db.users db'.users
  nodeKeys : Kept Node.nodeId db.nodes db'.nodes
  imageKeys : Kept OtaImage.id db.otaImages db'.otaImages
  jobKeys : Kept OtaJob.id db.otaJobs db'.otaJobs
  tokens : Founded (some ·.userId) User.id db.refreshTokens db'.refreshTokens db.users
  configs : Founded (some ·.nodeId) Node.nodeId db.nodeConfigs db'.nodeConfigs db.nodes
  shadows : Founded (some ·.nodeId) Node.nodeId db.nodeParamsShadow db'.nodeParamsShadow db.nodes
  mappingUsers : Founded (some ·.userId) User.id db.userNodeMappings db'.userNodeMappings db.users
  mappingNodes :
    Founded (some ·.nodeId) Node.nodeId db.userNodeMappings db'.userNodeMappings db.nodes
  challenges : Founded (some ·.userId) User.id db.mappingChallenges db'.mappingChallenges db.users
  shareNodes : Founded (some ·.nodeId) Node.nodeId db.nodeSharing db'.nodeSharing db.nodes
  sharesFrom : Founded (some ·.fromUserId) User.id db.nodeSharing db'.nodeSharing db.users
  sharesTo : Founded (some ·.toUserId) User.id db.nodeSharing db'.nodeSharing db.users
  requestNodes :
    Founded (some ·.nodeId) Node.nodeId db.nodeSharingRequests db'.nodeSharingRequests db.nodes
  requestsFrom :
    Founded (some ·.fromUserId) User.id db.nodeSharingRequests db'.nodeSharingRequests db.users
  owners : Founded (some ·.ownerId) User.id db.nodeGroups db'.nodeGroups db.users
  members : Founded (some ·.nodeId) Node.nodeId db.nodeGroupNodes db'.nodeGroupNodes db.nodes
  automations : Founded (some ·.userId) User.id db.automations db'.automations db.users
  images : Founded (some ·.imageId) OtaImage.id db.otaJobs db'.otaJobs db.otaImages
  jobs : Founded (some ·.jobId) OtaJob.id db.otaJobNodes db'.otaJobNodes db'.otaJobs
  targets : Founded (some ·.nodeId) Node.nodeId db.otaJobNodes db'.otaJobNodes db.nodes

section
variable {db db' : Db}

theorem forested_iff : Forested db.nodeGroups db.nodeGroupNodes ↔ GroupForest.Grouped db :=
  ⟨fun forest => ⟨forest.ordered,forest.owned,forest.members⟩,
    fun forest => ⟨forest.ordered,forest.owned,forest.members⟩⟩

theorem linking_keeps (linking : Linking db db') (linked : Linked db) : Linked db' where
  forest := linking.forest linked.forest
  tokens := refers_step linked.tokens (founded_kept linking.tokens linking.userKeys) linking.userKeys
  configs := refers_step linked.configs (founded_kept linking.configs linking.nodeKeys) linking.nodeKeys
  shadows := refers_step linked.shadows (founded_kept linking.shadows linking.nodeKeys) linking.nodeKeys
  mappingUsers := refers_step linked.mappingUsers (founded_kept linking.mappingUsers linking.userKeys) linking.userKeys
  mappingNodes := refers_step linked.mappingNodes (founded_kept linking.mappingNodes linking.nodeKeys) linking.nodeKeys
  challenges := refers_step linked.challenges (founded_kept linking.challenges linking.userKeys) linking.userKeys
  shareNodes := refers_step linked.shareNodes (founded_kept linking.shareNodes linking.nodeKeys) linking.nodeKeys
  sharesFrom := refers_step linked.sharesFrom (founded_kept linking.sharesFrom linking.userKeys) linking.userKeys
  sharesTo := refers_step linked.sharesTo (founded_kept linking.sharesTo linking.userKeys) linking.userKeys
  requestNodes := refers_step linked.requestNodes (founded_kept linking.requestNodes linking.nodeKeys) linking.nodeKeys
  requestsFrom := refers_step linked.requestsFrom (founded_kept linking.requestsFrom linking.userKeys) linking.userKeys
  owners := refers_step linked.owners (founded_kept linking.owners linking.userKeys) linking.userKeys
  members := refers_step linked.members (founded_kept linking.members linking.nodeKeys) linking.nodeKeys
  automations := refers_step linked.automations (founded_kept linking.automations linking.userKeys) linking.userKeys
  images := refers_step linked.images (founded_kept linking.images linking.imageKeys) linking.imageKeys
  jobs := refers_step linked.jobs linking.jobs linking.jobKeys
  targets := refers_step linked.targets (founded_kept linking.targets linking.nodeKeys) linking.nodeKeys

theorem linking_refl (db : Db) : Linking db db where
  forest := id
  userKeys := kept_refl
  nodeKeys := kept_refl
  imageKeys := kept_refl
  jobKeys := kept_refl
  tokens := founded_refl
  configs := founded_refl
  shadows := founded_refl
  mappingUsers := founded_refl
  mappingNodes := founded_refl
  challenges := founded_refl
  shareNodes := founded_refl
  sharesFrom := founded_refl
  sharesTo := founded_refl
  requestNodes := founded_refl
  requestsFrom := founded_refl
  owners := founded_refl
  members := founded_refl
  automations := founded_refl
  images := founded_refl
  jobs := founded_refl
  targets := founded_refl

theorem known_user {id k : Uuid} (present : db.hasUser id = true) (same : some id = some k) :
    ∃ s ∈ db.users, s.id = k := by
  rw [← Option.some.inj same]
  exact Db.hasUser_iff.mp present

theorem known_node {n m : Text} (present : db.hasNode n = true) (same : some n = some m) :
    ∃ s ∈ db.nodes, s.nodeId = m := by
  rw [← Option.some.inj same]
  exact Db.hasNode_iff.mp present

/-! Accounts. -/

theorem edited_linking {id : Uuid} {f : User → User} {keep hold} (same : ∀ r, (f r).id = r.id) :
    Linking db (setUser db id f keep hold) :=
  {linking_refl db with userKeys := kept_update rfl same}

theorem signup_linking {pf : Platform} {now : Time} {id : Uuid} {salt code userName password : Text} :
    Linking db (signup pf db now id salt code userName password).1 := by
  rcases signup_cases pf db now id salt code userName password with
    ⟨t,-,-,inserted,eq⟩ | ⟨e,failed⟩
  · rw [eq]
    exact {linking_refl db with userKeys := kept_insert inserted}
  · rw [failed]
    exact linking_refl _

theorem account_linking {pf : Platform} {now : Time} {c : AccountCall}
    (stays : ∀ id, c ≠ .deleteCurrentUser id) : Linking db (serveAccount pf db now c).1 := by
  have effect : AccountEffect pf db now c (serveAccount pf db now c).1 := serve_account_effect c
  generalize (serveAccount pf db now c).1 = after at effect
  cases effect with
  | kept => exact linking_refl _
  | signedUp absent hashed inserted => exact {linking_refl db with userKeys := kept_insert inserted}
  | edited edit => cases edit <;> exact edited_linking fun _ => rfl
  | @loggedIn draw userName password user row t checked inserted owner =>
    have keys : Kept User.id db.users (stamp now user db).users :=
      (@edited_linking db user.id (stamped now) (fun _ _ => rfl) (fun _ held => held) fun _ => rfl).userKeys
    refine {linking_refl db with userKeys := keys, tokens := founded_insert inserted ?_}
    intro k same
    exact ⟨user,List.mem_of_find?_eq_some (admitted_ok checked).1,
      owner.symm.trans (Option.some.inj same)⟩
  | loggedOut => exact {linking_refl db with tokens := founded_update rfl fun _ => rfl}
  | deleted => exact absurd rfl (stays _)

theorem reset_requested_linking {now : Time} {code userName : Text} :
    Linking db (requestPasswordReset db now code userName).1 := by
  rcases request_password_reset_cases db now code userName with ⟨user,-,eq⟩ | ⟨-,same⟩
  · rw [eq]
    exact edited_linking fun _ => rfl
  · rw [same]
    exact linking_refl _

/-! Groups, automations and rollouts. -/

theorem create_group_linking {groupId ownerId : Uuid} {memberIds : Nat → Uuid} {name : Text}
    {parent : Option Uuid} {type : Option Text} {exclusive : Bool} {nodes : List Text}
    {metadata : Json} (owner : db.hasUser ownerId = true) : Linking db
      (Fleet.createGroup db groupId memberIds ownerId name parent type exclusive nodes
        metadata).1 := by
  rcases GroupForest.create_group_cases db groupId memberIds ownerId name parent type exclusive
    nodes metadata with ⟨e,failed⟩ | ⟨groups,members,-,known,present,inserted,all,eq⟩
  · rw [failed]
    exact linking_refl _
  · rw [eq]
    refine {linking_refl db with
      forest := fun forest => forested_iff.mpr
        (GroupForest.created_grouped (forested_iff.mp forest) known inserted all),
      owners := founded_insert inserted fun _ same => known_user owner same,
      members := founded_insertAll all ?_}
    intro m added k named
    obtain ⟨i,bound,same⟩ := List.mem_mapIdx.mp added
    rw [← same] at named
    exact known_node (present _ (List.getElem_mem bound)) named

theorem cascade_linking {roots : List Uuid} : Linking db (Fleet.cascadeGroups db roots) :=
  {linking_refl db with
    forest := fun forest => forested_iff.mpr (GroupForest.cascade_grouped (forested_iff.mp forest)),
    owners := founded_delete,
    members := founded_delete}

theorem delete_group_linking {ownerId groupId : Uuid} :
    Linking db (Fleet.deleteGroup db ownerId groupId).1 := by
  rcases GroupForest.delete_group_cases db ownerId groupId with ⟨e,failed⟩ | ⟨g,-,-,-,eq⟩
  · rw [failed]
    exact linking_refl _
  · rw [eq]
    exact cascade_linking

theorem create_automation_linking {id userId : Uuid} {name events actions operator metadata : Json} :
    Linking db (Fleet.createAutomation db id userId name events actions operator metadata).1 := by
  unfold Fleet.createAutomation
  split
  · split
    · exact linking_refl _
    · rename_i stored
      obtain ⟨t,inserted,present,eq⟩ := commitInsert_ok stored
      subst eq
      simp only [Bool.and_eq_true] at present
      exact {linking_refl db with
        automations := founded_insert inserted fun _ same => known_user present.1 same}
  · exact linking_refl _

theorem update_automation_linking {userId automationId : Uuid} {patch : JsonObject} :
    Linking db (Fleet.updateAutomation db userId automationId patch).1 := by
  unfold Fleet.updateAutomation
  split
  · exact linking_refl _
  · exact linking_refl _
  · split
    · exact linking_refl _
    · exact {linking_refl db with automations := founded_update rfl fun _ => rfl}

theorem delete_automation_linking {userId automationId : Uuid} :
    Linking db (Fleet.deleteAutomation db userId automationId).1 := by
  unfold Fleet.deleteAutomation
  split
  · exact linking_refl _
  · exact linking_refl _
  · exact {linking_refl db with automations := founded_delete}

theorem image_upload_linking {pf : Platform} {imageId : Uuid} {name fwVersion : Text}
    {fileSize : Int} {model : Option Text} {metadata : JsonObject} :
    Linking db (Fleet.createImageUpload pf db imageId name fwVersion fileSize model metadata).1 := by
  unfold Fleet.createImageUpload
  dsimp only
  split
  · exact linking_refl _
  · rename_i stored
    obtain ⟨t,inserted,-,eq⟩ := commitInsert_ok stored
    subst eq
    exact {linking_refl db with imageKeys := kept_insert inserted, images := founded_refl}

theorem confirm_upload_linking {imageId : Uuid} {md5 sha256 : Option Text} :
    Linking db (Fleet.confirmImageUpload db imageId md5 sha256).1 := by
  unfold Fleet.confirmImageUpload
  split
  · exact linking_refl _
  · exact linking_refl _
  · split
    · exact linking_refl _
    · exact {linking_refl db with imageKeys := kept_update rfl fun _ => rfl}

theorem create_job_linking {now : Time} {jobId : Uuid} {rowIds : Nat → Uuid} {name : Text}
    {imageId : Uuid} {nodeIds : List Text} {policy : JsonObject} {createdBy : Option Uuid} :
    Linking db
      (Fleet.createJob db now jobId rowIds name imageId nodeIds policy createdBy).1 := by
  rcases BatchCreation.create_job_cases db now jobId rowIds name imageId nodeIds policy createdBy
    with ⟨e,failed⟩ | ⟨jobs,targets,⟨image,present,key,-⟩,known,inserted,added,eq⟩
  · rw [failed]
    exact linking_refl _
  · rw [eq]
    refine {linking_refl db with
      jobKeys := kept_insert inserted,
      images := founded_insert inserted ?_,
      jobs := founded_insertAll added ?_,
      targets := founded_insertAll added ?_}
    · intro k same
      exact ⟨image,present,key.trans (Option.some.inj same)⟩
    · intro r new k same
      obtain ⟨i,bound,eq⟩ := List.mem_mapIdx.mp new
      rw [← eq] at same
      exact ⟨_,(Table.mem_insert inserted).mpr (Or.inr rfl),Option.some.inj same⟩
    · intro r new k same
      obtain ⟨i,bound,eq⟩ := List.mem_mapIdx.mp new
      rw [← eq] at same
      exact known_node (known _ (List.getElem_mem bound)) same

theorem report_linking {pf : Platform} {now : Time} {nodeId otaJobId status : Text}
    {info : Option Text} : Linking db (Fleet.updateStatus pf db now nodeId otaJobId status info).1 := by
  rcases OtaOffers.update_status_eq pf db now nodeId otaJobId status info with
    ⟨e,failed⟩ | ⟨row,-,-,-,eq⟩
  · rw [failed]
    exact linking_refl _
  · rw [eq]
    exact {linking_refl db with jobs := founded_update rfl fun _ => rfl, targets := founded_update rfl fun _ => rfl}

/-! Reports of the devices. -/

theorem ensure_node_linking {now : Time} {n : Text} (ok : Mqtt.ensureNode db now n = .ok db') :
    Linking db db' := by
  unfold Mqtt.ensureNode at ok
  split at ok
  · cases ok
    exact linking_refl _
  · obtain ⟨t,inserted,-,eq⟩ := commitInsert_ok ok
    subst eq
    exact {linking_refl db with nodeKeys := kept_insert inserted}

theorem commit_config_linking {n : Text} {seen : Option NodeConfig} {payload : JsonObject}
    (ok : Nodes.commitConfig db n seen payload = .ok db') : Linking db db' := by
  unfold Nodes.commitConfig at ok
  split at ok
  · cases ok
  · dsimp only at ok
    split at ok
    · obtain ⟨t,inserted,present,eq⟩ := commitInsert_ok ok
      subst eq
      exact {linking_refl db with configs := founded_insert inserted fun _ same => known_node present same}
    · split at ok
      · cases ok
      · cases ok
        exact {linking_refl db with configs := founded_update rfl fun _ => rfl}

theorem commit_shadow_linking {n : Text} {seen : Option NodeParamsShadow} {params : JsonObject}
    (ok : Nodes.commitShadow db n seen params = .ok db') : Linking db db' := by
  unfold Nodes.commitShadow at ok
  split at ok
  · obtain ⟨t,inserted,present,eq⟩ := commitInsert_ok ok
    subst eq
    exact {linking_refl db with shadows := founded_insert inserted fun _ same => known_node present same}
  · dsimp only at ok
    split at ok
    · cases ok
      exact linking_refl _
    · split at ok
      · cases ok
      · cases ok
        exact {linking_refl db with shadows := founded_update rfl fun _ => rfl}

theorem commit_last_keeps {last : Except Exc Db} (linked : Linked db)
    (ok : ∀ after, last = .ok after → Linking db after) : Linked (Mqtt.commitLast db last).1 := by
  unfold Mqtt.commitLast
  split
  · exact linked
  · exact linking_keeps (ok _ rfl) linked

theorem finalised_linking {now : Time} {mappingId : Uuid} {row : MappingChallenge}
    (ok : Access.finaliseMapping db now mappingId row = .ok db') : Linking db db' := by
  obtain ⟨n,-,⟨-,eq⟩ | ⟨t,appended,user,node,eq⟩⟩ := Access.finalise_mapping_cases ok
  · subst eq
    exact {linking_refl db with challenges := founded_update rfl fun _ => rfl}
  · subst eq
    refine {linking_refl db with
      challenges := founded_update rfl fun _ => rfl,
      mappingUsers := founded_appended appended ?_,
      mappingNodes := founded_appended appended ?_}
    · intro m new k same
      rw [List.mem_singleton.mp new] at same
      exact known_user user same
    · intro m new k same
      rw [List.mem_singleton.mp new] at same
      exact known_node node same

theorem match_challenge_linking {now : Time} {mappingId : Uuid} {n secretKey : Text} :
    Linking db (Mqtt.matchChallenge db now mappingId n secretKey).1 := by
  unfold Mqtt.matchChallenge
  split
  · exact linking_refl _
  · exact linking_refl _
  · split
    · exact {linking_refl db with challenges := founded_update rfl fun _ => rfl}
    · unfold Mqtt.commitLast
      split
      · exact linking_refl _
      · rename_i ok
        exact finalised_linking ok

theorem user_mapping_linking {now : Time} {mappingId : Uuid} {n : Text} {payload : Json} :
    Linking db (Mqtt.handleUserMapping db now mappingId n payload).1 := by
  unfold Mqtt.handleUserMapping
  split
  · split
    · exact linking_refl _
    · split
      · exact linking_refl _
      · split
        · exact linking_refl _
        · split
          · exact match_challenge_linking
          · exact linking_refl _
  · exact linking_refl _

theorem handle_keeps {pf : Platform} {now : Time} {mappingId : Uuid} {n suffix : Text}
    {payload : Json} (linked : Linked db) :
    Linked (Mqtt.handle pf db now mappingId n suffix payload).1 := by
  by_cases series : Redelivery.OnTsdata suffix
  · rw [Redelivery.handle_rows series]
    exact linking_keeps {linking_refl db with} linked
  · rw [Redelivery.OnTsdata,not_or] at series
    unfold Mqtt.handle
    rw [if_neg series.1,if_neg series.2]
    split
    · unfold Mqtt.handleConfig
      split
      · split
        · exact linked
        · rename_i ready
          rw [Nodes.refreshed_db]
          exact commit_last_keeps (linking_keeps (ensure_node_linking ready) linked) fun _ =>
            commit_config_linking
      · exact linked
    · split
      · unfold Mqtt.handleParamsLocal
        split
        · split
          · exact linked
          · rename_i ready
            rw [Nodes.refreshed_db]
            exact commit_last_keeps (linking_keeps (ensure_node_linking ready) linked) fun _ =>
              commit_shadow_linking
        · exact linked
      · split
        · exact linking_keeps user_mapping_linking linked
        · exact linked

theorem dispatch_keeps {pf : Platform} {now : Time} {mappingId : Uuid} {topic : Text}
    {payload : Bytes} (linked : Linked db) :
    Linked (Mqtt.dispatch pf db now mappingId topic payload) := by
  unfold Mqtt.dispatch
  split
  · exact linked
  · split
    · exact linked
    · exact handle_keeps linked

theorem set_online_linking {now : Time} {n : Text} {online : Bool} :
    Linking db (VmqAuthz.setOnline db now n online) :=
  {linking_refl db with nodeKeys := kept_update rfl fun _ => rfl}

theorem serve_node_keeps {pf : Platform} {now : Time} {node : Node} {request : NodeRequest}
    (linked : Linked db) : Linked (Api.serveNode pf db now node request) := by
  cases request with
  | putNodeConfig payload => exact commit_last_keeps linked fun _ => commit_config_linking
  | postNodeParamsLocal payload => exact commit_last_keeps linked fun _ => commit_shadow_linking
  | postNodeOtastatus otaJobId status info =>
    simp only [Api.serveNode]
    split
    · exact linked
    · exact linking_keeps report_linking linked

/-! Claims. -/

theorem concluded_linking {pf : Platform} {now : Time} {randbits : Nat} {csr : Bytes}
    {verdict : Claim.Verdict} (concluded : Claim.Concluded pf db now randbits csr verdict db') :
    Linking db db' := by
  cases concluded with
  | refused => exact linking_refl _
  | counted => exact {linking_refl db with}
  | consumed failed => exact {linking_refl db with}
  | issued signed stored =>
    obtain ⟨nodes,certs,eq,-,⟨-,same⟩ | ⟨-,added⟩⟩ := Claim.insert_certificate_ok stored
    · subst eq
      rw [same]
      exact {linking_refl db with}
    · subst eq
      exact {linking_refl db with nodeKeys := kept_insert added}

/-! Mapping and sharing. -/

theorem asked_linking {row : MappingChallenge}
    (ok : Access.addMappingChallenge db row = .ok db') : Linking db db' := by
  obtain ⟨t,inserted,known,eq⟩ := commitInsert_ok ok
  subst eq
  exact {linking_refl db with challenges := founded_insert inserted fun _ same => known_user known same}

theorem create_request_linking {now : Time} {ids : Nat → Uuid} {fromUserId : Uuid}
    {nodeIds : List Text} {toUserName : Text} (linked : Linked db) :
    Linking db (Access.createRequest db now ids fromUserId nodeIds toUserName).1 := by
  rcases Access.create_request_cases db now ids fromUserId nodeIds toUserName with
    eq | ⟨t,appended,owned,eq⟩
  · rw [eq]
    exact linking_refl _
  · rw [eq]
    refine {linking_refl db with
      requestNodes := founded_appended appended ?_,
      requestsFrom := founded_appended appended ?_}
    · intro r new k same
      obtain ⟨m,stored,-,node⟩ := owned r.nodeId (Access.mem_request_rows new).1
      exact linked.mappingNodes m stored k ((congrArg some node).trans same)
    · intro r new k same
      obtain ⟨listed,sender,-⟩ := Access.mem_request_rows new
      obtain ⟨m,stored,user,-⟩ := owned r.nodeId listed
      exact linked.mappingUsers m stored k ((congrArg some (user.trans sender.symm)).trans same)

theorem resolved_linking {now : Time} {shareId inviteeId : Uuid} {row : NodeSharingRequest}
    {accept : Bool} (linked : Linked db) (stored : row ∈ db.nodeSharingRequests)
    (known : db.hasUser inviteeId = true)
    (resolution : Access.Resolved db now shareId inviteeId row accept db') : Linking db db' := by
  cases resolution with
  | closed status settled =>
    exact {linking_refl db with
      requestNodes := founded_update rfl fun _ => rfl,
      requestsFrom := founded_update rfl fun _ => rfl}
  | shared t accepted valid appended =>
    refine {linking_refl db with
      requestNodes := founded_update rfl fun _ => rfl,
      requestsFrom := founded_update rfl fun _ => rfl,
      shareNodes := founded_appended appended ?_,
      sharesFrom := founded_appended appended ?_,
      sharesTo := founded_appended appended ?_}
    · intro s new k same
      rw [List.mem_singleton.mp new] at same
      exact linked.requestNodes row stored k same
    · intro s new k same
      rw [List.mem_singleton.mp new] at same
      exact linked.requestsFrom row stored k same
    · intro s new k same
      rw [List.mem_singleton.mp new] at same
      exact known_user known same

theorem verify_challenge_keeps {now : Time} {mappingId userId : Uuid} {requestId response : Text}
    (linked : Linked db) :
    Linked (Access.verifyChallenge db now mappingId userId requestId response).1 := by
  rcases Access.verify_challenge_cases db now mappingId userId requestId response with
    same | ⟨row,-,finalised⟩
  · rw [same]
    exact linked
  · exact linking_keeps (finalised_linking finalised) linked

theorem delete_user_node_keeps {userId : Uuid} {n : Text} (linked : Linked db) :
    Linked (Access.deleteUserNode db userId n).1 := by
  rcases Access.delete_user_node_cases db userId n with same | ⟨m,-,-,-,eq⟩
  · rw [same]
    exact linked
  · rw [eq]
    exact linking_keeps {linking_refl db with
      mappingUsers := founded_delete, mappingNodes := founded_delete} linked

theorem revoke_share_keeps {ownerId : Uuid} {nodeIds : List Text} {name : Text}
    (linked : Linked db) : Linked (Access.revokeShare db ownerId nodeIds name).1 := by
  rcases Access.revoke_share_cases db ownerId nodeIds name with ⟨same,-⟩ | ⟨guest,-,-,eq⟩
  · rw [same]
    exact linked
  · rw [eq]
    exact linking_keeps {linking_refl db with
      shareNodes := founded_delete, sharesFrom := founded_delete, sharesTo := founded_delete} linked

theorem resolve_keeps {now : Time} {shareId requestId : Uuid} {user : User} {accept : Bool}
    (linked : Linked db) (stored : user ∈ db.users) : Linked
      (Access.acceptOrDecline db now shareId user.id user.userName requestId accept).1 := by
  have known : db.hasUser user.id = true := Db.hasUser_iff.mpr ⟨user,stored,rfl⟩
  rcases Access.accept_or_decline_cases db now shareId user.id user.userName requestId accept with
    same | ⟨row,there,-,-,-,resolution⟩
  · rw [same]
    exact linked
  · exact linking_keeps (resolved_linking linked there known resolution) linked

/-! The deletion of an account. -/

theorem removed_refers {α : Type} [Schema α] {ref : α → Uuid} {t : Table α} {p : α → Bool}
    {userId : Uuid} (refers : Refers (some <| ref ·) User.id t db.users)
    (taken : ∀ r ∈ t, p r = false → ref r ≠ userId) :
    Refers (some <| ref ·) User.id (t.delete p) (db.users.delete fun r => r.id == userId) := by
  apply refers_cascade refers
  intro r stored stays s there named
  have same : ref r = s.id := Option.some.inj named
  rw [beq_eq_false_iff_ne,← same]
  exact taken r stored stays

theorem owned_removed {userId : Uuid} (forest : GroupForest.Grouped db) {g : NodeGroup}
    (stored : g ∈ (deleteCurrentUser db userId).nodeGroups) : g.ownerId ≠ userId := by
  intro owner
  obtain ⟨there,apart⟩ := (GroupForest.mem_cascade_groups forest).mp stored
  apply apart
  apply Forest.reached_root
  exact List.mem_map.mpr ⟨g,List.mem_filter.mpr ⟨there,by simpa using owner⟩,rfl⟩

theorem removed_keeps {userId : Uuid} (linked : Linked db) :
    Linked (deleteCurrentUser db userId) := by
  have forest : GroupForest.Grouped db := forested_iff.mp linked.forest
  have unnamed : ∀ {x : Uuid}, (x == userId) = false → x ≠ userId := fun h => by simpa using h
  exact {
    forest := cascade_linking.forest linked.forest,
    tokens := removed_refers linked.tokens fun _ _ stays => unnamed stays,
    configs := linked.configs,
    shadows := linked.shadows,
    mappingUsers := removed_refers linked.mappingUsers fun _ _ stays => unnamed stays,
    mappingNodes := refers_step linked.mappingNodes founded_delete kept_refl,
    challenges := removed_refers linked.challenges fun _ _ stays => unnamed stays,
    shareNodes := refers_step linked.shareNodes founded_delete kept_refl,
    sharesFrom := removed_refers linked.sharesFrom fun _ _ stays =>
      unnamed (Bool.or_eq_false_iff.mp stays).1,
    sharesTo := removed_refers linked.sharesTo fun _ _ stays =>
      unnamed (Bool.or_eq_false_iff.mp stays).2,
    requestNodes := refers_step linked.requestNodes founded_delete kept_refl,
    requestsFrom := removed_refers linked.requestsFrom fun _ _ stays => unnamed stays,
    owners := removed_refers linked.owners fun g stored stays =>
      owned_removed forest (Table.mem_delete.mpr ⟨stored,stays⟩),
    members := refers_step linked.members founded_delete kept_refl,
    automations := removed_refers linked.automations fun _ _ stays => unnamed stays,
    images := linked.images,
    jobs := linked.jobs,
    targets := linked.targets}

/-! Every call. -/

theorem account_keeps (pf : Platform) (now : Time) (c : AccountCall) (linked : Linked db) :
    Linked (serveAccount pf db now c).1 := by
  by_cases removal : ∃ id, c = .deleteCurrentUser id
  · obtain ⟨id,same⟩ := removal
    subst same
    exact removed_keeps linked
  · exact linking_keeps (account_linking fun id same => removal ⟨id,same⟩) linked

theorem serve_user_keeps {pf : Platform} {now : Time} {user : User} (stored : user ∈ db.users)
    (request : UserRequest) (linked : Linked db) :
    Linked (Api.serveUser pf db now user request) := by
  have known : db.hasUser user.id = true := Db.hasUser_iff.mpr ⟨user,stored,rfl⟩
  cases request with
  | changePassword salt password new =>
    simp only [Api.serveUser]
    rcases change_password_cases pf db salt user password new with ⟨e,failed⟩ | eq
    · rw [failed]
      exact linked
    · rw [eq]
      exact linking_keeps (edited_linking fun _ => rfl) linked
  | logout => exact account_keeps pf now (.logout user.id) linked
  | putCustomData payload =>
    simp only [Api.serveUser]
    rcases put_custom_data_cases db user payload with same | eq
    · rw [same]
      exact linked
    · rw [eq]
      exact linking_keeps (edited_linking fun _ => rfl) linked
  | deleteCurrentUser => exact removed_keeps linked
  | putUserNodeMapping rowId requestId nodeId secretKey operation =>
    simp only [Api.serveUser, Access.requestLegacyMapping]
    split
    · exact linked
    · split
      · exact linked
      · rename_i ok
        exact linking_keeps (asked_linking ok) linked
  | initiateMapping rowId requestId challenge nodeId =>
    simp only [Api.serveUser, Access.initiateChallenge]
    split
    · exact linked
    · split
      · exact linked
      · rename_i ok
        exact linking_keeps (asked_linking ok) linked
  | verifyMapping mappingId requestId response =>
    simp only [Api.serveUser]
    split
    · exact linked
    · exact verify_challenge_keeps linked
  | deleteUserNode n => exact delete_user_node_keeps linked
  | createSharingRequest ids nodes name => exact linking_keeps (create_request_linking linked) linked
  | resolveSharingRequest shareId requestId accept => exact resolve_keeps linked stored
  | revokeSharing nodes name => exact revoke_share_keeps linked
  | createGroup groupId memberIds name parent type exclusive nodes metadata =>
    exact linking_keeps (create_group_linking known) linked
  | deleteGroup groupId => exact linking_keeps delete_group_linking linked
  | createAutomation rowId name events actions operator metadata =>
    simp only [Api.serveUser]
    split
    · exact linked
    · exact linking_keeps create_automation_linking linked
  | updateAutomation rowId patch => exact linking_keeps update_automation_linking linked
  | deleteAutomation rowId => exact linking_keeps delete_automation_linking linked
  | initiateAssistedClaim rowId macAddr platform =>
    simp only [Api.serveUser]
    split
    · exact linked
    · rcases Claim.initiate_assisted_claim_cases pf db now rowId user.id macAddr platform with
        same | ⟨t,-,eq⟩
      · rw [same]
        exact linked
      · rw [eq]
        exact linking_keeps {linking_refl db with} linked
  | verifyAssistedClaim randbits csr =>
    simp only [Api.serveUser]
    split
    · exact linked
    · exact linking_keeps (concluded_linking
        (Claim.conclude_claim_concluded pf db now randbits csr _)) linked

theorem serve_keeps {pf : Platform} {now : Time} (c : Call) (linked : Linked db) :
    Linked (Api.serve pf db now c) := by
  cases c with
  | tick elapsed => exact linked
  | signup id salt code userName password => exact linking_keeps signup_linking linked
  | confirmSignup userName code =>
    exact account_keeps pf now (.confirmSignup userName code) linked
  | login draw userName password =>
    simp only [Api.serve]
    split
    · exact linked
    · exact account_keeps pf now (.loginPassword draw userName password) linked
  | forgotPassword code userName => exact linking_keeps reset_requested_linking linked
  | resetPassword salt userName code password =>
    exact account_keeps pf now (.confirmPasswordReset salt userName code password) linked
  | initiateSelfClaim id authId challenge macAddr platform =>
    simp only [Api.serve]
    split
    · exact linked
    · rcases Claim.initiate_self_claim_cases pf db now id authId challenge macAddr platform with
        same | ⟨t,-,-,eq⟩
      · rw [same]
        exact linked
      · rw [eq]
        exact linking_keeps {linking_refl db with} linked
  | verifySelfClaim randbits authId response csr =>
    simp only [Api.serve]
    split
    · exact linked
    · exact linking_keeps (concluded_linking
        (Claim.conclude_claim_concluded pf db now randbits csr _)) linked
  | user id request =>
    simp only [Api.serve]
    split
    · exact linked
    · rename_i user auth
      exact serve_user_keeps (current_user_ok auth).1 request linked
  | admin id request =>
    simp only [Api.serve]
    split
    · exact linked
    · rename_i admin auth
      cases request with
      | uploadRequest imageId name fwVersion fileSize model metadata =>
        simp only [Api.serveAdmin]
        split
        · exact linked
        · exact linking_keeps image_upload_linking linked
      | uploadConfirm imageId md5 sha256 => exact linking_keeps confirm_upload_linking linked
      | createOtajob jobId rowIds name imageId nodes policy =>
        simp only [Api.serveAdmin]
        split
        · exact linked
        · exact linking_keeps create_job_linking linked
  | node cn request =>
    simp only [Api.serve]
    split
    · exact linked
    · exact serve_node_keeps linked
  | dispatch mappingId topic payload => exact dispatch_keeps linked
  | onClientOnline clientId username =>
    simp only [Api.serve, VmqAuthz.markOnline]
    split
    · exact linked
    · split
      · exact linked
      · exact linking_keeps set_online_linking linked
  | onClientOffline clientId username =>
    simp only [Api.serve, VmqAuthz.markOffline]
    split
    · exact linked
    · split
      · exact linked
      · exact linking_keeps set_online_linking linked
  | revokeCertificate serial => exact linking_keeps {linking_refl db with} linked

end

/-! Whole runs. -/

section
variable {pf : Platform} {w : World} {u : Uuid}

theorem empty_linked : Linked .empty where
  forest := ⟨.nil,(fun _ stored => nomatch stored),fun _ stored => nomatch stored⟩
  tokens := refers_empty
  configs := refers_empty
  shadows := refers_empty
  mappingUsers := refers_empty
  mappingNodes := refers_empty
  challenges := refers_empty
  shareNodes := refers_empty
  sharesFrom := refers_empty
  sharesTo := refers_empty
  requestNodes := refers_empty
  requestsFrom := refers_empty
  owners := refers_empty
  members := refers_empty
  automations := refers_empty
  images := refers_empty
  jobs := refers_empty
  targets := refers_empty

/-- No call leaves a dangling reference, in whatever order the calls come. -/
theorem run_linked (linked : Linked w.db) (cs : List Call) :
    Linked (run (Api.step pf) w cs).db :=
  run_preserves (I := fun w => Linked w.db) (Api.step pf) (fun _ c => serve_keeps c) cs linked

theorem run_linked_new_deployment : Linked (run (Api.step Deployment.platform) ⟨.empty,0⟩
    [.signup 1 "salt" "123456" "ana@example.com" "password",
      .confirmSignup "ana@example.com" "123456",
      .user 1 (.initiateMapping 2 "request" "challenge" "node"),
      .user 1 (.createGroup 3 (fun i => i + 4) "home" none none false [] .null)]).db :=
  run_linked empty_linked _

theorem foreign_keys_of_linked {db : Db} (linked : Linked db) : BatchCreation.ForeignKeys db where
  mappings m stored := ⟨Db.hasUser_iff.mpr (linked.mappingUsers m stored _ rfl),
    Db.hasNode_iff.mpr (linked.mappingNodes m stored _ rfl)⟩
  targets r stored := linked.jobs r stored _ rfl
  members := (forested_iff.mp linked.forest).members

/-- Nothing is left of the account: no row names it and nothing can be done in
    its name. -/
structure Erased (u : Uuid) (db : Db) : Prop where
  account : ∀ r ∈ db.users, r.id ≠ u
  tokens : ∀ t ∈ db.refreshTokens, t.userId ≠ u
  mappings : ∀ m ∈ db.userNodeMappings, m.userId ≠ u
  challenges : ∀ c ∈ db.mappingChallenges, c.userId ≠ u
  shares : ∀ s ∈ db.nodeSharing, s.fromUserId ≠ u ∧ s.toUserId ≠ u
  requests : ∀ r ∈ db.nodeSharingRequests, r.fromUserId ≠ u
  groups : ∀ g ∈ db.nodeGroups, g.ownerId ≠ u
  automations : ∀ a ∈ db.automations, a.userId ≠ u
  refused : currentUser db u = .error (unauthorized "User not found")
  shut : ∀ n, Access.hasAccess db u n = .ok false

theorem erased_of_linked {db : Db} (linked : Linked db) (absent : ∀ r ∈ db.users, r.id ≠ u) :
    Erased u db := by
  have mappings : ∀ m ∈ db.userNodeMappings, m.userId ≠ u := fun m stored same =>
    refers_missing linked.mappingUsers absent m stored (congrArg some same)
  have shared : ∀ s ∈ db.nodeSharing, s.toUserId ≠ u := fun s stored same =>
    refers_missing linked.sharesTo absent s stored (congrArg some same)
  constructor
  case account => exact absent
  case mappings => exact mappings
  case tokens =>
    intro t stored same
    exact refers_missing linked.tokens absent t stored (congrArg some same)
  case challenges =>
    intro c stored same
    exact refers_missing linked.challenges absent c stored (congrArg some same)
  case shares =>
    intro s stored
    exact ⟨fun same => refers_missing linked.sharesFrom absent s stored (congrArg some same),
      shared s stored⟩
  case requests =>
    intro r stored same
    exact refers_missing linked.requestsFrom absent r stored (congrArg some same)
  case groups =>
    intro g stored same
    exact refers_missing linked.owners absent g stored (congrArg some same)
  case automations =>
    intro a stored same
    exact refers_missing linked.automations absent a stored (congrArg some same)
  case refused =>
    have none : userById db u = none := List.find?_eq_none.mpr fun r stored => by
      simpa using absent r stored
    simp [currentUser, none]
  case shut =>
    intro n
    rcases Access.has_access_spec db u n with ⟨-,⟨m,stored,user,-⟩ | ⟨s,stored,user,-⟩⟩ | ⟨no,-⟩
    · exact absurd user (mappings m stored)
    · exact absurd user (shared s stored)
    · exact no

theorem absent_stays {c : Call} (fresh : Participation.DrawsFresh u c)
    (absent : ∀ r ∈ w.db.users, r.id ≠ u) : ∀ r ∈ (Api.step pf w c).db.users, r.id ≠ u := by
  intro r stored same
  rcases GrantSteps.account_origin stored with ⟨salt,code,userName,password,drawn⟩ | ⟨old,there,key,-⟩
  · rw [drawn] at fresh
    exact fresh same
  · exact absent old there (key.trans same)

/-- `DELETE /user2` erases the account for good. -/
theorem deletion_erases {user : User} (linked : Linked w.db)
    (auth : currentUser w.db u = .ok user) (cs : List Call)
    (fresh : ∀ c ∈ cs, Participation.DrawsFresh u c) :
    Erased u (run (Api.step pf) w (.user u .deleteCurrentUser :: cs)).db := by
  have gone : ∀ r ∈ (Api.step pf w (.user u .deleteCurrentUser)).db.users, r.id ≠ u := by
    intro r stored
    have key : user.id = u := (current_user_ok auth).2.1
    simp only [Api.step, Api.serve, auth, Api.serveUser, key] at stored
    simpa using (Table.mem_delete.mp stored).2
  have stays : ∀ r ∈ (run (Api.step pf) (Api.step pf w (.user u .deleteCurrentUser)) cs).db.users,
      r.id ≠ u :=
    run_invariant (I := fun w => ∀ r ∈ w.db.users, r.id ≠ u) (Api.step pf)
      (fun _ _ absent fresh => absent_stays fresh absent) gone (along_of_forall _ fresh)
  exact erased_of_linked (run_linked linked _) stays

theorem deletion_erases_ana : Erased 1 (run (Api.step Deployment.platform)
    (Api.step Deployment.platform ⟨{users := Deployment.anaAndBob},0⟩
      (.user 1 (.initiateMapping 3 "request" "challenge" "node")))
    (.user 1 .deleteCurrentUser :: [.tick 60,.user 2 .logout])).db := by
  have accounts : Linked {users := Deployment.anaAndBob} :=
    linking_keeps {linking_refl .empty with userKeys := fun _ stored => nomatch stored} empty_linked
  have asked : Linked (run (Api.step Deployment.platform) ⟨{users := Deployment.anaAndBob},0⟩
      [.user 1 (.initiateMapping 3 "request" "challenge" "node")]).db := run_linked accounts _
  have auth : currentUser (run (Api.step Deployment.platform) ⟨{users := Deployment.anaAndBob},0⟩
      [.user 1 (.initiateMapping 3 "request" "challenge" "node")]).db 1 =
        .ok (Deployment.account 1 "ana@example.com") := rfl
  apply deletion_erases asked auth
  intro c listed
  simp only [List.mem_cons, List.not_mem_nil, or_false] at listed
  rcases listed with same | same <;> rw [same] <;> trivial

end
end RainmakerServer.ReferentialIntegrity
