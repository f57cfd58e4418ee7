import RainmakerServer.Api

/-!
Everything a call can do to the database, said once. The invariants of the
later modules go through the cases below and never unfold a handler.
-/
namespace RainmakerServer
open Tables

inductive AccessEffect (db : Db) (now : Time) : Call → Db → Prop where
  | expired {mappingId : Uuid} {topic : Text} {payload : Bytes} {n suffix : Text}
      {row : MappingChallenge} (topical : Mqtt.splitTopic topic = some (n,suffix))
      (stored : row ∈ db.mappingChallenges) (named : row.nodeId = some n)
      (pending : row.status = .pending) :
      AccessEffect db now (.dispatch mappingId topic payload)
        (Access.setChallenge db row.id .expired row.completedAt)
  | confirmed {mappingId : Uuid} {topic : Text} {payload : Bytes} {n suffix : Text}
      {row : MappingChallenge} {db' : Db} (topical : Mqtt.splitTopic topic = some (n,suffix))
      (stored : row ∈ db.mappingChallenges) (named : row.nodeId = some n)
      (pending : row.status = .pending) (valid : now ≤ row.expiresAt)
      (finalised : Access.finaliseMapping db now mappingId row = .ok db') :
      AccessEffect db now (.dispatch mappingId topic payload) db'
  | removed {id : Uuid} {user : User} (auth : Accounts.currentUser db id = .ok user) :
      AccessEffect db now (.user id .deleteCurrentUser) (Accounts.deleteCurrentUser db id)
  | asked {id : Uuid} {request : UserRequest} {row : MappingChallenge} {t : Table MappingChallenge}
      (caller : row.userId = id) (pending : row.status = .pending)
      (known : db.hasUser row.userId = true) (named : row.nodeId ≠ some [])
      (keyed : row.secretKey ≠ some [])
      (appended : t.rows = db.mappingChallenges.rows ++ [row]) :
      AccessEffect db now (.user id request) {db with mappingChallenges := t}
  | verified {id mappingId : Uuid} {requestId response : Text} {row : MappingChallenge} {db' : Db}
      (answer : Access.Answerable db now id requestId response row)
      (finalised : Access.finaliseMapping db now mappingId row = .ok db') :
      AccessEffect db now (.user id (.verifyMapping mappingId requestId response)) db'
  | unmapped {id : Uuid} {nodeId : Text} {m : UserNodeMapping} (stored : m ∈ db.userNodeMappings)
      (caller : m.userId = id) (named : m.nodeId = nodeId) :
      AccessEffect db now (.user id (.deleteUserNode nodeId))
        {db with userNodeMappings := db.userNodeMappings.delete fun r => r.id == m.id}
  | invited {id : Uuid} {ids : Nat → Uuid} {nodes : List Text} {userName : Text}
      {t : Table NodeSharingRequest}
      (appended : t.rows = db.nodeSharingRequests.rows ++
        Access.requestRows now ids id nodes (cut 254 userName))
      (owned : ∀ n ∈ nodes, Access.Owns db id n) :
      AccessEffect db now (.user id (.createSharingRequest ids nodes userName))
        {db with nodeSharingRequests := t}
  | resolved {id shareId requestId : Uuid} {accept : Bool} {user : User}
      {row : NodeSharingRequest} {db' : Db} (auth : Accounts.currentUser db id = .ok user)
      (stored : row ∈ db.nodeSharingRequests) (requested : row.id = requestId)
      (addressed : row.toUserName = user.userName) (pending : row.status = .pending)
      (resolution : Access.Resolved db now shareId id row accept db') :
      AccessEffect db now (.user id (.resolveSharingRequest shareId requestId accept)) db'
  | unshared {id : Uuid} {nodes userName : Text} {guest : User} (known : guest ∈ db.users)
      (named : guest.userName = userName) :
      AccessEffect db now (.user id (.revokeSharing nodes userName))
        {db with nodeSharing := db.nodeSharing.delete fun s =>
          (Api.nodeList nodes).contains s.nodeId && s.fromUserId == id && s.toUserId == guest.id}

inductive ClaimEffect (pf : Platform) (db : Db) (now : Time) : Call → Db → Prop where
  | initiatedSelf {id : Uuid} {authId : Text} {challenge : Bytes} {macAddr platform : Text}
      {t : Table ClaimChallenge} (provisioned : varchar 32 macAddr = true)
      (inserted : db.claimChallenges.insert
        (Claim.selfChallenge pf now id authId challenge macAddr platform) = .ok t) :
      ClaimEffect pf db now (.initiateSelfClaim id authId challenge macAddr platform)
        {db with claimChallenges := t}
  | initiatedAssisted {userId id : Uuid} {macAddr platform : Text} {t : Table ClaimChallenge}
      (inserted : db.claimChallenges.insert
        (Claim.assistedChallenge pf now id userId macAddr platform) = .ok t) :
      ClaimEffect pf db now (.user userId (.initiateAssistedClaim id macAddr platform))
        {db with claimChallenges := t}
  | verifiedSelf {randbits : Nat} {authId response : Text} {csr : Bytes} {db' : Db}
      (present : (csr.isEmpty || authId.isEmpty || response.isEmpty) = false)
      (concluded : Claim.Concluded pf db now randbits csr
        (Claim.verifySelfClaimCheck pf db now authId response) db') :
      ClaimEffect pf db now (.verifySelfClaim randbits authId response csr) db'
  | verifiedAssisted {userId : Uuid} {user : User} {randbits : Nat} {csr : Bytes} {db' : Db}
      (auth : Accounts.currentUser db userId = .ok user) (present : csr.isEmpty = false)
      (concluded : Claim.Concluded pf db now randbits csr
        (Claim.verifyAssistedClaimCheck db now userId) db') :
      ClaimEffect pf db now (.user userId (.verifyAssistedClaim randbits csr)) db'
  | revoked {serial : Text} :
      ClaimEffect pf db now (.revokeCertificate serial) (Claim.revokeCertificate db now serial)

inductive Effect (pf : Platform) (db : Db) (now : Time) : Call → Db → Prop where
  | none {c : Call} : Effect pf db now c db
  | fleet {c : Call} {db' : Db} (writes : Fleet.Writes db db') : Effect pf db now c db'
  | account {c : Call} {db' : Db} (writes : Accounts.Writes none db db') : Effect pf db now c db'
  | signedUp {id : Uuid} {salt code userName password : Text} {db' : Db}
      (writes : Accounts.Writes (some id) db db') :
      Effect pf db now (.signup id salt code userName password) db'
  | reported {c : Call} {db' : Db} (n : Text) (report : Nodes.Reports n db db') :
      Effect pf db now c db'
  | access {c : Call} {db' : Db} (effect : AccessEffect db now c db') : Effect pf db now c db'
  | claim {c : Call} {db' : Db} (effect : ClaimEffect pf db now c db') : Effect pf db now c db'

namespace Api
variable {pf : Platform} {db : Db} {now : Time}

theorem serve_user_effect {id : Uuid} {user : User} (auth : Accounts.currentUser db id = .ok user)
    (request : UserRequest) : Effect pf db now (.user id request)
      (serveUser pf db now user request) := by
  have key : user.id = id := (Accounts.current_user_ok auth).2.1
  cases request with
  | changePassword salt password new => exact .account Accounts.change_password_writes
  | logout => exact .account (Accounts.writes_tokens _ db _)
  | putCustomData payload => exact .account Accounts.put_custom_data_writes
  | deleteCurrentUser =>
    have same : serveUser pf db now user .deleteCurrentUser =
        Accounts.deleteCurrentUser db id := by rw [← key]; rfl
    rw [same]
    exact .access (.removed auth)
  | putUserNodeMapping rowId requestId nodeId secretKey operation =>
    simp only [serveUser, Access.requestLegacyMapping]
    split
    · exact .none
    · rename_i full
      rw [Bool.or_eq_true,not_or,List.isEmpty_iff,List.isEmpty_iff] at full
      split
      · exact .none
      · rename_i added
        obtain ⟨t,inserted,known,eq⟩ := commitInsert_ok added
        subst eq
        exact .access (.asked key rfl known (by simpa [Schema.stored, cut] using full.1)
          (by simpa [Schema.stored, cut] using full.2) (Table.insert_ok inserted).1)
  | initiateMapping rowId requestId challenge nodeId =>
    simp only [serveUser, Access.initiateChallenge]
    split
    · exact .none
    · rename_i full
      split
      · exact .none
      · rename_i added
        obtain ⟨t,inserted,known,eq⟩ := commitInsert_ok added
        subst eq
        exact .access (.asked key rfl known (by simpa [Schema.stored, cut] using full)
          (by simp [Schema.stored]) (Table.insert_ok inserted).1)
  | verifyMapping mappingId requestId response =>
    simp only [serveUser]
    split
    · exact .none
    · rcases Access.verify_challenge_cases db now mappingId user.id requestId response with
        eq | ⟨row,answer,finalised⟩
      · rw [eq]
        exact .none
      · rw [key] at answer
        exact .access (.verified answer finalised)
  | deleteUserNode nodeId =>
    simp only [serveUser]
    rcases Access.delete_user_node_cases db user.id nodeId with eq | ⟨m,stored,caller,named,eq⟩
    · rw [eq]
      exact .none
    · rw [eq]
      exact .access (.unmapped stored (caller.trans key) named)
  | createSharingRequest ids nodes userName =>
    simp only [serveUser]
    rcases Access.create_request_cases db now ids user.id nodes userName with
      eq | ⟨t,appended,owned,eq⟩
    · rw [eq]
      exact .none
    · rw [eq]
      rw [key] at appended owned
      exact .access (.invited appended owned)
  | resolveSharingRequest shareId requestId accept =>
    simp only [serveUser]
    rcases Access.accept_or_decline_cases db now shareId user.id user.userName requestId accept with
      eq | ⟨row,stored,requested,addressed,pending,resolution⟩
    · rw [eq]
      exact .none
    · rw [key] at resolution ⊢
      exact .access (.resolved auth stored requested addressed pending resolution)
  | revokeSharing nodes userName =>
    simp only [serveUser]
    rcases Access.revoke_share_cases db user.id (nodeList nodes) userName with
      ⟨eq,-⟩ | ⟨guest,known,named,eq⟩
    · rw [eq]
      exact .none
    · rw [eq,key]
      exact .access (.unshared known named)
  | createGroup groupId memberIds name parent type exclusive nodes metadata =>
    exact .fleet Fleet.create_group_writes
  | deleteGroup groupId => exact .fleet Fleet.delete_group_writes
  | createAutomation rowId name events actions operator metadata =>
    simp only [serveUser]
    split
    · exact .none
    · exact .fleet Fleet.create_automation_writes
  | updateAutomation rowId patch => exact .fleet Fleet.update_automation_writes
  | deleteAutomation rowId => exact .fleet Fleet.delete_automation_writes
  | initiateAssistedClaim rowId macAddr platform =>
    simp only [serveUser]
    split
    · exact .none
    · rcases Claim.initiate_assisted_claim_cases pf db now rowId user.id macAddr platform with
        eq | ⟨t,inserted,eq⟩
      · rw [eq]
        exact .none
      · rw [eq]
        rw [key] at inserted
        exact .claim (.initiatedAssisted inserted)
  | verifyAssistedClaim randbits csr =>
    simp only [serveUser]
    split
    · exact .none
    · rename_i present
      rw [key]
      exact .claim (.verifiedAssisted auth (by simpa using present)
        (Claim.conclude_claim_concluded pf db now randbits csr _))

theorem serve_effect (c : Call) : Effect pf db now c (serve pf db now c) := by
  cases c with
  | tick elapsed => exact .none
  | signup id salt code userName password => exact .signedUp Accounts.signup_writes
  | confirmSignup userName code => exact .account Accounts.confirm_signup_writes
  | login draw userName password =>
    simp only [serve]
    split
    · exact .none
    · exact .account Accounts.login_password_writes
  | forgotPassword code userName => exact .account Accounts.request_password_reset_writes
  | resetPassword salt userName code password =>
    exact .account Accounts.confirm_password_reset_writes
  | initiateSelfClaim id authId challenge macAddr platform =>
    simp only [serve]
    split
    · exact .none
    · rcases Claim.initiate_self_claim_cases pf db now id authId challenge macAddr platform with
        eq | ⟨t,provisioned,inserted,eq⟩
      · rw [eq]
        exact .none
      · rw [eq]
        exact .claim (.initiatedSelf provisioned inserted)
  | verifySelfClaim randbits authId response csr =>
    simp only [serve]
    split
    · exact .none
    · rename_i present
      exact .claim (.verifiedSelf (by simpa using present)
        (Claim.conclude_claim_concluded pf db now randbits csr _))
  | user id request =>
    simp only [serve]
    split
    · exact .none
    · rename_i auth
      exact serve_user_effect auth request
  | admin id request =>
    simp only [serve]
    split
    · exact .none
    · cases request with
      | uploadRequest imageId name fwVersion fileSize model metadata =>
        simp only [serveAdmin]
        split
        · exact .none
        · exact .fleet Fleet.create_image_upload_writes
      | uploadConfirm imageId md5 sha256 => exact .fleet Fleet.confirm_image_upload_writes
      | createOtajob jobId rowIds name imageId nodes policy =>
        simp only [serveAdmin]
        split
        · exact .none
        · exact .fleet Fleet.create_job_writes
  | node cn request =>
    simp only [serve]
    split
    · exact .none
    · rename_i node known
      cases request with
      | putNodeConfig payload =>
        exact .reported _ (Mqtt.commit_last_reports (Nodes.Reports.refl _ db)
          fun _ => Nodes.commit_config_reports)
      | postNodeParamsLocal payload =>
        exact .reported _ (Mqtt.commit_last_reports (Nodes.Reports.refl _ db)
          fun _ => Nodes.commit_shadow_reports)
      | postNodeOtastatus jobId status info =>
        simp only [serveNode]
        split
        · exact .none
        · exact .fleet Fleet.update_status_writes
  | dispatch mappingId topic payload =>
    rcases Mqtt.dispatch_cases pf db now mappingId topic payload with
      eq | ⟨n,suffix,topical,ingest⟩
    · simp only [serve, eq]
      exact .none
    · simp only [serve]
      generalize Mqtt.dispatch pf db now mappingId topic payload = db' at ingest
      cases ingest with
      | reported report => exact .reported _ report
      | expired row stored named pending late => exact .access (.expired topical stored named pending)
      | finalised row stored named pending valid finalised =>
        exact .access (.confirmed topical stored named pending valid finalised)
  | onClientOnline clientId username =>
    simp only [serve, VmqAuthz.markOnline]
    split
    · exact .none
    · split
      · exact .none
      · exact .reported _ VmqAuthz.set_online_reports
  | onClientOffline clientId username =>
    simp only [serve, VmqAuthz.markOffline]
    split
    · exact .none
    · split
      · exact .none
      · exact .reported _ VmqAuthz.set_online_reports
  | revokeCertificate serial => exact .claim .revoked

theorem step_effect (pf : Platform) (w : World) (c : Call) :
    Effect pf w.db w.now c (step pf w c).db := serve_effect c

end Api

/-! The two families do not meet. -/

structure SameClaims (db db' : Db) : Prop where
  provisioning : db'.deviceProvisioning = db.deviceProvisioning
  challenges : db'.claimChallenges = db.claimChallenges
  certificates : db'.nodeCertificates = db.nodeCertificates
  nodes : ∀ n, db.hasNode n = true → db'.hasNode n = true

theorem finalise_mapping_same_claims {db db' : Db} {now : Time} {mappingId : Uuid}
    {row : MappingChallenge} (ok : Access.finaliseMapping db now mappingId row = .ok db') :
    SameClaims db db' := by
  obtain ⟨_,_,eq⟩ := Access.finalise_mapping_frame ok
  subst eq
  exact ⟨rfl,rfl,rfl,fun _ h => h⟩

theorem access_same_claims {db db' : Db} {now : Time} {c : Call}
    (effect : AccessEffect db now c db') : SameClaims db db' := by
  cases effect with
  | confirmed topical stored named pending valid finalised =>
    exact finalise_mapping_same_claims finalised
  | verified answer finalised => exact finalise_mapping_same_claims finalised
  | resolved auth stored requested addressed pending resolution =>
    cases resolution with
    | closed status settled => exact ⟨rfl,rfl,rfl,fun _ h => h⟩
    | shared t accepted valid appended => exact ⟨rfl,rfl,rfl,fun _ h => h⟩
  | _ => exact ⟨rfl,rfl,rfl,fun _ h => h⟩

theorem same_claims_refl (db : Db) : SameClaims db db := ⟨rfl,rfl,rfl,fun _ h => h⟩

theorem reports_same_claims {n : Text} {db db' : Db} (report : Nodes.Reports n db db') :
    SameClaims db db' := by
  have kept := report.kept
  obtain ⟨_,_,_,_,eq⟩ := report.frame
  subst eq
  exact ⟨rfl,rfl,rfl,kept⟩

theorem effect_claims {pf : Platform} {db db' : Db} {now : Time} {c : Call}
    (effect : Effect pf db now c db') : SameClaims db db' ∨ ClaimEffect pf db now c db' := by
  cases effect with
  | none => exact Or.inl (same_claims_refl db)
  | fleet writes =>
    obtain ⟨_,_,_,_,_,_,eq⟩ := writes
    subst eq
    exact Or.inl ⟨rfl,rfl,rfl,fun _ h => h⟩
  | account writes =>
    obtain ⟨_,_,eq,-⟩ := writes
    subst eq
    exact Or.inl ⟨rfl,rfl,rfl,fun _ h => h⟩
  | signedUp writes =>
    obtain ⟨_,_,eq,-⟩ := writes
    subst eq
    exact Or.inl ⟨rfl,rfl,rfl,fun _ h => h⟩
  | reported n report => exact Or.inl (reports_same_claims report)
  | access effect => exact Or.inl (access_same_claims effect)
  | claim effect => exact Or.inr effect

structure SameAccess (c : Call) (db db' : Db) : Prop where
  challenges : db'.mappingChallenges = db.mappingChallenges
  mappings : db'.userNodeMappings = db.userNodeMappings
  sharing : db'.nodeSharing = db.nodeSharing
  requests : db'.nodeSharingRequests = db.nodeSharingRequests
  users : ∀ r ∈ db'.users, (∃ salt code userName password,
    c = .signup r.id salt code userName password) ∨
      ∃ old ∈ db.users, old.id = r.id ∧ old.userName = r.userName
  accounts : ∀ r ∈ db.users, ∃ new ∈ db'.users, new.id = r.id ∧ new.userName = r.userName

theorem same_access_of_equal {c : Call} {db db' : Db} (users : db'.users = db.users)
    (challenges : db'.mappingChallenges = db.mappingChallenges)
    (mappings : db'.userNodeMappings = db.userNodeMappings)
    (sharing : db'.nodeSharing = db.nodeSharing)
    (requests : db'.nodeSharingRequests = db.nodeSharingRequests) : SameAccess c db db' := by
  refine ⟨challenges,mappings,sharing,requests,?_,?_⟩
  · intro r stored
    rw [users] at stored
    exact Or.inr ⟨r,stored,rfl,rfl⟩
  · intro r stored
    rw [users]
    exact ⟨r,stored,rfl,rfl⟩

theorem claim_same_access {pf : Platform} {db db' : Db} {now : Time} {c : Call}
    (effect : ClaimEffect pf db now c db') : SameAccess c db db' := by
  cases effect with
  | verifiedSelf present concluded =>
    obtain ⟨_,_,_,eq⟩ := Claim.concluded_frame concluded
    subst eq
    exact same_access_of_equal rfl rfl rfl rfl rfl
  | verifiedAssisted auth present concluded =>
    obtain ⟨_,_,_,eq⟩ := Claim.concluded_frame concluded
    subst eq
    exact same_access_of_equal rfl rfl rfl rfl rfl
  | _ => exact same_access_of_equal rfl rfl rfl rfl rfl

theorem effect_access {pf : Platform} {db db' : Db} {now : Time} {c : Call}
    (effect : Effect pf db now c db') : SameAccess c db db' ∨ AccessEffect db now c db' := by
  cases effect with
  | none => exact Or.inl (same_access_of_equal rfl rfl rfl rfl rfl)
  | fleet writes =>
    obtain ⟨_,_,_,_,_,_,eq⟩ := writes
    subst eq
    exact Or.inl (same_access_of_equal rfl rfl rfl rfl rfl)
  | account writes =>
    obtain ⟨users,_,eq,origin,kept⟩ := writes
    subst eq
    refine Or.inl ⟨rfl,rfl,rfl,rfl,?_,kept⟩
    intro r stored
    rcases origin r stored with new | old
    · cases new
    · exact Or.inr old
  | signedUp writes =>
    obtain ⟨users,_,eq,origin,kept⟩ := writes
    subst eq
    refine Or.inl ⟨rfl,rfl,rfl,rfl,?_,kept⟩
    intro r stored
    rcases origin r stored with new | old
    · cases new
      exact Or.inl ⟨_,_,_,_,rfl⟩
    · exact Or.inr old
  | reported n report =>
    obtain ⟨_,_,_,_,eq⟩ := report.frame
    subst eq
    exact Or.inl (same_access_of_equal rfl rfl rfl rfl rfl)
  | access effect => exact Or.inr effect
  | claim effect => exact Or.inl (claim_same_access effect)

end RainmakerServer
