import RainmakerServer.Effects
import RainmakerServer.OtaOffers
import RainmakerServer.UserStores

/-!
Which tables a call can write. The tables fall into parts that the services keep
apart; a call writes the parts of its footprint and no other, whether it returns
or raises. What holds of the rows of a part is kept by every call outside it.
-/
namespace RainmakerServer.Footprint
open Tables Accounts

inductive Part where
  | accounts
  | stores
  | grants
  | claims
  | nodes
  | reports
  | images
  | rollouts
  deriving DecidableEq

def Same (db db' : Db) : Part → Prop
  | .accounts => db'.users = db.users ∧ db'.refreshTokens = db.refreshTokens
  | .stores => db'.automations = db.automations ∧ db'.nodeGroups = db.nodeGroups ∧
      db'.nodeGroupNodes = db.nodeGroupNodes
  | .grants => db'.mappingChallenges = db.mappingChallenges ∧
      db'.userNodeMappings = db.userNodeMappings ∧
      db'.nodeSharingRequests = db.nodeSharingRequests ∧ db'.nodeSharing = db.nodeSharing
  | .claims => db'.claimChallenges = db.claimChallenges ∧
      db'.nodeCertificates = db.nodeCertificates ∧
      db'.deviceProvisioning = db.deviceProvisioning
  | .nodes => db'.nodes = db.nodes
  | .reports => db'.nodeConfigs = db.nodeConfigs ∧ db'.nodeParamsShadow = db.nodeParamsShadow ∧
      db'.tsdata = db.tsdata
  | .images => db'.otaImages = db.otaImages
  | .rollouts => db'.otaJobs = db.otaJobs ∧ db'.otaJobNodes = db.otaJobNodes

def Only (parts : List Part) (db db' : Db) : Prop := ∀ part, part ∉ parts → Same db db' part

@[simp] def userFootprint : UserRequest → List Part
  | .changePassword _ _ _ => [.accounts]
  | .logout => [.accounts]
  | .putCustomData _ => [.accounts]
  | .deleteCurrentUser => [.accounts,.stores,.grants]
  | .putUserNodeMapping _ _ _ _ _ => [.grants]
  | .initiateMapping _ _ _ _ => [.grants]
  | .verifyMapping _ _ _ => [.grants]
  | .deleteUserNode _ => [.grants]
  | .createSharingRequest _ _ _ => [.grants]
  | .resolveSharingRequest _ _ _ => [.grants]
  | .revokeSharing _ _ => [.grants]
  | .createGroup _ _ _ _ _ _ _ _ => [.stores]
  | .deleteGroup _ => [.stores]
  | .createAutomation _ _ _ _ _ _ => [.stores]
  | .updateAutomation _ _ => [.stores]
  | .deleteAutomation _ => [.stores]
  | .initiateAssistedClaim _ _ _ => [.claims]
  | .verifyAssistedClaim _ _ => [.claims,.nodes]

@[simp] def adminFootprint : AdminRequest → List Part
  | .uploadRequest _ _ _ _ _ _ => [.images]
  | .uploadConfirm _ _ _ => [.images]
  | .createOtajob _ _ _ _ _ _ => [.rollouts]

@[simp] def nodeFootprint : NodeRequest → List Part
  | .putNodeConfig _ => [.nodes,.reports]
  | .postNodeParamsLocal _ => [.nodes,.reports]
  | .postNodeOtastatus _ _ _ => [.rollouts]

@[simp] def footprint : Call → List Part
  | .tick _ => []
  | .signup _ _ _ _ _ => [.accounts]
  | .confirmSignup _ _ => [.accounts]
  | .login _ _ _ => [.accounts]
  | .forgotPassword _ _ => [.accounts]
  | .resetPassword _ _ _ _ => [.accounts]
  | .initiateSelfClaim _ _ _ _ _ => [.claims]
  | .verifySelfClaim _ _ _ _ => [.claims,.nodes]
  | .user _ request => userFootprint request
  | .admin _ request => adminFootprint request
  | .node _ request => nodeFootprint request
  | .dispatch _ _ _ => [.nodes,.reports,.grants]
  | .onClientOnline _ _ => [.nodes]
  | .onClientOffline _ _ => [.nodes]
  | .revokeCertificate _ => [.claims]

theorem user_footprint_outside (request : UserRequest) :
    .reports ∉ userFootprint request ∧ .rollouts ∉ userFootprint request := by
  cases request <;> simp

/-! The writes of the services. -/

section
variable {db db' : Db} {parts : List Part}

theorem only_refl (db : Db) : Only parts db db := by
  intro part _
  cases part <;> simp [Same]

theorem only_more {more : List Part} (only : Only parts db db') (within : ∀ p ∈ parts, p ∈ more) :
    Only more db db' :=
  fun part outside => only part fun inside => outside (within part inside)

theorem only_accounts (users : Table User) (tokens : Table RefreshToken) :
    Only [.accounts] db {db with users := users, refreshTokens := tokens} := by
  intro part outside
  cases part <;> simp_all [Same]

theorem only_stores (automations : Table Automation) (groups : Table NodeGroup)
    (members : Table NodeGroupNode) : Only [.stores] db {db with
      automations := automations, nodeGroups := groups, nodeGroupNodes := members} := by
  intro part outside
  cases part <;> simp_all [Same]

theorem only_grants (challenges : Table MappingChallenge) (mappings : Table UserNodeMapping)
    (requests : Table NodeSharingRequest) (shares : Table NodeSharing) : Only [.grants] db {db with
      mappingChallenges := challenges, userNodeMappings := mappings,
      nodeSharingRequests := requests, nodeSharing := shares} := by
  intro part outside
  cases part <;> simp_all [Same]

theorem only_claims (challenges : Table ClaimChallenge) (certificates : Table NodeCertificate) :
    Only [.claims] db {db with claimChallenges := challenges, nodeCertificates := certificates} := by
  intro part outside
  cases part <;> simp_all [Same]

theorem only_nodes (nodes : Table Node) : Only [.nodes] db {db with nodes := nodes} := by
  intro part outside
  cases part <;> simp_all [Same]

theorem only_images (images : Table OtaImage) : Only [.images] db {db with otaImages := images} := by
  intro part outside
  cases part <;> simp_all [Same]

theorem only_rollouts (jobs : Table OtaJob) (targets : Table OtaJobNode) :
    Only [.rollouts] db {db with otaJobs := jobs, otaJobNodes := targets} := by
  intro part outside
  cases part <;> simp_all [Same]

theorem only_account {drawn : Option Uuid} (writes : Accounts.Writes drawn db db') :
    Only [.accounts] db db' := by
  obtain ⟨users,tokens,eq,-⟩ := writes
  subst eq
  exact only_accounts users tokens

theorem only_removed (u : Uuid) :
    Only [.accounts,.stores,.grants] db (deleteCurrentUser db u) := by
  intro part outside
  cases part <;> simp_all [Same, deleteCurrentUser, Fleet.cascadeGroups]

theorem only_reported {n : Text} (report : Nodes.Reports n db db') :
    Only [.nodes,.reports] db db' := by
  obtain ⟨_,_,_,_,eq⟩ := report.frame
  subst eq
  intro part outside
  cases part <;> simp_all [Same]

theorem only_finalised {now : Time} {mappingId : Uuid} {row : MappingChallenge}
    (ok : Access.finaliseMapping db now mappingId row = .ok db') : Only [.grants] db db' := by
  obtain ⟨mappings,challenges,eq⟩ := Access.finalise_mapping_frame ok
  subst eq
  exact only_grants challenges mappings _ _

theorem only_asked {row : MappingChallenge} (added : Access.addMappingChallenge db row = .ok db') :
    Only [.grants] db db' := by
  obtain ⟨challenges,-,-,eq⟩ := commitInsert_ok added
  subst eq
  exact only_grants challenges _ _ _

theorem only_resolved {now : Time} {shareId guestId : Uuid} {row : NodeSharingRequest}
    {accept : Bool} (resolution : Access.Resolved db now shareId guestId row accept db') :
    Only [.grants] db db' := by
  cases resolution with
  | closed status settled => exact only_grants _ _ _ _
  | shared shares accepted valid inserted => exact only_grants _ _ _ shares

theorem only_concluded {pf : Platform} {now : Time} {randbits : Nat} {csr : Bytes}
    {verdict : Claim.Verdict} (concluded : Claim.Concluded pf db now randbits csr verdict db') :
    Only [.claims,.nodes] db db' := by
  obtain ⟨_,_,_,eq⟩ := Claim.concluded_frame concluded
  subst eq
  intro part outside
  cases part <;> simp_all [Same]

end

/-! Every call. -/

section
variable {pf : Platform} {db : Db} {now : Time}

theorem serve_user_only {user : User} (request : UserRequest) :
    Only (userFootprint request) db (Api.serveUser pf db now user request) := by
  cases request with
  | changePassword salt password new => exact only_account change_password_writes
  | logout => exact only_accounts _ _
  | putCustomData payload => exact only_account put_custom_data_writes
  | deleteCurrentUser => exact only_removed user.id
  | putUserNodeMapping rowId requestId nodeId secretKey operation =>
    simp only [Api.serveUser, Access.requestLegacyMapping]
    split
    · exact only_refl db
    · split
      · exact only_refl db
      · rename_i added
        exact only_asked added
  | initiateMapping rowId requestId challenge nodeId =>
    simp only [Api.serveUser, Access.initiateChallenge]
    split
    · exact only_refl db
    · split
      · exact only_refl db
      · rename_i added
        exact only_asked added
  | verifyMapping mappingId requestId response =>
    simp only [Api.serveUser]
    split
    · exact only_refl db
    · rcases Access.verify_challenge_cases db now mappingId user.id requestId response with
        eq | ⟨row,-,finalised⟩
      · rw [eq]
        exact only_refl db
      · exact only_finalised finalised
  | deleteUserNode nodeId =>
    simp only [Api.serveUser]
    rcases Access.delete_user_node_cases db user.id nodeId with eq | ⟨_,-,-,-,eq⟩
    · rw [eq]
      exact only_refl db
    · rw [eq]
      exact only_grants _ _ _ _
  | createSharingRequest ids nodes userName =>
    simp only [Api.serveUser]
    rcases Access.create_request_cases db now ids user.id nodes userName with eq | ⟨_,-,-,eq⟩
    · rw [eq]
      exact only_refl db
    · rw [eq]
      exact only_grants _ _ _ _
  | resolveSharingRequest shareId requestId accept =>
    simp only [Api.serveUser]
    rcases Access.accept_or_decline_cases db now shareId user.id user.userName requestId accept with
      eq | ⟨_,-,-,-,-,resolution⟩
    · rw [eq]
      exact only_refl db
    · exact only_resolved resolution
  | revokeSharing nodes userName =>
    simp only [Api.serveUser]
    rcases Access.revoke_share_cases db user.id (Api.nodeList nodes) userName with
      ⟨eq,-⟩ | ⟨_,-,-,eq⟩
    · rw [eq]
      exact only_refl db
    · rw [eq]
      exact only_grants _ _ _ _
  | createGroup groupId memberIds name parent type exclusive nodes metadata =>
    simp only [Api.serveUser]
    rcases GroupForest.create_group_cases db groupId memberIds user.id name parent type exclusive
      nodes metadata with ⟨e,failed⟩ | ⟨groups,members,-,-,-,-,-,eq⟩
    · rw [failed]
      exact only_refl db
    · rw [eq]
      exact only_stores _ groups members
  | deleteGroup groupId =>
    simp only [Api.serveUser]
    rcases GroupForest.delete_group_cases db user.id groupId with ⟨e,failed⟩ | ⟨g,-,-,-,eq⟩
    · rw [failed]
      exact only_refl db
    · rw [eq]
      exact only_stores _ _ _
  | createAutomation rowId name events actions operator metadata =>
    simp only [Api.serveUser]
    split
    · exact only_refl db
    · obtain ⟨t,eq⟩ := @UserStores.create_automation_tables user.id db rowId name events actions
        operator metadata
      rw [eq]
      exact only_stores t _ _
  | updateAutomation rowId patch =>
    obtain ⟨t,eq⟩ := @UserStores.update_automation_tables user.id db rowId patch
    simp only [Api.serveUser, eq]
    exact only_stores t _ _
  | deleteAutomation rowId =>
    obtain ⟨t,eq⟩ := @UserStores.delete_automation_tables user.id db rowId
    simp only [Api.serveUser, eq]
    exact only_stores t _ _
  | initiateAssistedClaim rowId macAddr platform =>
    simp only [Api.serveUser]
    split
    · exact only_refl db
    · rcases Claim.initiate_assisted_claim_cases pf db now rowId user.id macAddr platform with
        eq | ⟨_,-,eq⟩
      · rw [eq]
        exact only_refl db
      · rw [eq]
        exact only_claims _ _
  | verifyAssistedClaim randbits csr =>
    simp only [Api.serveUser]
    split
    · exact only_refl db
    · exact only_concluded (Claim.conclude_claim_concluded pf db now randbits csr _)

theorem serve_admin_only {admin : User} (request : AdminRequest) :
    Only (adminFootprint request) db (Api.serveAdmin pf db now admin request) := by
  cases request with
  | uploadRequest imageId name fwVersion fileSize model metadata =>
    simp only [Api.serveAdmin, Fleet.createImageUpload]
    split
    · exact only_refl db
    · split
      · exact only_refl db
      · rename_i stored
        obtain ⟨images,-,-,eq⟩ := commitInsert_ok stored
        subst eq
        exact only_images images
  | uploadConfirm imageId md5 sha256 =>
    simp only [Api.serveAdmin, Fleet.confirmImageUpload]
    split
    · exact only_refl db
    · exact only_refl db
    · split
      · exact only_refl db
      · exact only_images _
  | createOtajob jobId rowIds name imageId nodes policy =>
    simp only [Api.serveAdmin]
    split
    · exact only_refl db
    · rcases BatchCreation.create_job_cases db now jobId rowIds name imageId nodes policy
        (some admin.id) with ⟨e,failed⟩ | ⟨jobs,targets,-,-,-,-,eq⟩
      · rw [failed]
        exact only_refl db
      · rw [eq]
        exact only_rollouts jobs targets

theorem serve_node_only {node : Node} (request : NodeRequest) :
    Only (nodeFootprint request) db (Api.serveNode pf db now node request) := by
  cases request with
  | putNodeConfig payload =>
    exact only_reported (Mqtt.commit_last_reports (Nodes.Reports.refl (cut 64 node.nodeId) db)
      fun _ => Nodes.commit_config_reports)
  | postNodeParamsLocal payload =>
    exact only_reported (Mqtt.commit_last_reports (Nodes.Reports.refl (cut 64 node.nodeId) db)
      fun _ => Nodes.commit_shadow_reports)
  | postNodeOtastatus jobId status info =>
    simp only [Api.serveNode]
    split
    · exact only_refl db
    · rcases OtaOffers.update_status_eq pf db now node.nodeId jobId status info with
        ⟨e,failed⟩ | ⟨row,-,-,-,eq⟩
      · rw [failed]
        exact only_refl db
      · rw [eq]
        exact only_rollouts _ _

theorem dispatch_only {mappingId : Uuid} {topic : Text} {payload : Bytes} :
    Only [.nodes,.reports,.grants] db (Mqtt.dispatch pf db now mappingId topic payload) := by
  rcases Mqtt.dispatch_cases pf db now mappingId topic payload with
    eq | ⟨n,suffix,topical,ingest⟩
  · rw [eq]
    exact only_refl db
  · generalize Mqtt.dispatch pf db now mappingId topic payload = db' at ingest
    cases ingest with
    | reported report => exact only_more (only_reported report) (by simp)
    | expired row stored named pending late => exact only_more (only_grants _ _ _ _) (by simp)
    | finalised row stored named pending valid finalised =>
      exact only_more (only_finalised finalised) (by simp)

theorem serve_only (pf : Platform) (db : Db) (now : Time) (c : Call) :
    Only (footprint c) db (Api.serve pf db now c) := by
  cases c with
  | tick elapsed => exact only_refl db
  | signup id salt code userName password => exact only_account signup_writes
  | confirmSignup userName code => exact only_account confirm_signup_writes
  | login draw userName password =>
    simp only [Api.serve]
    split
    · exact only_refl db
    · exact only_account login_password_writes
  | forgotPassword code userName => exact only_account request_password_reset_writes
  | resetPassword salt userName code password => exact only_account confirm_password_reset_writes
  | initiateSelfClaim id authId challenge macAddr platform =>
    simp only [Api.serve]
    split
    · exact only_refl db
    · rcases Claim.initiate_self_claim_cases pf db now id authId challenge macAddr platform with
        eq | ⟨_,-,-,eq⟩
      · rw [eq]
        exact only_refl db
      · rw [eq]
        exact only_claims _ _
  | verifySelfClaim randbits authId response csr =>
    simp only [Api.serve]
    split
    · exact only_refl db
    · exact only_concluded (Claim.conclude_claim_concluded pf db now randbits csr _)
  | user id request =>
    simp only [Api.serve]
    split
    · exact only_refl db
    · exact serve_user_only request
  | admin id request =>
    simp only [Api.serve]
    split
    · exact only_refl db
    · exact serve_admin_only request
  | node cn request =>
    simp only [Api.serve]
    split
    · exact only_refl db
    · exact serve_node_only request
  | dispatch mappingId topic payload => exact dispatch_only
  | onClientOnline clientId username =>
    simp only [Api.serve, VmqAuthz.markOnline]
    split
    · exact only_refl db
    · split
      · exact only_refl db
      · exact only_nodes _
  | onClientOffline clientId username =>
    simp only [Api.serve, VmqAuthz.markOffline]
    split
    · exact only_refl db
    · split
      · exact only_refl db
      · exact only_nodes _
  | revokeCertificate serial => exact only_claims _ _

end
end RainmakerServer.Footprint
