import RainmakerServer.ClaimProvenance
import RainmakerServer.GrantSteps
import RainmakerServer.Lib.Tickets

/-!
How old the request behind a grant can be. A mapping, a share and a certificate
are each the end of a flow that somebody opened: the open row is a ticket with
a deadline that no later call moves, so what is granted now was asked for
within the time of its flow.
-/
namespace RainmakerServer.Freshness
open Tables Runs Tickets Api

def lifetime (pf : Platform) : Call → Time
  | .user _ (.putUserNodeMapping _ _ _ _ _) => hours 1
  | .user _ (.initiateMapping _ _ _ _) => minutes 10
  | .user _ (.createSharingRequest _ _ _) => days 7
  | .user _ (.initiateAssistedClaim _ _ _) => seconds pf.settings.claimChallengeTtlSeconds
  | .initiateSelfClaim _ _ _ _ _ => seconds pf.settings.claimChallengeTtlSeconds
  | _ => 0

/-! Mappings. -/

section
variable {pf : Platform} {db db' : Db} {now : Time}

/-- The two requests that open a challenge, and the row that the columns store for each. -/
inductive Asks (now : Time) (u : Uuid) : UserRequest → MappingChallenge → Prop where
  | legacy {id : Uuid} {requestId nodeId secretKey operation : Text} :
      Asks now u (.putUserNodeMapping id requestId nodeId secretKey operation) (Schema.stored
        {id := id, requestId := requestId, userId := u, nodeId := some nodeId,
          secretKey := some secretKey, operation := operation, expiresAt := now + hours 1})
  | challenge {id : Uuid} {requestId challenge nodeId : Text} :
      Asks now u (.initiateMapping id requestId challenge nodeId) (Schema.stored
        {id := id, requestId := requestId, userId := u, nodeId := some nodeId,
          challenge := some challenge, operation := "add", expiresAt := now + minutes 10})

def Unasked (db db' : Db) : Prop :=
  ∀ row ∈ db'.mappingChallenges, row.status = .pending → row ∈ db.mappingChallenges

theorem unasked_of_same (same : db'.mappingChallenges = db.mappingChallenges) : Unasked db db' := by
  intro row stored _
  rwa [same] at stored

theorem unasked_of_fleet (writes : Fleet.Writes db db') : Unasked db db' := by
  obtain ⟨_,_,_,_,_,_,eq⟩ := writes
  subst eq
  exact unasked_of_same rfl

theorem unasked_of_account {drawn : Option Uuid} (writes : Accounts.Writes drawn db db') :
    Unasked db db' := by
  obtain ⟨_,_,eq,-⟩ := writes
  subst eq
  exact unasked_of_same rfl

theorem asked_row {row stored : MappingChallenge}
    (added : Access.addMappingChallenge db row = .ok db') (member : stored ∈ db'.mappingChallenges) :
    stored ∈ db.mappingChallenges ∨ stored = Schema.stored row := by
  obtain ⟨t,inserted,-,eq⟩ := commitInsert_ok added
  subst eq
  exact (Table.mem_insert inserted).mp member

theorem user_asks {user : User} (request : UserRequest) {row : MappingChallenge}
    (pending : row.status = .pending)
    (member : row ∈ (serveUser pf db now user request).mappingChallenges) :
    row ∈ db.mappingChallenges ∨ Asks now user.id request row := by
  cases request with
  | putUserNodeMapping id requestId nodeId secretKey operation =>
    simp only [serveUser, Access.requestLegacyMapping] at member
    split at member
    · exact Or.inl member
    · split at member
      · exact Or.inl member
      · rename_i added
        rcases asked_row added member with old | new
        · exact Or.inl old
        · rw [new]
          exact Or.inr .legacy
  | initiateMapping id requestId challenge nodeId =>
    simp only [serveUser, Access.initiateChallenge] at member
    split at member
    · exact Or.inl member
    · split at member
      · exact Or.inl member
      · rename_i added
        rcases asked_row added member with old | new
        · exact Or.inl old
        · rw [new]
          exact Or.inr .challenge
  | changePassword salt password new =>
    exact Or.inl (unasked_of_account Accounts.change_password_writes row member pending)
  | putCustomData payload =>
    exact Or.inl (unasked_of_account Accounts.put_custom_data_writes row member pending)
  | deleteCurrentUser => exact Or.inl (Table.mem_delete.mp member).1
  | verifyMapping mappingId requestId response =>
    left
    simp only [serveUser] at member
    split at member
    · exact member
    · rcases Access.verify_challenge_cases db now mappingId user.id requestId response with
        eq | ⟨challenge,-,finalised⟩
      · rw [eq] at member
        exact member
      · exact GrantSteps.finalised_open finalised pending member
  | deleteUserNode nodeId =>
    left
    simp only [serveUser] at member
    rcases Access.delete_user_node_cases db user.id nodeId with eq | ⟨m,-,-,-,eq⟩ <;>
      (rw [eq] at member; exact member)
  | createSharingRequest ids nodes userName =>
    left
    simp only [serveUser] at member
    rcases Access.create_request_cases db now ids user.id nodes userName with eq | ⟨t,-,-,eq⟩ <;>
      (rw [eq] at member; exact member)
  | resolveSharingRequest shareId requestId accept =>
    left
    simp only [serveUser] at member
    rcases Access.accept_or_decline_cases db now shareId user.id user.userName requestId accept with
      eq | ⟨q,-,-,-,-,resolution⟩
    · rw [eq] at member
      exact member
    · rw [(GrantSteps.resolved_frame resolution).challenges] at member
      exact member
  | revokeSharing nodes userName =>
    left
    simp only [serveUser] at member
    rcases Access.revoke_share_cases db user.id (nodeList nodes) userName with
      ⟨eq,-⟩ | ⟨guest,-,-,eq⟩ <;>
        (rw [eq] at member; exact member)
  | createGroup groupId memberIds name parent type exclusive nodes metadata =>
    exact Or.inl (unasked_of_fleet Fleet.create_group_writes row member pending)
  | deleteGroup groupId => exact Or.inl (unasked_of_fleet Fleet.delete_group_writes row member pending)
  | createAutomation id name events actions operator metadata =>
    left
    simp only [serveUser] at member
    split at member
    · exact member
    · exact unasked_of_fleet Fleet.create_automation_writes row member pending
  | updateAutomation id patch =>
    exact Or.inl (unasked_of_fleet Fleet.update_automation_writes row member pending)
  | deleteAutomation id =>
    exact Or.inl (unasked_of_fleet Fleet.delete_automation_writes row member pending)
  | initiateAssistedClaim id macAddr platform =>
    left
    simp only [serveUser] at member
    split at member
    · exact member
    · rcases Claim.initiate_assisted_claim_cases pf db now id user.id macAddr platform with
        eq | ⟨t,-,eq⟩ <;>
        (rw [eq] at member; exact member)
  | verifyAssistedClaim randbits csr =>
    left
    simp only [serveUser] at member
    split at member
    · exact member
    · obtain ⟨_,_,_,eq⟩ := Claim.concluded_frame
        (Claim.conclude_claim_concluded pf db now randbits csr
          (Claim.verifyAssistedClaimCheck db now user.id))
      rw [Claim.verifyAssistedClaim,eq] at member
      exact member
  | logout => exact Or.inl member

end

section
variable {pf : Platform} {w : World} {c : Call}

theorem other_asks (other : ∀ u request, c ≠ .user u request) :
    Unasked w.db (step pf w c).db := by
  rcases effect_access (step_effect pf w c) with same | effect
  · exact unasked_of_same same.challenges
  · generalize (step pf w c).db = after at effect
    cases effect with
    | expired topical stored named pending =>
      intro row member still
      exact GrantSteps.set_challenge_open (by decide) still member
    | confirmed topical stored named pending valid finalised =>
      intro row member still
      exact GrantSteps.finalised_open finalised still member
    | _ => exact absurd rfl (other _ _)

def Challenged (w : World) (t : MappingChallenge) : Prop :=
  t ∈ w.db.mappingChallenges ∧ t.status = .pending

def OpensChallenge (w : World) (c : Call) (t : MappingChallenge) : Prop :=
  ∃ u request, c = .user u request ∧ Asks w.now u request t

theorem asks_user {now : Time} {u : Uuid} {request : UserRequest} {row : MappingChallenge}
    (asks : Asks now u request row) : row.userId = u := by
  cases asks with
  | legacy => rfl
  | challenge => rfl

theorem challenge_opened (w : World) (c : Call) (t : MappingChallenge)
    (held : Challenged (step pf w c) t) : Challenged w t ∨ OpensChallenge w c t := by
  obtain ⟨member,pending⟩ := held
  by_cases request : ∃ u r, c = .user u r
  · obtain ⟨u,r,call⟩ := request
    subst call
    simp only [step, serve] at member
    split at member
    · exact Or.inl ⟨member,pending⟩
    · rename_i user auth
      rw [← (Accounts.current_user_ok auth).2.1]
      rcases user_asks r pending member with old | asks
      · exact Or.inl ⟨old,pending⟩
      · exact Or.inr ⟨user.id,r,rfl,asks⟩
  · have other : ∀ u r, c ≠ .user u r := fun u r call => request ⟨u,r,call⟩
    exact Or.inl ⟨other_asks other t member pending,pending⟩

theorem challenge_limited (w : World) (c : Call) (t : MappingChallenge)
    (opened : OpensChallenge w c t) : t.expiresAt ≤ w.now + lifetime pf c := by
  obtain ⟨u,request,call,asks⟩ := opened
  subst call
  cases asks with
  | legacy => exact Int.le_refl _
  | challenge => exact Int.le_refl _

/-- A new mapping was asked for by its user not longer ago than the flow of the
    request stays open. -/
theorem mapping_is_fresh {cs : List Call} {m : UserNodeMapping}
    (none : ∀ row ∈ w.db.mappingChallenges, row.status ≠ .pending)
    (absent : m ∉ (run (step pf) w cs).db.userNodeMappings)
    (new : m ∈ (step pf (run (step pf) w cs) c).db.userNodeMappings) :
    ∃ pre request row post, cs = pre ++ .user m.userId request :: post ∧
      Asks (run (step pf) w pre).now m.userId request row ∧ row.nodeId = some m.nodeId ∧
      (run (step pf) w cs).now ≤
        (run (step pf) w pre).now + lifetime pf (.user m.userId request) := by
  rcases GrantSteps.mapping_origin new with old | ⟨row,backing⟩
  · exact absurd old absent
  · have before : ¬ Challenged w row := by
      rintro ⟨stored,pending⟩
      exact none row stored pending
    obtain ⟨pre,d,post,split,⟨u,request,call,asks⟩,recent⟩ := opened_in_time (step pf)
      World.now MappingChallenge.expiresAt (lifetime pf) challenge_opened challenge_limited before
      ⟨backing.stored,backing.pending⟩ backing.valid
    subst call
    have caller : u = m.userId := (asks_user asks).symm.trans backing.user
    subst caller
    exact ⟨pre,request,row,post,split,asks,backing.node,recent⟩

/-! Shares. -/

def Invited (w : World) (t : NodeSharingRequest) : Prop :=
  t ∈ w.db.nodeSharingRequests ∧ t.status = .pending

structure OpensInvitationAt (w : World) (c : Call) (t : NodeSharingRequest) (ids : Nat → Uuid)
    (nodes : List Text) (userName : Text) (i : Nat) : Prop where
  call : c = .user t.fromUserId (.createSharingRequest ids nodes userName)
  addressed : t.toUserName = cut 254 userName
  listed : nodes[i]? = some t.nodeId
  key : t.id = ids i
  expiry : t.expiresAt = w.now + days 7
  owned : Access.Owns w.db t.fromUserId t.nodeId

def OpensInvitation (w : World) (c : Call) (t : NodeSharingRequest) : Prop :=
  ∃ ids nodes userName i, OpensInvitationAt w c t ids nodes userName i

theorem invitation_opened (w : World) (c : Call) (t : NodeSharingRequest)
    (held : Invited (step pf w c) t) : Invited w t ∨ OpensInvitation w c t := by
  obtain ⟨member,open'⟩ := held
  cases GrantSteps.request_origin member with
  | kept stored => exact Or.inl ⟨stored,open'⟩
  | settled old stored closed update => exact absurd open' closed
  | invited id ids nodes userName call fresh owned =>
    obtain ⟨listed,sender,name,-,expiry⟩ := Access.mem_request_rows fresh
    obtain ⟨i,place,key⟩ := Access.request_row_place fresh
    subst sender
    exact Or.inr ⟨ids,nodes,userName,i,call,name,place,key,expiry,owned _ listed⟩

theorem invitation_limited (w : World) (c : Call) (t : NodeSharingRequest)
    (opened : OpensInvitation w c t) : t.expiresAt ≤ w.now + lifetime pf c := by
  obtain ⟨ids,nodes,userName,i,opens⟩ := opened
  rw [opens.call]
  exact Int.le_of_eq opens.expiry

/-- A new share was accepted by its guest, who named the very invitation that a
    user who owned the node made out to the guest's name not more than a week before. -/
theorem share_is_fresh {cs : List Call} {s : NodeSharing}
    (none : ∀ q ∈ w.db.nodeSharingRequests, q.status ≠ .pending)
    (absent : s ∉ (run (step pf) w cs).db.nodeSharing)
    (new : s ∈ (step pf (run (step pf) w cs) c).db.nodeSharing) :
    ∃ guest pre ids nodes userName i post,
      c = .user s.toUserId (.resolveSharingRequest s.id (ids i) true) ∧
      guest ∈ (run (step pf) w cs).db.users ∧ guest.id = s.toUserId ∧
      cut 254 userName = guest.userName ∧
      cs = pre ++ .user s.fromUserId (.createSharingRequest ids nodes userName) :: post ∧
      nodes[i]? = some s.nodeId ∧ Access.Owns (run (step pf) w pre).db s.fromUserId s.nodeId ∧
      (run (step pf) w cs).now ≤ (run (step pf) w pre).now + days 7 := by
  rcases GrantSteps.share_origin new with old | ⟨row,guest,accepted⟩
  · exact absurd old absent
  · have before : ¬ Invited w row := by
      rintro ⟨stored,pending⟩
      exact none row stored pending
    obtain ⟨pre,d,post,split,⟨ids,nodes,userName,i,opens⟩,recent⟩ := opened_in_time (step pf)
      World.now NodeSharingRequest.expiresAt (lifetime pf) invitation_opened invitation_limited
      before ⟨accepted.stored,accepted.pending⟩ accepted.valid
    have named : c = .user s.toUserId (.resolveSharingRequest s.id (ids i) true) := by
      rw [← opens.key]
      exact accepted.call
    have addressed : cut 254 userName = guest.userName :=
      opens.addressed.symm.trans accepted.addressed
    have listed := opens.listed
    have owned := opens.owned
    have call := opens.call
    rw [accepted.node] at listed
    rw [accepted.sender,accepted.node] at owned
    rw [accepted.sender] at call
    subst call
    exact ⟨guest,pre,ids,nodes,userName,i,post,named,accepted.known,accepted.key,addressed,split,
      listed,owned,recent⟩

/-! Certificates. -/

def posed (r : ClaimChallenge) : ClaimChallenge :=
  {r with attempts := 0, status := .pending, verifiedAt := none}

def Posed (w : World) (t : ClaimChallenge) : Prop :=
  ∃ r ∈ w.db.claimChallenges, posed r = t

inductive OpensClaim (pf : Platform) (w : World) : Call → ClaimChallenge → Prop where
  | self {id : Uuid} {authId : Text} {challenge : Bytes} {macAddr platform : Text} :
      OpensClaim pf w (.initiateSelfClaim id authId challenge macAddr platform)
        (Schema.stored (Claim.selfChallenge pf w.now id authId challenge macAddr platform))
  | assisted {u id : Uuid} {macAddr platform : Text} :
      OpensClaim pf w (.user u (.initiateAssistedClaim id macAddr platform))
        (Schema.stored (Claim.assistedChallenge pf w.now id u macAddr platform))

theorem posed_of_kept {db db' : Db} (kept : Claim.ChallengesKept db db') {r : ClaimChallenge}
    (stored : r ∈ db'.claimChallenges) : ∃ old ∈ db.claimChallenges, posed old = posed r := by
  obtain ⟨old,earlier,attempts,status,verifiedAt,same⟩ := kept r stored
  rw [same]
  exact ⟨old,earlier,rfl⟩

theorem claim_opened (w : World) (c : Call) (t : ClaimChallenge) (held : Posed (step pf w c) t) :
    Posed w t ∨ OpensClaim pf w c t := by
  obtain ⟨r,member,same⟩ := held
  rcases effect_claims (step_effect pf w c) with kept | effect
  · rw [kept.challenges] at member
    exact Or.inl ⟨r,member,same⟩
  · generalize (step pf w c).db = after at effect member
    cases effect with
    | initiatedSelf provisioned inserted =>
      rcases (Table.mem_insert inserted).mp member with old | new
      · exact Or.inl ⟨r,old,same⟩
      · rw [← same,new]
        exact Or.inr .self
    | initiatedAssisted inserted =>
      rcases (Table.mem_insert inserted).mp member with old | new
      · exact Or.inl ⟨r,old,same⟩
      · rw [← same,new]
        exact Or.inr .assisted
    | verifiedSelf present concluded =>
      obtain ⟨old,earlier,alike⟩ := posed_of_kept (Claim.concluded_kept concluded) member
      exact Or.inl ⟨old,earlier,alike.trans same⟩
    | verifiedAssisted auth present concluded =>
      obtain ⟨old,earlier,alike⟩ := posed_of_kept (Claim.concluded_kept concluded) member
      exact Or.inl ⟨old,earlier,alike.trans same⟩
    | revoked => exact Or.inl ⟨r,member,same⟩

theorem claim_limited (w : World) (c : Call) (t : ClaimChallenge) (opened : OpensClaim pf w c t) :
    t.expiresAt ≤ w.now + lifetime pf c := by
  cases opened with
  | self => exact Int.le_refl _
  | assisted => exact Int.le_refl _

/-- The parties of a claim: whoever was told the `auth_id` of a self-claim, or the
    user of an assisted one. The same party opens it and ends it. -/
inductive SameParty : Call → Call → Prop where
  | self {id : Uuid} {authId : Text} {challenge : Bytes} {macAddr platform : Text} {randbits : Nat}
      {response : Text} {csr : Bytes} :
      SameParty (.initiateSelfClaim id authId challenge macAddr platform)
        (.verifySelfClaim randbits (cut 64 authId) response csr)
  | assisted {u id : Uuid} {macAddr platform : Text} {randbits : Nat} {csr : Bytes} :
      SameParty (.user u (.initiateAssistedClaim id macAddr platform))
        (.user u (.verifyAssistedClaim randbits csr))

theorem issue_origin {serial cn : Text} (early : ¬ ClaimProvenance.Holds serial cn w)
    (late : ClaimProvenance.Holds serial cn (step pf w c)) :
    ∃ row ∈ w.db.claimChallenges, row.nodeId = cn ∧ w.now ≤ row.expiresAt ∧
      ((∃ randbits authId response csr, c = .verifySelfClaim randbits authId response csr ∧
          row.mode = .self ∧ row.authId = some authId) ∨
        ∃ u randbits csr, c = .user u (.verifyAssistedClaim randbits csr) ∧
          row.mode = .assisted ∧ row.userId = some u) := by
  unfold ClaimProvenance.Holds at early late
  rcases effect_claims (step_effect pf w c) with same | effect
  · rw [same.certificates] at late
    exact absurd late early
  · generalize (step pf w c).db = db' at effect late
    cases effect with
    | initiatedSelf provisioned inserted => exact absurd late early
    | initiatedAssisted inserted => exact absurd late early
    | verifiedSelf present concluded =>
      obtain ⟨row,accepted,named⟩ := ClaimProvenance.concluded_issues
        (fun row accepted => (Claim.self_claim_check_row (Or.inl accepted)).1.stored) concluded
        early late
      obtain ⟨usable,addressed⟩ := Claim.self_claim_check_row (Or.inl accepted)
      exact ⟨row,usable.stored,named,usable.valid,Or.inl ⟨_,_,_,_,rfl,usable.moded,addressed⟩⟩
    | verifiedAssisted auth present concluded =>
      obtain ⟨row,accepted,named⟩ := ClaimProvenance.concluded_issues
        (fun row accepted => (Claim.assisted_claim_check_iff.mp accepted).usable.stored) concluded
        early late
      obtain ⟨usable,owned,-⟩ := Claim.assisted_claim_check_iff.mp accepted
      exact ⟨row,usable.stored,named,usable.valid,Or.inr ⟨_,_,_,rfl,usable.moded,owned⟩⟩
    | revoked =>
      obtain ⟨r,member,number,name⟩ := late
      simp only [Claim.revokeCertificate, Table.mem_update] at member
      obtain ⟨old,earlier,eq⟩ := member
      have kept : old.serial = serial ∧ old.cn = cn := by
        rw [← number,← name,← eq]
        split <;> exact ⟨rfl,rfl⟩
      exact absurd ⟨old,earlier,kept⟩ early

/-- A new certificate ends a claim that the same party opened for its name not
    longer ago than a claim stays open. -/
theorem certificate_is_fresh {cs : List Call} {serial cn : Text}
    (none : w.db.claimChallenges.rows = [])
    (early : ¬ ClaimProvenance.Holds serial cn (run (step pf) w cs))
    (late : ClaimProvenance.Holds serial cn (step pf (run (step pf) w cs) c)) :
    ∃ pre d macAddr post, cs = pre ++ d :: post ∧ SameParty d c ∧
      ClaimIdentity.mints d = some macAddr ∧ cn = Claim.storedNodeId pf macAddr ∧
      (run (step pf) w cs).now ≤
        (run (step pf) w pre).now + seconds pf.settings.claimChallengeTtlSeconds := by
  obtain ⟨row,stored,named,valid,party⟩ := issue_origin early late
  have before : ¬ Posed w (posed row) := by
    intro held
    obtain ⟨r,there,-⟩ := held
    rw [Table.mem_def,none] at there
    cases there
  obtain ⟨pre,d,post,split,opened,recent⟩ := opened_in_time (step pf)
    World.now ClaimChallenge.expiresAt (lifetime pf)
    claim_opened claim_limited before ⟨row,stored,rfl⟩ valid
  generalize eq : posed row = t at opened
  have node : t.nodeId = row.nodeId := by rw [← eq]; rfl
  have mode : t.mode = row.mode := by rw [← eq]; rfl
  have authId : t.authId = row.authId := by rw [← eq]; rfl
  have userId : t.userId = row.userId := by rw [← eq]; rfl
  cases opened with
  | @self id opener challenge macAddr platform =>
    rcases party with ⟨randbits,other,response,csr,call,-,addressed⟩ | ⟨u,randbits,csr,-,moded,-⟩
    · rw [addressed] at authId
      cases authId
      subst call
      exact ⟨pre,_,macAddr,post,split,.self,rfl,(node.trans named).symm,recent⟩
    · rw [moded] at mode
      cases mode
  | @assisted opener id macAddr platform =>
    rcases party with ⟨randbits,other,response,csr,-,moded,-⟩ | ⟨u,randbits,csr,call,-,owned⟩
    · rw [moded] at mode
      cases mode
    · rw [owned] at userId
      cases userId
      subst call
      exact ⟨pre,_,macAddr,post,split,.assisted,rfl,(node.trans named).symm,recent⟩

end

/-! Ana maps a plug nine minutes after she asked, shares it, and claims a device. -/

def anaAndPlug : World where
  db := {users := Deployment.anaAndBob, nodes := .one {nodeId := "plug"}}
  now := 0

def anaAsks : List Call :=
  [.user 1 (.initiateMapping 20 Deployment.token16 Deployment.token32 "plug"),.tick 540000000]

theorem plug_mapping_is_fresh : ∃ pre request row post,
    anaAsks = pre ++ .user 1 request :: post ∧
      Asks (run (step Deployment.platform) anaAndPlug pre).now 1 request row ∧
      row.nodeId = some "plug".toList ∧
      (run (step Deployment.platform) anaAndPlug anaAsks).now ≤
        (run (step Deployment.platform) anaAndPlug pre).now +
          lifetime Deployment.platform (.user 1 request) :=
  mapping_is_fresh (c := .user 1 (.verifyMapping 21 Deployment.token16 Deployment.token32))
    (m := ⟨21,1,"plug",.primary,true⟩) (by decide +kernel) (by decide +kernel)
    (by decide +kernel)

def anaShares : List Call :=
  anaAsks ++ [.user 1 (.verifyMapping 21 Deployment.token16 Deployment.token32),
    .user 1 (.createSharingRequest (fun i => i + 30) ["plug"] "bob@example.com"),.tick 540000000]

theorem plug_share_is_fresh : ∃ guest pre ids nodes userName i post,
    Call.user 2 (.resolveSharingRequest 40 30 true) =
        .user 2 (.resolveSharingRequest 40 (ids i) true) ∧
      guest ∈ (run (step Deployment.platform) anaAndPlug anaShares).db.users ∧ guest.id = 2 ∧
      cut 254 userName = guest.userName ∧
      anaShares = pre ++ .user 1 (.createSharingRequest ids nodes userName) :: post ∧
      nodes[i]? = some "plug".toList ∧
      Access.Owns (run (step Deployment.platform) anaAndPlug pre).db 1 "plug" ∧
      (run (step Deployment.platform) anaAndPlug anaShares).now ≤
        (run (step Deployment.platform) anaAndPlug pre).now + days 7 :=
  share_is_fresh (s := ⟨40,"plug",1,2,.secondary⟩) (by decide +kernel) (by decide +kernel)
    (by decide +kernel)

def anaClaims : List Call :=
  [.user 1 (.initiateAssistedClaim 10 "AABBCCDDEEFF" "esp32"),.tick 600000000]

theorem assisted_certificate_is_fresh : ∃ pre d macAddr post, anaClaims = pre ++ d :: post ∧
      SameParty d (.user 1 (.verifyAssistedClaim 4 Deployment.deviceCsr)) ∧
      ClaimIdentity.mints d = some macAddr ∧
      "aabbccddeeff".toList = Claim.storedNodeId Deployment.platform macAddr ∧
      (run (step Deployment.platform) ClaimIdentity.oneUser anaClaims).now ≤
        (run (step Deployment.platform) ClaimIdentity.oneUser pre).now +
          seconds Deployment.platform.settings.claimChallengeTtlSeconds := by
  have unissued : ¬ ClaimProvenance.Holds "5" "aabbccddeeff"
      (run (step Deployment.platform) ClaimIdentity.oneUser anaClaims) := by
    unfold ClaimProvenance.Holds
    decide +kernel
  exact certificate_is_fresh rfl unissued (by unfold ClaimProvenance.Holds; decide +kernel)

end RainmakerServer.Freshness
