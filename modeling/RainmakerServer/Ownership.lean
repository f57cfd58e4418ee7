import RainmakerServer.Footprint
import RainmakerServer.GrantSteps
import RainmakerServer.HttpCalls
import RainmakerServer.ReferentialIntegrity
import RainmakerServer.UserStores

/-!
What belongs to a user is out of reach of everyone else. The account, its tokens,
automations, groups and mappings are written only by requests that authenticate
as the user or carry a code that was sent to them; what others can do is to end
what the user has begun.
-/
namespace RainmakerServer.Ownership
open Tables Runs Accounts UserStores

/-- An account but for its last login and for the code to reset its password,
    which anyone who knows its name can ask for. -/
def SameAccount (old new : User) : Prop :=
  new = {old with
    resetCode := new.resetCode, resetCodeExp := new.resetCodeExp, lastLoginAt := new.lastLoginAt}

structure OwnKept (u : Uuid) (db db' : Db) : Prop where
  account : ∀ r ∈ db.users, r.id = u → ∃ new ∈ db'.users, SameAccount r new
  tokens : ∀ t ∈ db.refreshTokens, t.userId = u → t ∈ db'.refreshTokens
  automations : db'.automations.rows.filter (·.userId == u) =
    db.automations.rows.filter (·.userId == u)
  groups : db'.nodeGroups.rows.filter (·.ownerId == u) = db.nodeGroups.rows.filter (·.ownerId == u)
  members : (db'.nodeGroupNodes.rows.filter fun m => held db' u m.groupId) =
    db.nodeGroupNodes.rows.filter fun m => held db u m.groupId

def ChallengeEnds (old new : MappingChallenge) : Prop :=
  new = {old with status := new.status, completedAt := new.completedAt} ∧
    (old.status ≠ .pending → new = old)

def InvitationEnds (old new : NodeSharingRequest) : Prop :=
  new = {old with status := new.status} ∧ (old.status ≠ .pending → new = old)

structure GrantsKept (u : Uuid) (db db' : Db) : Prop where
  mappings : ∀ m ∈ db.userNodeMappings, m.userId = u → m ∈ db'.userNodeMappings
  gained : ∀ m ∈ db'.userNodeMappings, m.userId = u → m ∈ db.userNodeMappings ∨
    ∃ c ∈ db.mappingChallenges, c.userId = u ∧ c.nodeId = some m.nodeId ∧ c.status = .pending
  challenges :
    Carried ChallengeEnds (fun c => c.userId = u) db.mappingChallenges db'.mappingChallenges
  invitations :
    Carried InvitationEnds (fun q => q.fromUserId = u) db.nodeSharingRequests db'.nodeSharingRequests
  given : ∀ s ∈ db'.nodeSharing, s.fromUserId = u → s ∈ db.nodeSharing ∨
    ∃ q ∈ db.nodeSharingRequests, q.fromUserId = u ∧ q.nodeId = s.nodeId ∧ q.status = .pending
  received : ∀ s ∈ db'.nodeSharing, s.toUserId = u → s ∈ db.nodeSharing

structure Untouched (u : Uuid) (db db' : Db) : Prop where
  own : OwnKept u db db'
  grants : GrantsKept u db db'

section
variable {u : Uuid} {db db' db'' : Db}

theorem same_account_refl (r : User) : SameAccount r r := rfl

theorem same_account_trans {a b c : User} (first : SameAccount a b) (second : SameAccount b c) :
    SameAccount a c := by
  unfold SameAccount at first second ⊢
  rw [second,first]

theorem same_account_id {a b : User} (same : SameAccount a b) : b.id = a.id := by
  rw [same]

theorem own_trans (first : OwnKept u db db') (second : OwnKept u db' db'') : OwnKept u db db'' := by
  constructor
  · intro r stored key
    obtain ⟨mid,there,same⟩ := first.account r stored key
    obtain ⟨new,later,again⟩ := second.account mid there ((same_account_id same).trans key)
    exact ⟨new,later,same_account_trans same again⟩
  · intro t stored key
    exact second.tokens t (first.tokens t stored key) key
  · exact second.automations.trans first.automations
  · exact second.groups.trans first.groups
  · exact second.members.trans first.members

theorem challenge_ends_refl (c : MappingChallenge) : ChallengeEnds c c := ⟨rfl,fun _ => rfl⟩

theorem invitation_ends_refl (q : NodeSharingRequest) : InvitationEnds q q := ⟨rfl,fun _ => rfl⟩

theorem challenge_ends_user {old new : MappingChallenge} (ends : ChallengeEnds old new) :
    new.userId = old.userId := by
  rw [ends.1]

theorem challenge_ends_node {old new : MappingChallenge} (ends : ChallengeEnds old new) :
    new.nodeId = old.nodeId := by
  rw [ends.1]

theorem invitation_ends_sender {old new : NodeSharingRequest} (ends : InvitationEnds old new) :
    new.fromUserId = old.fromUserId := by
  rw [ends.1]

theorem invitation_ends_node {old new : NodeSharingRequest} (ends : InvitationEnds old new) :
    new.nodeId = old.nodeId := by
  rw [ends.1]

theorem open_before {α β : Type} {status : α → β} {pending : β} {old row : α}
    (settled : status old ≠ pending → row = old) (opened : status row = pending) :
    status old = pending := by
  by_contra closed
  rw [settled closed] at opened
  exact closed opened

theorem settled_trans {α β : Type} {status : α → β} {pending : β} {old mid row : α}
    (first : status old ≠ pending → mid = old) (second : status mid ≠ pending → row = mid)
    (closed : status old ≠ pending) : row = old := by
  have still := first closed
  rw [← still] at closed
  exact (second closed).trans still

theorem challenge_ends_trans (a b c : MappingChallenge) (first : ChallengeEnds a b)
    (second : ChallengeEnds b c) : ChallengeEnds a c := by
  refine ⟨?_,settled_trans first.2 second.2⟩
  rw [second.1,first.1]

theorem invitation_ends_trans (a b c : NodeSharingRequest) (first : InvitationEnds a b)
    (second : InvitationEnds b c) : InvitationEnds a c := by
  refine ⟨?_,settled_trans first.2 second.2⟩
  rw [second.1,first.1]

theorem grants_refl : GrantsKept u db db := by
  constructor
  · exact fun m stored _ => stored
  · exact fun m stored _ => Or.inl stored
  · exact carried_refl challenge_ends_refl
  · exact carried_refl invitation_ends_refl
  · exact fun s stored _ => Or.inl stored
  · exact fun s stored _ => stored

theorem grants_trans (first : GrantsKept u db db') (second : GrantsKept u db' db'') :
    GrantsKept u db db'' := by
  constructor
  · intro m stored key
    exact second.mappings m (first.mappings m stored key) key
  · intro m stored key
    rcases second.gained m stored key with there | ⟨c,there,caller,node,pending⟩
    · exact first.gained m there key
    · obtain ⟨old,before,ends⟩ := first.challenges.2 c there caller
      right
      exact ⟨old,before,(challenge_ends_user ends).symm.trans caller,
        (challenge_ends_node ends).symm.trans node,open_before ends.2 pending⟩
  · refine carried_trans challenge_ends_trans ?_ first.challenges second.challenges
    intro a b ends
    rw [challenge_ends_user ends]
  · refine carried_trans invitation_ends_trans ?_ first.invitations second.invitations
    intro a b ends
    rw [invitation_ends_sender ends]
  · intro s stored key
    rcases second.given s stored key with there | ⟨q,there,sender,node,pending⟩
    · exact first.given s there key
    · obtain ⟨old,before,ends⟩ := first.invitations.2 q there sender
      right
      exact ⟨old,before,(invitation_ends_sender ends).symm.trans sender,
        (invitation_ends_node ends).symm.trans node,open_before ends.2 pending⟩
  · intro s stored key
    exact first.received s (second.received s stored key) key

theorem untouched_trans (first : Untouched u db db') (second : Untouched u db' db'') :
    Untouched u db db'' :=
  ⟨own_trans first.own second.own,grants_trans first.grants second.grants⟩

/-! Accounts, tokens and stores, call by call. -/

theorem own_of_tables (users : db'.users = db.users) (tokens : db'.refreshTokens = db.refreshTokens)
    (automations : db'.automations = db.automations) (groups : db'.nodeGroups = db.nodeGroups)
    (members : db'.nodeGroupNodes = db.nodeGroupNodes) : OwnKept u db db' := by
  constructor
  · intro r stored key
    rw [users]
    exact ⟨r,stored,same_account_refl r⟩
  · intro t stored key
    rw [tokens]
    exact stored
  · rw [automations]
  · rw [groups]
  · rw [members]
    apply List.filter_congr
    intro m _
    exact held_congr (by rw [groups]) m.groupId

theorem own_refl (db : Db) : OwnKept u db db := own_of_tables rfl rfl rfl rfl rfl

theorem own_of_view (agree : Agree u db db') (users : db'.users = db.users)
    (tokens : db'.refreshTokens = db.refreshTokens) : OwnKept u db db' := by
  constructor
  · intro r stored key
    rw [users]
    exact ⟨r,stored,same_account_refl r⟩
  · intro t stored key
    rw [tokens]
    exact stored
  · exact agree.automations.symm
  · exact agree.groups.symm
  · exact agree.members.symm

theorem own_of_account {users : Table User} {tokens : Table RefreshToken}
    (account : ∀ r ∈ db.users, r.id = u → ∃ new ∈ users, SameAccount r new)
    (kept : ∀ t ∈ db.refreshTokens, t.userId = u → t ∈ tokens) :
    OwnKept u db {db with users := users, refreshTokens := tokens} :=
  ⟨account,kept,rfl,rfl,rfl⟩

theorem edited_own {id : Uuid} {f : User → User} {keep hold}
    (mild : id = u → ∀ r, SameAccount r (f r)) : OwnKept u db (setUser db id f keep hold) := by
  apply own_of_account
  · intro r stored key
    refine ⟨_,(@mem_set_user db id f keep hold _).mpr ⟨r,stored,rfl⟩,?_⟩
    split
    · rename_i hit
      rw [beq_iff_eq] at hit
      exact mild (hit.symm.trans key) r
    · exact same_account_refl r
  · exact fun t stored _ => stored

theorem own_of_only {parts : List Footprint.Part} (only : Footprint.Only parts db db')
    (accounts : .accounts ∉ parts) (stores : .stores ∉ parts) : OwnKept u db db' := by
  obtain ⟨users,tokens⟩ := only .accounts accounts
  obtain ⟨automations,groups,members⟩ := only .stores stores
  exact own_of_tables users tokens automations groups members

theorem create_automation_own {v id : Uuid} {name events actions operator metadata : Json}
    (other : v ≠ u) :
    OwnKept u db (Fleet.createAutomation db id v name events actions operator metadata).1 := by
  have agree := @create_automation_unseen u v db id name events actions operator metadata other
  obtain ⟨t,eq⟩ := @create_automation_tables v db id name events actions operator metadata
  rw [eq] at agree ⊢
  exact own_of_view agree rfl rfl

theorem update_automation_own {v id : Uuid} {patch : JsonObject} (other : v ≠ u) :
    OwnKept u db (Fleet.updateAutomation db v id patch).1 := by
  have agree := @update_automation_unseen u v db id patch other
  obtain ⟨t,eq⟩ := @update_automation_tables v db id patch
  rw [eq] at agree ⊢
  exact own_of_view agree rfl rfl

theorem delete_automation_own {v id : Uuid} (other : v ≠ u) :
    OwnKept u db (Fleet.deleteAutomation db v id).1 := by
  have agree := @delete_automation_unseen u v db id other
  obtain ⟨t,eq⟩ := @delete_automation_tables v db id
  rw [eq] at agree ⊢
  exact own_of_view agree rfl rfl

theorem create_group_own {v groupId : Uuid} {memberIds : Nat → Uuid} {name : Text}
    {parent : Option Uuid} {type : Option Text} {exclusive : Bool} {nodes : List Text}
    {metadata : Json} (other : v ≠ u) : OwnKept u db
      (Fleet.createGroup db groupId memberIds v name parent type exclusive nodes metadata).1 := by
  have agree := @create_group_unseen u v db groupId memberIds name parent type exclusive nodes
    metadata other
  rcases GroupForest.create_group_cases db groupId memberIds v name parent type exclusive nodes
    metadata with ⟨e,failed⟩ | ⟨groups,members,-,-,-,-,-,eq⟩
  · rw [failed]
    exact own_refl db
  · rw [eq] at agree ⊢
    exact own_of_view agree rfl rfl

theorem delete_group_own {v groupId : Uuid} (grouped : GroupForest.Grouped db) (other : v ≠ u) :
    OwnKept u db (Fleet.deleteGroup db v groupId).1 := by
  have agree := @delete_group_unseen u v db groupId grouped other
  rcases GroupForest.delete_group_cases db v groupId with ⟨e,failed⟩ | ⟨g,-,-,-,eq⟩
  · rw [failed]
    exact own_refl db
  · rw [eq] at agree ⊢
    exact own_of_view agree rfl rfl

theorem removed_own {v : Uuid} (grouped : GroupForest.Grouped db) (other : v ≠ u) :
    OwnKept u db (deleteCurrentUser db v) := by
  have unseen : Agree u db (Fleet.cascadeGroups db
      ((db.nodeGroups.select fun g => g.ownerId == v).map (·.id))) := by
    apply unseen_cascade
    intro x own
    obtain ⟨h,mine,key⟩ := held_iff.mp own
    obtain ⟨there,belongs⟩ := List.mem_filter.mp mine
    rw [beq_iff_eq] at belongs
    by_contra taken
    rw [Bool.not_eq_false,List.contains_iff_mem,GroupForest.mem_descendants grouped,← key] at taken
    obtain ⟨root,member,path⟩ := taken
    obtain ⟨g,listed,same⟩ := List.mem_map.mp member
    obtain ⟨stored,owner⟩ := Table.mem_select.mp listed
    rw [beq_iff_eq] at owner
    rw [← same] at path
    have owners : h.ownerId = g.ownerId := GroupForest.below_owner grouped stored there path
    exact other (owner.symm.trans (owners.symm.trans belongs))
  constructor
  · intro r stored key
    refine ⟨r,Table.mem_delete.mpr ⟨stored,?_⟩,same_account_refl r⟩
    rw [key,beq_eq_false_iff_ne]
    exact other.symm
  · intro t stored key
    refine Table.mem_delete.mpr ⟨stored,?_⟩
    rw [key,beq_eq_false_iff_ne]
    exact other.symm
  · show (db.automations.delete fun r => r.userId == v).rows.filter _ = _
    rw [Table.delete_filter,List.filter_eq_self]
    intro a own
    have mine : a.userId = u := by simpa using (List.mem_filter.mp own).2
    rw [mine,Bool.not_eq_true',beq_eq_false_iff_ne]
    exact other.symm
  · exact unseen.groups.symm
  · exact unseen.members.symm

end

section
variable {pf : Platform} {u : Uuid} {db : Db} {now : Time}

theorem serve_user_own {user : User} (other : user.id ≠ u) (grouped : GroupForest.Grouped db)
    (request : UserRequest) : OwnKept u db (Api.serveUser pf db now user request) := by
  have only := @Footprint.serve_user_only pf db now user request
  cases request with
  | changePassword salt password new =>
    simp only [Api.serveUser]
    rcases change_password_cases pf db salt user password new with ⟨e,failed⟩ | eq
    · rw [failed]
      exact own_refl db
    · rw [eq]
      exact edited_own fun same => absurd same other
  | logout =>
    apply own_of_account
    · exact fun r stored _ => ⟨r,stored,same_account_refl r⟩
    · intro t stored key
      refine Table.mem_update.mpr ⟨t,stored,?_⟩
      rw [if_neg]
      rw [key]
      simp [other.symm]
  | putCustomData payload =>
    simp only [Api.serveUser]
    rcases put_custom_data_cases db user payload with same | eq
    · rw [same]
      exact own_refl db
    · rw [eq]
      exact edited_own fun same => absurd same other
  | deleteCurrentUser => exact removed_own grouped other
  | createGroup groupId memberIds name parent type exclusive nodes metadata =>
    exact create_group_own other
  | deleteGroup groupId => exact delete_group_own grouped other
  | createAutomation rowId name events actions operator metadata =>
    simp only [Api.serveUser]
    split
    · exact own_refl db
    · exact create_automation_own other
  | updateAutomation rowId patch => exact update_automation_own other
  | deleteAutomation rowId => exact delete_automation_own other
  | _ => exact own_of_only only (by simp) (by simp)

theorem serve_admin_own {admin : User} (request : AdminRequest) :
    OwnKept u db (Api.serveAdmin pf db now admin request) := by
  apply own_of_only (Footprint.serve_admin_only request)
  · cases request <;> simp
  · cases request <;> simp

theorem serve_node_own {node : Node} (request : NodeRequest) :
    OwnKept u db (Api.serveNode pf db now node request) := by
  apply own_of_only (Footprint.serve_node_only request)
  · cases request <;> simp
  · cases request <;> simp

/-- A call that is not made as `u` and brings none of the codes sent to `u`. -/
def Stranger (u : Uuid) (db : Db) : Call → Prop
  | .user id _ => id ≠ u
  | .confirmSignup _ code => ∀ r ∈ db.users, r.id = u → r.confirmCode ≠ some code
  | .resetPassword _ _ code _ => ∀ r ∈ db.users, r.id = u → r.resetCode ≠ some code
  | _ => True

theorem signup_own {id : Uuid} {salt code userName password : Text} :
    OwnKept u db (signup pf db now id salt code userName password).1 := by
  rcases signup_cases pf db now id salt code userName password with
    ⟨t,-,-,inserted,eq⟩ | ⟨e,failed⟩
  · rw [eq]
    apply own_of_account
    · exact fun r stored _ => ⟨r,(Table.mem_insert inserted).mpr (Or.inl stored),same_account_refl r⟩
    · exact fun t stored _ => stored
  · rw [failed]
    exact own_refl db

theorem passes_code {stored : Option Text} {exp : Option Time} {code : Text}
    (passes : Passes stored exp now code) : stored = some code := by
  obtain ⟨text,until',held,-,-,same⟩ := passes
  rw [held,compare_digest_true same]

theorem confirm_signup_own {userName code : Text}
    (stranger : ∀ r ∈ db.users, r.id = u → r.confirmCode ≠ some code) :
    OwnKept u db (confirmSignup db now userName code).1 := by
  rcases confirm_signup_cases db now userName code with ⟨user,found,passes,eq⟩ | ⟨⟨e,failed⟩,-⟩
  · rw [eq]
    apply edited_own
    intro same
    exact absurd (passes_code passes) (stranger user (user_by_name found).1 same)
  · rw [failed]
    exact own_refl db

theorem reset_password_own {salt userName code password : Text}
    (stranger : ∀ r ∈ db.users, r.id = u → r.resetCode ≠ some code) :
    OwnKept u db (confirmPasswordReset pf db now salt userName code password).1 := by
  rcases confirm_password_reset_cases pf db now salt userName code password with
    ⟨user,found,passes,-,eq⟩ | ⟨⟨e,failed⟩,-⟩
  · rw [eq]
    apply edited_own
    intro same
    exact absurd (passes_code passes) (stranger user (user_by_name found).1 same)
  · rw [failed]
    exact own_refl db

theorem forgot_password_own {code userName : Text} :
    OwnKept u db (requestPasswordReset db now code userName).1 := by
  rcases request_password_reset_cases db now code userName with ⟨user,-,eq⟩ | ⟨-,same⟩
  · rw [eq]
    exact edited_own fun _ _ => rfl
  · rw [same]
    exact own_refl db

theorem login_own {draw : TokenDraw} {userName password : Text} :
    OwnKept u db (loginPassword pf db now draw userName password).1 := by
  rw [login_password_eq]
  split
  · exact own_refl db
  · rename_i user checked
    have stamped : OwnKept u db (stamp now user db) := edited_own fun _ _ => rfl
    rcases @mint_token_triple_cases pf now draw user (stamp now user db) with
      ⟨e,failed⟩ | ⟨t,row,inserted,-,eq⟩
    · rw [failed]
      exact stamped
    · rw [eq]
      apply own_trans stamped
      apply own_of_account
      · exact fun r stored _ => ⟨r,stored,same_account_refl r⟩
      · exact fun t stored _ => (Table.mem_insert inserted).mpr (Or.inl stored)

theorem serve_own {c : Call} (stranger : Stranger u db c) (grouped : GroupForest.Grouped db) :
    OwnKept u db (Api.serve pf db now c) := by
  have only := Footprint.serve_only pf db now c
  cases c with
  | signup id salt code userName password => exact signup_own
  | confirmSignup userName code => exact confirm_signup_own stranger
  | login draw userName password =>
    simp only [Api.serve]
    split
    · exact own_refl db
    · exact login_own
  | forgotPassword code userName => exact forgot_password_own
  | resetPassword salt userName code password => exact reset_password_own stranger
  | user id request =>
    simp only [Api.serve]
    split
    · exact own_refl db
    · rename_i user auth
      have other : user.id ≠ u := by
        rw [(current_user_ok auth).2.1]
        exact stranger
      exact serve_user_own other grouped request
  | admin id request =>
    simp only [Api.serve]
    split
    · exact own_refl db
    · exact serve_admin_own request
  | node cn request =>
    simp only [Api.serve]
    split
    · exact own_refl db
    · exact serve_node_own request
  | _ => exact own_of_only only (by simp) (by simp)

end

/-! Mappings and shares, call by call. -/

section
variable {pf : Platform} {u : Uuid} {w : World} {c : Call}

theorem set_challenge_ends {d : Db} {challenge : MappingChallenge} {status : MappingStatus}
    {ended : Option Time} (present : challenge ∈ d.mappingChallenges)
    (pending : challenge.status = .pending) {old : MappingChallenge}
    (stored : old ∈ d.mappingChallenges) : ChallengeEnds old
      (if old.id == challenge.id then {old with status := status, completedAt := ended} else old) := by
  split
  · rename_i hit
    rw [beq_iff_eq] at hit
    have same : old = challenge :=
      Table.eq_of_conflict stored present (by simp [Schema.conflict, hit])
    refine ⟨rfl,?_⟩
    intro closed
    rw [same] at closed
    exact absurd pending closed
  · exact challenge_ends_refl old

theorem set_challenge_carries {d : Db} {challenge : MappingChallenge} {status : MappingStatus}
    {ended : Option Time} {mine : MappingChallenge → Prop}
    (present : challenge ∈ d.mappingChallenges) (pending : challenge.status = .pending) :
    Carried ChallengeEnds mine d.mappingChallenges
      (Access.setChallenge d challenge.id status ended).mappingChallenges := by
  apply carried_image fun _ => GrantSteps.mem_set_challenge
  exact fun _ stored => set_challenge_ends present pending stored

theorem finalised_carries {db db' : Db} {now : Time} {mappingId : Uuid}
    {challenge : MappingChallenge} {mine : MappingChallenge → Prop}
    (present : challenge ∈ db.mappingChallenges) (pending : challenge.status = .pending)
    (ok : Access.finaliseMapping db now mappingId challenge = .ok db') :
    Carried ChallengeEnds mine db.mappingChallenges db'.mappingChallenges := by
  obtain ⟨_,-,⟨-,eq⟩ | ⟨t,-,-,-,eq⟩⟩ := Access.finalise_mapping_cases ok
  · subst eq
    exact set_challenge_carries present pending
  · subst eq
    exact @set_challenge_carries {db with userNodeMappings := t} _ _ _ _ present pending

theorem set_request_ends {d : Db} {request : NodeSharingRequest} {status : RequestStatus}
    (present : request ∈ d.nodeSharingRequests) (pending : request.status = .pending)
    {old : NodeSharingRequest} (stored : old ∈ d.nodeSharingRequests) :
    InvitationEnds old (if old.id == request.id then {old with status := status} else old) := by
  split
  · rename_i hit
    have same : old = request :=
      Table.eq_of_conflict stored present (by simpa [Schema.conflict] using hit)
    refine ⟨rfl,?_⟩
    intro closed
    rw [same] at closed
    exact absurd pending closed
  · exact invitation_ends_refl old

theorem set_request_carries {d : Db} {request : NodeSharingRequest} {status : RequestStatus}
    {mine : NodeSharingRequest → Prop} (present : request ∈ d.nodeSharingRequests)
    (pending : request.status = .pending) :
    Carried InvitationEnds mine d.nodeSharingRequests
      (Access.setRequest d request.id status).nodeSharingRequests := by
  apply carried_image fun _ => GrantSteps.mem_set_request
  exact fun _ stored => set_request_ends present pending stored

theorem resolved_carries {db db' : Db} {now : Time} {shareId guestId : Uuid} {accept : Bool}
    {request : NodeSharingRequest} {mine : NodeSharingRequest → Prop}
    (present : request ∈ db.nodeSharingRequests) (pending : request.status = .pending)
    (resolution : Access.Resolved db now shareId guestId request accept db') :
    Carried InvitationEnds mine db.nodeSharingRequests db'.nodeSharingRequests := by
  cases resolution with
  | closed status settled => exact set_request_carries present pending
  | shared t accepted valid inserted =>
    exact @set_request_carries {db with nodeSharing := t} _ _ _ present pending

/-- A stranger neither opens a challenge of `u` nor deletes one. -/
theorem step_challenges (stranger : Stranger u w.db c) :
    Carried ChallengeEnds (fun row => row.userId = u) w.db.mappingChallenges
      (Api.step pf w c).db.mappingChallenges := by
  rcases effect_access (Api.step_effect pf w c) with same | effect
  · rw [same.challenges]
    exact carried_refl challenge_ends_refl
  · generalize (Api.step pf w c).db = after at effect
    cases effect with
    | expired topical stored named pending => exact set_challenge_carries stored pending
    | confirmed topical stored named pending valid finalised =>
      exact finalised_carries stored pending finalised
    | @removed id user auth =>
      apply carried_delete challenge_ends_refl
      intro row caller
      rw [caller,beq_eq_false_iff_ne]
      exact fun own => stranger own.symm
    | asked opener pending known named keyed inserted =>
      apply carried_extended challenge_ends_refl fun _ => Table.mem_appended inserted
      intro row new caller
      rw [new,opener] at caller
      exact stranger caller
    | verified answer finalised => exact finalised_carries answer.stored answer.pending finalised
    | resolved auth stored requested addressed pending resolution =>
      rw [(GrantSteps.resolved_frame resolution).challenges]
      exact carried_refl challenge_ends_refl
    | _ => exact carried_refl challenge_ends_refl

theorem step_invitations (stranger : Stranger u w.db c) :
    Carried InvitationEnds (fun row => row.fromUserId = u) w.db.nodeSharingRequests
      (Api.step pf w c).db.nodeSharingRequests := by
  rcases effect_access (Api.step_effect pf w c) with same | effect
  · rw [same.requests]
    exact carried_refl invitation_ends_refl
  · generalize (Api.step pf w c).db = after at effect
    cases effect with
    | confirmed topical stored named pending valid finalised =>
      rw [(GrantSteps.finalised_frame finalised).requests]
      exact carried_refl invitation_ends_refl
    | @removed id user auth =>
      apply carried_delete invitation_ends_refl
      intro row sender
      rw [sender,beq_eq_false_iff_ne]
      exact fun own => stranger own.symm
    | verified answer finalised =>
      rw [(GrantSteps.finalised_frame finalised).requests]
      exact carried_refl invitation_ends_refl
    | invited appended owned =>
      apply carried_extended invitation_ends_refl fun _ => Table.mem_appendedAll appended
      intro row new sender
      rw [(Access.mem_request_rows new).2.1] at sender
      exact stranger sender
    | resolved auth stored requested addressed pending resolution =>
      exact resolved_carries stored pending resolution
    | _ => exact carried_refl invitation_ends_refl

theorem step_grants (stranger : Stranger u w.db c) : GrantsKept u w.db (Api.step pf w c).db := by
  constructor
  · intro m stored key
    by_contra gone
    rcases GrantSteps.mapping_gone stored gone with call | call
    · rw [call] at stranger
      exact stranger key
    · rw [call] at stranger
      exact stranger key
  · intro m stored key
    rcases GrantSteps.mapping_origin stored with old | ⟨row,backing⟩
    · exact Or.inl old
    · exact Or.inr ⟨row,backing.stored,backing.user.trans key,backing.node,backing.pending⟩
  · exact step_challenges stranger
  · exact step_invitations stranger
  · intro s stored key
    rcases GrantSteps.share_origin stored with old | ⟨row,guest,accepted⟩
    · exact Or.inl old
    · exact Or.inr ⟨row,accepted.stored,accepted.sender.trans key,accepted.node,accepted.pending⟩
  · intro s stored key
    rcases GrantSteps.share_origin stored with old | ⟨row,guest,accepted⟩
    · exact old
    · rw [accepted.call] at stranger
      exact absurd key stranger

theorem step_untouched (linked : ReferentialIntegrity.Linked w.db) (stranger : Stranger u w.db c) :
    Untouched u w.db (Api.step pf w c).db :=
  ⟨serve_own stranger (ReferentialIntegrity.forested_iff.mp linked.forest),step_grants stranger⟩

end

/-! Requests. -/

section
variable {pf : Platform} {u : Uuid}

def Brings (db : Db) (u : Uuid) (payload : JsonObject) : Prop :=
  ∃ r ∈ db.users, r.id = u ∧ ∃ code,
    Mqtt.field "verification_code" .null payload = .str code ∧
      (r.confirmCode = some code ∨ r.resetCode = some code)

def SpeaksFor (pf : Platform) (w : World) (u : Uuid) (r : Http.Incoming) : Prop :=
  (∃ user, getCurrentUser pf w.db w.now r.authorization = .ok user ∧ user.id = u) ∨
    ∃ header user, r.authorization = some header ∧
      resolveUserFromHeader pf w.db w.now header = .ok user ∧ user.id = u

/-- A request that neither speaks for `u` nor brings one of the codes, and
    whatever comes from inside the cluster. -/
def Foreign (pf : Platform) (u : Uuid) (w : World) : HttpCalls.Event → Prop
  | .request _ r => ¬ SpeaksFor pf w u r ∧
      ∀ payload, r.body = some (.obj payload) → ¬ Brings w.db u payload
  | .internal _ => True

theorem required_field {key : Text} {lo : Nat} {hi : Option Nat} {payload : JsonObject} {s : Text}
    (required : Http.requiredText key lo hi payload = some s) :
    Mqtt.field key .null payload = .str s := by
  unfold Http.requiredText at required
  unfold Mqtt.field
  split at required
  · rename_i text present
    split at required
    · cases required
      rw [present]
      rfl
    · cases required
  · cases required

theorem optional_field {key : Text} {lo : Nat} {hi : Option Nat} {payload : JsonObject} {s : Text}
    (optional : Http.optionalText key lo hi payload = some (some s)) :
    Mqtt.field key .null payload = .str s := by
  unfold Http.optionalText at optional
  split at optional
  · cases optional
  · rename_i text present
    split at optional
    · cases optional
      exact present
    · cases optional
  · cases optional

theorem opens_stranger {w : World} {d : Http.Draws} {payload : JsonObject} {route : Http.OpenRoute}
    {authorization : Option Text} {c : Call}
    (opens : HttpCalls.Opens d authorization payload route c) (codeless : ¬ Brings w.db u payload) :
    Stranger u w.db c := by
  cases opens with
  | @confirm confirm valid =>
    have field : Mqtt.field "verification_code" .null payload = .str confirm.verificationCode := by
      unfold Http.confirmSignUpRequest at valid
      split at valid
      · rename_i name code named required
        cases valid
        exact required_field required
      · cases valid
    exact fun r stored key same => codeless ⟨r,stored,key,_,field,Or.inl same⟩
  | @reset forgot code password valid coded _ =>
    have field : Mqtt.field "verification_code" .null payload = .str code := by
      unfold Http.forgotPasswordRequest at valid
      split at valid
      · rename_i name given password named optional known
        cases valid
        have same : given = some code := coded
        rw [same] at optional
        exact optional_field optional
      · cases valid
    exact fun r stored key same => codeless ⟨r,stored,key,_,field,Or.inr same⟩
  | login valid named known => trivial
  | signup valid => trivial
  | forgot valid incomplete => trivial
  | initiateClaim headless mac kind => trivial
  | verifyClaim headless addressed responded signed => trivial

theorem foreign_stranger {w : World} {e : HttpCalls.Event} {c : Call} (foreign : Foreign pf u w e)
    (vouched : HttpCalls.Vouches pf w e c) : Stranger u w.db c := by
  cases vouched with
  | @internal c => cases c <;> trivial
  | anyone routed body opens => exact opens_stranger opens (foreign.2 _ body)
  | user routed auth asked => exact fun same => foreign.1 (Or.inl ⟨_,auth,same⟩)
  | assisted routed body given auth assists => exact fun same => foreign.1 (Or.inr ⟨_,_,given,auth,same⟩)
  | node routed certified body reports => trivial

/-- No request of others, whatever its path, header and body, and nothing that
    the devices report writes what belongs to `u`, over every run. -/
theorem others_leave_untouched {w : World} {es : List HttpCalls.Event}
    (linked : ReferentialIntegrity.Linked w.db)
    (foreign : Along (HttpCalls.step pf) (Foreign pf u) w es) :
    Untouched u w.db (run (HttpCalls.step pf) w es).db := by
  have kept : ReferentialIntegrity.Linked (run (HttpCalls.step pf) w es).db ∧
      Untouched u w.db (run (HttpCalls.step pf) w es).db := by
    apply run_invariant (HttpCalls.step pf)
      (I := fun v => ReferentialIntegrity.Linked v.db ∧ Untouched u w.db v.db) _
      ⟨linked,own_refl w.db,grants_refl⟩ foreign
    intro v e held foreign
    rcases @HttpCalls.step_reads pf v e with same | ⟨c,vouched,same⟩
    · rw [same]
      exact held
    · rw [same]
      exact ⟨ReferentialIntegrity.serve_keeps c held.1,
        untouched_trans held.2 (step_untouched held.1 (foreign_stranger foreign vouched))⟩
  exact kept.2

end

/-! Bob tries to delete the automation of Ana, and somebody forgets her password. -/

def bobClaims : Claims := ⟨"2",0,3600,.access,"jti",[]⟩

def platform : Platform := {UserStores.platform with
  jwtDecode := fun _ token => if token = "bob" then .ok bobClaims else .error .pyJWTError
  parseUuid := fun s => if s = "2" then some 2 else UserStores.platform.parseUuid s}

def night : World := run (Api.step platform) ⟨{users := Deployment.anaAndBob},0⟩
  [.user 1 (.createAutomation 10 (.str "night") .null .null (.str "and") .null)]

def draws : Http.Draws := ⟨30,fun i => 31 + i,[],[],[],Fin.last 999999,[],⟨40,[],[],[]⟩,0⟩

def deletion : Http.Incoming where
  method := .delete
  path := "/v1/user/node_automation"
  query := [("automation_id",automationText)]
  authorization := some "bob"

def forgetting : Http.Incoming where
  method := .put
  path := "/v1/forgotpassword2"
  body := some (.obj [("user_name",.str "ana@example.com")])

theorem ana_is_left_untouched : Untouched 1 night.db
    (run (HttpCalls.step platform) night [.request draws deletion,.request draws forgetting]).db := by
  have accounts : ReferentialIntegrity.Linked {users := Deployment.anaAndBob} :=
    ReferentialIntegrity.linking_keeps {ReferentialIntegrity.linking_refl .empty with
      userKeys := fun _ stored => nomatch stored} ReferentialIntegrity.empty_linked
  have linked : ReferentialIntegrity.Linked night.db :=
    ReferentialIntegrity.run_linked accounts _
  have bob : getCurrentUser platform night.db night.now (some "bob".toList) =
      .ok (Deployment.account 2 "bob@example.com") := rfl
  have bob_claims : resolveUserFromHeader platform night.db night.now "bob".toList =
      .ok (Deployment.account 2 "bob@example.com") := rfl
  apply others_leave_untouched linked
  refine ⟨⟨?_,fun _ => nofun⟩,⟨?_,?_⟩,trivial⟩
  · rintro (⟨user,auth,key⟩ | ⟨header,user,given,auth,key⟩)
    · cases bob.symm.trans auth
      cases key
    · cases given
      cases bob_claims.symm.trans auth
      cases key
  · rintro (⟨user,auth,key⟩ | ⟨header,user,given,auth,key⟩)
    · cases auth
    · cases given
  · intro payload body brings
    cases body
    obtain ⟨r,stored,key,code,field,-⟩ := brings
    cases field

end RainmakerServer.Ownership
