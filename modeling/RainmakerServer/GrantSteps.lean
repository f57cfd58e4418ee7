import RainmakerServer.Effects

/-!
The four tables of grants, call by call: mappings with the challenges behind
them, and shares with the invitations behind them. For each table, where a row
of the next state comes from and how a row of this state can go.
-/
namespace RainmakerServer.GrantSteps
open Tables Api

variable {pf : Platform} {w : World} {c : Call}

/-! The mapping flows leave the sharing tables alone, and the other way round. -/

structure SharingKept (db db' : Db) : Prop where
  users : db'.users = db.users
  requests : db'.nodeSharingRequests = db.nodeSharingRequests
  sharing : db'.nodeSharing = db.nodeSharing

structure MappingKept (db db' : Db) : Prop where
  users : db'.users = db.users
  challenges : db'.mappingChallenges = db.mappingChallenges
  mappings : db'.userNodeMappings = db.userNodeMappings

theorem finalised_frame {db db' : Db} {now : Time} {mappingId : Uuid} {row : MappingChallenge}
    (ok : Access.finaliseMapping db now mappingId row = .ok db') : SharingKept db db' := by
  obtain ⟨mappings,challenges,eq⟩ := Access.finalise_mapping_frame ok
  subst eq
  exact ⟨rfl,rfl,rfl⟩

theorem resolved_frame {db db' : Db} {now : Time} {shareId id : Uuid} {row : NodeSharingRequest}
    {accept : Bool} (resolution : Access.Resolved db now shareId id row accept db') :
    MappingKept db db' := by
  cases resolution with
  | closed status closed => exact ⟨rfl,rfl,rfl⟩
  | shared t accepted valid appended => exact ⟨rfl,rfl,rfl⟩

/-! Challenges and mappings. -/

section Mappings
variable {db db' : Db} {now : Time} {mappingId : Uuid} {challenge : MappingChallenge}

theorem mem_set_challenge {d : Db} {id : Uuid} {status : MappingStatus} {ended : Option Time}
    {row : MappingChallenge} : row ∈ (Access.setChallenge d id status ended).mappingChallenges ↔
      ∃ old ∈ d.mappingChallenges,
        (if old.id == id then {old with status := status, completedAt := ended} else old) = row := by
  simp only [Access.setChallenge, Table.mem_update]

theorem set_challenge_keeps {d : Db} {id : Uuid} {status : MappingStatus} {ended : Option Time}
    {row : MappingChallenge} (stored : row ∈ d.mappingChallenges) (other : row.id ≠ id) :
    row ∈ (Access.setChallenge d id status ended).mappingChallenges := by
  refine mem_set_challenge.mpr ⟨row,stored,?_⟩
  rw [if_neg (by simpa using other)]

theorem set_challenge_sets {d : Db} {status : MappingStatus} {ended : Option Time}
    (stored : challenge ∈ d.mappingChallenges) :
    {challenge with status := status, completedAt := ended} ∈
      (Access.setChallenge d challenge.id status ended).mappingChallenges :=
  mem_set_challenge.mpr ⟨challenge,stored,by rw [if_pos (by simp)]⟩

theorem settled_apart {row : MappingChallenge} (stored : row ∈ db.mappingChallenges)
    (settled : row.status ≠ .pending) (present : challenge ∈ db.mappingChallenges)
    (pending : challenge.status = .pending) : row.id ≠ challenge.id := by
  intro same
  have eq : row = challenge :=
    Table.eq_of_conflict stored present (by simp [Schema.conflict, same])
  rw [eq] at settled
  exact settled pending

theorem finalised_keeps {row : MappingChallenge} (stored : row ∈ db.mappingChallenges)
    (other : row.id ≠ challenge.id)
    (ok : Access.finaliseMapping db now mappingId challenge = .ok db') :
    row ∈ db'.mappingChallenges := by
  obtain ⟨n,-,⟨-,eq⟩ | ⟨t,-,-,-,eq⟩⟩ := Access.finalise_mapping_cases ok
  · subst eq
    exact set_challenge_keeps stored other
  · subst eq
    exact set_challenge_keeps (d := {db with userNodeMappings := t}) stored other

structure Opened (db : Db) (row : MappingChallenge) : Prop where
  known : db.hasUser row.userId = true
  named : row.nodeId ≠ some []
  keyed : row.secretKey ≠ some []

theorem set_challenge_origin {d : Db} {id : Uuid} {status : MappingStatus} {ended : Option Time}
    {row : MappingChallenge}
    (member : row ∈ (Access.setChallenge d id status ended).mappingChallenges) :
    ∃ old ∈ d.mappingChallenges,
      row = {old with status := row.status, completedAt := row.completedAt} := by
  obtain ⟨old,stored,eq⟩ := mem_set_challenge.mp member
  refine ⟨old,stored,?_⟩
  split at eq
  · rw [← eq]
  · rw [← eq]

theorem finalised_origin {row : MappingChallenge}
    (ok : Access.finaliseMapping db now mappingId challenge = .ok db')
    (member : row ∈ db'.mappingChallenges) : ∃ old ∈ db.mappingChallenges,
      row = {old with status := row.status, completedAt := row.completedAt} := by
  obtain ⟨n,-,⟨-,eq⟩ | ⟨t,-,-,-,eq⟩⟩ := Access.finalise_mapping_cases ok
  · subst eq
    exact set_challenge_origin member
  · subst eq
    exact set_challenge_origin (d := {db with userNodeMappings := t}) member

theorem set_challenge_open {d : Db} {id : Uuid} {status : MappingStatus} {ended : Option Time}
    {row : MappingChallenge} (closed : status ≠ .pending) (pending : row.status = .pending)
    (member : row ∈ (Access.setChallenge d id status ended).mappingChallenges) :
    row ∈ d.mappingChallenges := by
  obtain ⟨old,stored,eq⟩ := mem_set_challenge.mp member
  split at eq
  · rw [← eq] at pending
    exact absurd pending closed
  · rw [← eq]
    exact stored

theorem finalised_open {row : MappingChallenge}
    (ok : Access.finaliseMapping db now mappingId challenge = .ok db')
    (pending : row.status = .pending) (member : row ∈ db'.mappingChallenges) :
    row ∈ db.mappingChallenges := by
  obtain ⟨n,-,⟨-,eq⟩ | ⟨t,-,-,-,eq⟩⟩ := Access.finalise_mapping_cases ok
  · subst eq
    exact set_challenge_open (by decide) pending member
  · subst eq
    exact set_challenge_open (d := {db with userNodeMappings := t}) (by decide) pending member

theorem challenge_origin {row : MappingChallenge}
    (member : row ∈ (step pf w c).db.mappingChallenges) :
    (∃ old ∈ w.db.mappingChallenges,
        row = {old with status := row.status, completedAt := row.completedAt}) ∨
      Opened w.db row := by
  rcases effect_access (step_effect pf w c) with same | effect
  · rw [same.challenges] at member
    exact Or.inl ⟨row,member,rfl⟩
  · generalize (step pf w c).db = after at effect member
    cases effect with
    | expired topical stored named pending => exact Or.inl (set_challenge_origin member)
    | confirmed topical stored named pending valid finalised =>
      exact Or.inl (finalised_origin finalised member)
    | removed auth => exact Or.inl ⟨row,(Table.mem_delete.mp member).1,rfl⟩
    | asked caller pending known named keyed appended =>
      rcases (Table.mem_appended appended).mp member with old | new
      · exact Or.inl ⟨row,old,rfl⟩
      · subst new
        exact Or.inr ⟨known,named,keyed⟩
    | verified answer finalised => exact Or.inl (finalised_origin finalised member)
    | resolved auth stored requested addressed pending resolution =>
      rw [(resolved_frame resolution).challenges] at member
      exact Or.inl ⟨row,member,rfl⟩
    | _ => exact Or.inl ⟨row,member,rfl⟩

structure ChallengeGone (row : MappingChallenge) (db : Db) : Prop where
  gone : ∀ r ∈ db.mappingChallenges, r.id ≠ row.id
  mappings : ∀ m ∈ db.userNodeMappings, m.userId ≠ row.userId

theorem settled_challenge_stays {row : MappingChallenge}
    (stored : row ∈ w.db.mappingChallenges) (settled : row.status ≠ .pending) :
    row ∈ (step pf w c).db.mappingChallenges ∨ ChallengeGone row (step pf w c).db := by
  rcases effect_access (step_effect pf w c) with same | effect
  · rw [same.challenges]
    exact Or.inl stored
  · generalize (step pf w c).db = after at effect
    cases effect with
    | expired topical present named pending =>
      exact Or.inl (set_challenge_keeps stored (settled_apart stored settled present pending))
    | confirmed topical present named pending valid finalised =>
      exact Or.inl (finalised_keeps stored (settled_apart stored settled present pending) finalised)
    | @removed id user auth =>
      by_cases own : row.userId = id
      · right
        constructor
        · intro r kept same
          have apart := Table.delete_conflict stored (by simp [own]) kept
          simp [Schema.conflict, same] at apart
        · intro m kept same
          have outside := (Table.mem_delete.mp kept).2
          simp [same, own] at outside
      · exact Or.inl (Table.mem_delete.mpr ⟨stored,by simpa using own⟩)
    | asked caller pending known named keyed appended =>
      exact Or.inl ((Table.mem_appended appended).mpr (Or.inl stored))
    | verified answer finalised =>
      exact Or.inl (finalised_keeps stored
        (settled_apart stored settled answer.stored answer.pending) finalised)
    | resolved auth present requested addressed pending resolution =>
      rw [(resolved_frame resolution).challenges]
      exact Or.inl stored
    | _ => exact Or.inl stored

structure Backing (w : World) (after : Db) (m : UserNodeMapping) (row : MappingChallenge) :
    Prop where
  stored : row ∈ w.db.mappingChallenges
  user : row.userId = m.userId
  node : row.nodeId = some m.nodeId
  pending : row.status = .pending
  valid : w.now ≤ row.expiresAt
  completed : {row with status := .completed, completedAt := some w.now} ∈
    after.mappingChallenges

theorem finalised_mapping {m : UserNodeMapping} (present : challenge ∈ w.db.mappingChallenges)
    (pending : challenge.status = .pending) (valid : w.now ≤ challenge.expiresAt)
    (ok : Access.finaliseMapping w.db w.now mappingId challenge = .ok db')
    (stored : m ∈ db'.userNodeMappings) :
    m ∈ w.db.userNodeMappings ∨ Backing w db' m challenge := by
  obtain ⟨n,named,⟨-,eq⟩ | ⟨t,appended,-,-,eq⟩⟩ := Access.finalise_mapping_ok present ok
  · subst eq
    exact Or.inl stored
  · subst eq
    rcases (Table.mem_appended appended).mp stored with old | new
    · exact Or.inl old
    · subst new
      exact Or.inr ⟨present,rfl,named,pending,valid,
        set_challenge_sets (d := {w.db with userNodeMappings := t}) present⟩

theorem finalised_keeps_mapping {m : UserNodeMapping}
    (ok : Access.finaliseMapping db now mappingId challenge = .ok db')
    (stored : m ∈ db.userNodeMappings) : m ∈ db'.userNodeMappings := by
  obtain ⟨n,-,⟨-,eq⟩ | ⟨t,appended,-,-,eq⟩⟩ := Access.finalise_mapping_cases ok
  · subst eq
    exact stored
  · subst eq
    exact (Table.mem_appended appended).mpr (Or.inl stored)

theorem mapping_origin {m : UserNodeMapping} (stored : m ∈ (step pf w c).db.userNodeMappings) :
    m ∈ w.db.userNodeMappings ∨ ∃ row, Backing w (step pf w c).db m row := by
  rcases effect_access (step_effect pf w c) with same | effect
  · rw [same.mappings] at stored
    exact Or.inl stored
  · generalize (step pf w c).db = after at effect stored
    cases effect with
    | confirmed topical present named pending valid finalised =>
      exact (finalised_mapping present pending valid finalised stored).imp_right fun b => ⟨_,b⟩
    | removed auth => exact Or.inl (Table.mem_delete.mp stored).1
    | verified answer finalised =>
      exact (finalised_mapping answer.stored answer.pending answer.valid finalised stored).imp_right
        fun b => ⟨_,b⟩
    | unmapped present caller named => exact Or.inl (Table.mem_delete.mp stored).1
    | resolved auth present requested addressed pending resolution =>
      rw [(resolved_frame resolution).mappings] at stored
      exact Or.inl stored
    | _ => exact Or.inl stored

theorem mapping_gone {m : UserNodeMapping} (stored : m ∈ w.db.userNodeMappings)
    (gone : m ∉ (step pf w c).db.userNodeMappings) :
    c = .user m.userId (.deleteUserNode m.nodeId) ∨ c = .user m.userId .deleteCurrentUser := by
  rcases effect_access (step_effect pf w c) with same | effect
  · rw [same.mappings] at gone
    exact absurd stored gone
  · generalize (step pf w c).db = after at effect gone
    cases effect with
    | confirmed topical present named pending valid finalised =>
      exact absurd (finalised_keeps_mapping finalised stored) gone
    | @removed id user auth =>
      by_cases own : m.userId = id
      · subst own
        exact Or.inr rfl
      · exact absurd (Table.mem_delete.mpr ⟨stored,by simpa using own⟩) gone
    | verified answer finalised => exact absurd (finalised_keeps_mapping finalised stored) gone
    | @unmapped id nodeId victim present caller named =>
      by_cases same : m.id = victim.id
      · have eq : m = victim := Table.eq_of_conflict stored present (by simp [Schema.conflict, same])
        subst eq caller named
        exact Or.inl rfl
      · exact absurd (Table.mem_delete.mpr ⟨stored,by simpa using same⟩) gone
    | resolved auth present requested addressed pending resolution =>
      rw [(resolved_frame resolution).mappings] at gone
      exact absurd stored gone
    | _ => exact absurd stored gone

end Mappings

/-! Invitations and shares. -/

section Shares
variable {db db' : Db} {now : Time}

theorem mem_set_request {id : Uuid} {status : RequestStatus} {row : NodeSharingRequest} :
    row ∈ (Access.setRequest db id status).nodeSharingRequests ↔
      ∃ old ∈ db.nodeSharingRequests, (if old.id == id then {old with status := status} else old) =
        row := by
  simp only [Access.setRequest, Table.mem_update]

inductive RequestOrigin (w : World) (c : Call) (row : NodeSharingRequest) : Prop where
  | kept (stored : row ∈ w.db.nodeSharingRequests)
  | settled (old : NodeSharingRequest) (stored : old ∈ w.db.nodeSharingRequests)
      (closed : row.status ≠ .pending) (same : row = {old with status := row.status})
  | invited (id : Uuid) (ids : Nat → Uuid) (nodes : List Text) (userName : Text)
      (call : c = .user id (.createSharingRequest ids nodes userName))
      (fresh : row ∈ Access.requestRows w.now ids id nodes (cut 254 userName))
      (owned : ∀ n ∈ nodes, Access.Owns w.db id n)

theorem set_request_origin {d : Db} {id : Uuid} {status : RequestStatus}
    {row : NodeSharingRequest} (same : d.nodeSharingRequests = w.db.nodeSharingRequests)
    (closed : status ≠ .pending)
    (member : row ∈ (Access.setRequest d id status).nodeSharingRequests) :
    RequestOrigin w c row := by
  obtain ⟨old,stored,eq⟩ := mem_set_request.mp member
  rw [same] at stored
  split at eq
  · subst eq
    exact .settled old stored closed rfl
  · subst eq
    exact .kept stored

theorem request_origin {row : NodeSharingRequest}
    (member : row ∈ (step pf w c).db.nodeSharingRequests) : RequestOrigin w c row := by
  rcases effect_access (step_effect pf w c) with same | effect
  · rw [same.requests] at member
    exact .kept member
  · generalize (step pf w c).db = after at effect member
    cases effect with
    | confirmed topical present named pending valid finalised =>
      rw [(finalised_frame finalised).requests] at member
      exact .kept member
    | removed auth => exact .kept (Table.mem_delete.mp member).1
    | verified answer finalised =>
      rw [(finalised_frame finalised).requests] at member
      exact .kept member
    | @invited id ids nodes userName t appended owned =>
      rcases (Table.mem_appendedAll appended).mp member with old | new
      · exact .kept old
      · exact .invited _ _ _ _ rfl new owned
    | resolved auth present requested addressed pending resolution =>
      cases resolution with
      | closed status closed => exact set_request_origin rfl closed member
      | shared t accepted valid appended =>
        exact set_request_origin (d := {w.db with nodeSharing := t}) rfl (by decide) member
    | _ => exact .kept member

structure RequestGone (row : NodeSharingRequest) (db : Db) : Prop where
  gone : ∀ r ∈ db.nodeSharingRequests, r.id ≠ row.id
  shares : ∀ s ∈ db.nodeSharing, s.fromUserId ≠ row.fromUserId

theorem set_request_keeps {d : Db} {row challenge : NodeSharingRequest} {status : RequestStatus}
    (stored : row ∈ d.nodeSharingRequests) (settled : row.status ≠ .pending)
    (present : challenge ∈ d.nodeSharingRequests) (pending : challenge.status = .pending) :
    row ∈ (Access.setRequest d challenge.id status).nodeSharingRequests := by
  have other : row.id ≠ challenge.id := by
    intro same
    have eq : row = challenge :=
      Table.eq_of_conflict stored present (by simp [Schema.conflict, same])
    rw [eq] at settled
    exact settled pending
  refine mem_set_request.mpr ⟨row,stored,?_⟩
  rw [if_neg (by simpa using other)]

theorem settled_request_stays {row : NodeSharingRequest}
    (stored : row ∈ w.db.nodeSharingRequests) (settled : row.status ≠ .pending) :
    row ∈ (step pf w c).db.nodeSharingRequests ∨ RequestGone row (step pf w c).db := by
  rcases effect_access (step_effect pf w c) with same | effect
  · rw [same.requests]
    exact Or.inl stored
  · generalize (step pf w c).db = after at effect
    cases effect with
    | confirmed topical present named pending valid finalised =>
      rw [(finalised_frame finalised).requests]
      exact Or.inl stored
    | @removed id user auth =>
      by_cases own : row.fromUserId = id
      · right
        constructor
        · intro r kept same
          have apart := Table.delete_conflict stored (by simp [own]) kept
          simp [Schema.conflict, same] at apart
        · intro s kept same
          have outside := (Table.mem_delete.mp kept).2
          simp [same, own] at outside
      · exact Or.inl (Table.mem_delete.mpr ⟨stored,by simpa using own⟩)
    | verified answer finalised =>
      rw [(finalised_frame finalised).requests]
      exact Or.inl stored
    | @invited id ids nodes userName t appended owned =>
      exact Or.inl ((Table.mem_appendedAll appended).mpr (Or.inl stored))
    | resolved auth present requested addressed pending resolution =>
      cases resolution with
      | closed status closed => exact Or.inl (set_request_keeps stored settled present pending)
      | shared t accepted valid appended =>
        exact Or.inl (set_request_keeps (d := {w.db with nodeSharing := t}) stored settled present
          pending)
    | _ => exact Or.inl stored

structure Accepted (w : World) (c : Call) (after : Db) (s : NodeSharing)
    (row : NodeSharingRequest) (guest : User) : Prop where
  call : c = .user s.toUserId (.resolveSharingRequest s.id row.id true)
  known : guest ∈ w.db.users
  key : guest.id = s.toUserId
  stored : row ∈ w.db.nodeSharingRequests
  node : row.nodeId = s.nodeId
  sender : row.fromUserId = s.fromUserId
  addressed : row.toUserName = guest.userName
  pending : row.status = .pending
  valid : w.now ≤ row.expiresAt
  users : after.users = w.db.users
  accepted : {row with status := .accepted} ∈ after.nodeSharingRequests

theorem share_origin {s : NodeSharing} (stored : s ∈ (step pf w c).db.nodeSharing) :
    s ∈ w.db.nodeSharing ∨ ∃ row guest, Accepted w c (step pf w c).db s row guest := by
  rcases effect_access (step_effect pf w c) with same | effect
  · rw [same.sharing] at stored
    exact Or.inl stored
  · generalize (step pf w c).db = after at effect stored
    cases effect with
    | confirmed topical present named pending valid finalised =>
      rw [(finalised_frame finalised).sharing] at stored
      exact Or.inl stored
    | removed auth => exact Or.inl (Table.mem_delete.mp stored).1
    | verified answer finalised =>
      rw [(finalised_frame finalised).sharing] at stored
      exact Or.inl stored
    | @resolved id shareId requestId accept user row _ auth present requested addressed pending
        resolution =>
      cases resolution with
      | closed status closed => exact Or.inl stored
      | shared t accepted valid appended =>
        rcases (Table.mem_appended appended).mp stored with old | new
        · exact Or.inl old
        · subst new accepted requested
          obtain ⟨known,key,-⟩ := Accounts.current_user_ok auth
          refine Or.inr ⟨row,user,rfl,known,key,present,rfl,rfl,addressed,pending,valid,rfl,?_⟩
          exact mem_set_request.mpr ⟨row,present,by rw [if_pos (by simp)]⟩
    | unshared known named => exact Or.inl (Table.mem_delete.mp stored).1
    | _ => exact Or.inl stored

inductive ShareEnd (w : World) (s : NodeSharing) : Call → Prop where
  | revoked {nodes userName : Text} {guest : User} (known : guest ∈ w.db.users)
      (key : guest.id = s.toUserId) (named : guest.userName = userName)
      (listed : s.nodeId ∈ nodeList nodes) :
      ShareEnd w s (.user s.fromUserId (.revokeSharing nodes userName))
  | grantorLeft : ShareEnd w s (.user s.fromUserId .deleteCurrentUser)
  | guestLeft : ShareEnd w s (.user s.toUserId .deleteCurrentUser)

theorem share_gone {s : NodeSharing} (stored : s ∈ w.db.nodeSharing)
    (gone : s ∉ (step pf w c).db.nodeSharing) : ShareEnd w s c := by
  rcases effect_access (step_effect pf w c) with same | effect
  · rw [same.sharing] at gone
    exact absurd stored gone
  · generalize (step pf w c).db = after at effect gone
    cases effect with
    | confirmed topical present named pending valid finalised =>
      rw [(finalised_frame finalised).sharing] at gone
      exact absurd stored gone
    | @removed id user auth =>
      by_cases granted : s.fromUserId = id
      · subst granted
        exact .grantorLeft
      · by_cases given : s.toUserId = id
        · subst given
          exact .guestLeft
        · exact absurd (Table.mem_delete.mpr ⟨stored,by simp [granted, given]⟩) gone
    | verified answer finalised =>
      rw [(finalised_frame finalised).sharing] at gone
      exact absurd stored gone
    | resolved auth present requested addressed pending resolution =>
      cases resolution with
      | closed status closed => exact absurd stored gone
      | shared t accepted valid appended =>
        exact absurd ((Table.mem_appended appended).mpr (Or.inl stored)) gone
    | @unshared id nodes userName guest known named =>
      by_cases hit : s.nodeId ∈ nodeList nodes ∧ s.fromUserId = id ∧ s.toUserId = guest.id
      · obtain ⟨listed,granted,given⟩ := hit
        subst granted
        exact .revoked known given.symm named listed
      · refine absurd (Table.mem_delete.mpr ⟨stored,?_⟩) gone
        rw [← Bool.not_eq_true]
        simpa [and_assoc] using hit
    | _ => exact absurd stored gone

end Shares

/-! Accounts. -/

theorem access_accounts {db db' : Db} {now : Time} (effect : AccessEffect db now c db') :
    db'.users = db.users ∨ ∃ id, db' = Accounts.deleteCurrentUser db id := by
  cases effect with
  | confirmed topical present named pending valid finalised =>
    exact Or.inl (finalised_frame finalised).users
  | @removed id user auth => exact Or.inr ⟨id,rfl⟩
  | verified answer finalised =>
    exact Or.inl (finalised_frame finalised).users
  | resolved auth present requested addressed pending resolution =>
    exact Or.inl (resolved_frame resolution).users
  | _ => exact Or.inl rfl

theorem account_origin {r : User} (stored : r ∈ (step pf w c).db.users) :
    (∃ salt code userName password, c = .signup r.id salt code userName password) ∨
      ∃ old ∈ w.db.users, old.id = r.id ∧ old.userName = r.userName := by
  rcases effect_access (step_effect pf w c) with same | effect
  · exact same.users r stored
  · right
    rcases access_accounts effect with same | ⟨id,removed⟩
    · rw [same] at stored
      exact ⟨r,stored,rfl,rfl⟩
    · rw [removed] at stored
      exact ⟨r,(Table.mem_delete.mp stored).1,rfl,rfl⟩

structure AccountGone (r : User) (db : Db) : Prop where
  shares : ∀ s ∈ db.nodeSharing, s.toUserId ≠ r.id
  challenges : ∀ m ∈ db.mappingChallenges, m.userId ≠ r.id

theorem account_stays {r : User} (stored : r ∈ w.db.users) :
    (∃ new ∈ (step pf w c).db.users, new.id = r.id ∧ new.userName = r.userName) ∨
      AccountGone r (step pf w c).db := by
  rcases effect_access (step_effect pf w c) with same | effect
  · exact Or.inl (same.accounts r stored)
  · rcases access_accounts effect with same | ⟨id,removed⟩
    · rw [same]
      exact Or.inl ⟨r,stored,rfl,rfl⟩
    · rw [removed]
      by_cases own : r.id = id
      · right
        constructor
        · intro s kept same
          have outside := (Table.mem_delete.mp kept).2
          simp [same, own] at outside
        · intro m kept same
          have outside := (Table.mem_delete.mp kept).2
          simp [same, own] at outside
      · exact Or.inl ⟨r,Table.mem_delete.mpr ⟨stored,by simpa using own⟩,rfl,rfl⟩

end RainmakerServer.GrantSteps
