import RainmakerServer.Models

/-!
Who may act on a node: the access check, the two mapping flows, sharing, and
the unmapping route. Identifiers and tokens that a handler draws at random are
arguments. A handler reads the clock once.
-/
namespace RainmakerServer.Access
open Tables

def hasAccess (db : Db) (userId : Uuid) (nodeId : Text) : Except Exc Bool :=
  match scalarOneOrNone (db.userNodeMappings.select fun r =>
      r.userId == userId && r.nodeId == nodeId) with
  | .error e => .error (.database e)
  | .ok (some _) => .ok true
  | .ok none => match scalarOneOrNone (db.nodeSharing.select fun r =>
        r.toUserId == userId && r.nodeId == nodeId) with
    | .error e => .error (.database e)
    | .ok share => .ok share.isSome

def Owns (db : Db) (userId : Uuid) (nodeId : Text) : Prop :=
  ∃ r ∈ db.userNodeMappings, r.userId = userId ∧ r.nodeId = nodeId

def SharedWith (db : Db) (userId : Uuid) (nodeId : Text) : Prop :=
  ∃ r ∈ db.nodeSharing, r.toUserId = userId ∧ r.nodeId = nodeId

theorem has_access_spec (db : Db) (u : Uuid) (n : Text) :
    (hasAccess db u n = .ok true ∧ (Owns db u n ∨ SharedWith db u n)) ∨
      (hasAccess db u n = .ok false ∧ ¬ Owns db u n ∧ ¬ SharedWith db u n) := by
  have mapped := scalar_by_key (t := db.userNodeMappings)
    (p := fun r => r.userId == u && r.nodeId == n) (by
      intro a b ha hb
      simp only [Bool.and_eq_true, beq_iff_eq] at ha hb
      simp [Schema.conflict, ha, hb])
  have shared := scalar_by_key (t := db.nodeSharing)
    (p := fun r => r.toUserId == u && r.nodeId == n) (by
      intro a b ha hb
      simp only [Bool.and_eq_true, beq_iff_eq] at ha hb
      simp [Schema.conflict, ha, hb])
  unfold hasAccess
  rcases mapped with ⟨r,stored,hit,found⟩ | ⟨absent,found⟩
  · left
    simp only [found, true_and]
    simp only [Bool.and_eq_true, beq_iff_eq] at hit
    exact Or.inl ⟨r,stored,hit⟩
  · have unmapped : ¬ Owns db u n := by
      rintro ⟨r,stored,user,node⟩
      have miss := absent r stored
      simp [user, node] at miss
    simp only [found]
    rcases shared with ⟨r,stored,hit,given⟩ | ⟨none,given⟩
    · left
      simp only [given, Option.isSome_some, true_and]
      simp only [Bool.and_eq_true, beq_iff_eq] at hit
      exact Or.inr ⟨r,stored,hit⟩
    · right
      simp only [given, Option.isSome_none, true_and]
      refine ⟨unmapped,?_⟩
      rintro ⟨r,stored,user,node⟩
      have miss := none r stored
      simp [user, node] at miss

theorem has_access_true_iff (db : Db) (u : Uuid) (n : Text) :
    hasAccess db u n = .ok true ↔ Owns db u n ∨ SharedWith db u n := by
  rcases has_access_spec db u n with ⟨eq,some⟩ | ⟨eq,unmapped,unshared⟩
  · simp [eq, some]
  · simp [eq, unmapped, unshared]

theorem has_access_false_iff (db : Db) (u : Uuid) (n : Text) :
    hasAccess db u n = .ok false ↔ ¬ Owns db u n ∧ ¬ SharedWith db u n := by
  rcases has_access_spec db u n with ⟨eq,some⟩ | ⟨eq,unmapped,unshared⟩
  · rw [eq]
    simp only [Except.ok.injEq, Bool.true_eq_false, false_iff, not_and_or, not_not]
    exact some
  · simp [eq, unmapped, unshared]

def requireAccess (db : Db) (userId : Uuid) (nodeId : Text) : Except Exc Unit :=
  match hasAccess db userId nodeId with
  | .error e => .error e
  | .ok true => .ok ()
  | .ok false => .error (forbidden "Node not mapped to this user")

def accessibleNodeIds (db : Db) (userId : Uuid) : List Text :=
  let owned := (db.userNodeMappings.select fun r => r.userId == userId).map (·.nodeId)
  let shared := (db.nodeSharing.select fun r => r.toUserId == userId).map (·.nodeId)
  (owned ++ shared).eraseDups

theorem mem_accessible_node_ids {db : Db} {u : Uuid} {m : Text} :
    m ∈ accessibleNodeIds db u ↔ hasAccess db u m = .ok true := by
  rw [has_access_true_iff]
  simp only [accessibleNodeIds, List.mem_eraseDups, List.mem_append, List.mem_map,
    Table.mem_select, beq_iff_eq, Owns, SharedWith, and_assoc]

/-! Mapping. -/

def addMapping (db : Db) (row : UserNodeMapping) : Except Exc Db :=
  commitInsert db.userNodeMappings row (fun r => db.hasUser r.userId && db.hasNode r.nodeId)
    fun t => {db with userNodeMappings := t}

def addMappingChallenge (db : Db) (row : MappingChallenge) : Except Exc Db :=
  commitInsert db.mappingChallenges row (fun r => db.hasUser r.userId)
    fun t => {db with mappingChallenges := t}

def setChallenge (db : Db) (id : Uuid) (status : MappingStatus) (completedAt : Option Time) : Db :=
  let t := db.mappingChallenges.update (fun r => r.id == id)
    (fun r => {r with status := status, completedAt := completedAt}) (fun _ _ => rfl) fun _ h => h
  {db with mappingChallenges := t}

def requestLegacyMapping (db : Db) (now : Time) (id : Uuid) (requestId : Text) (userId : Uuid)
    (nodeId secretKey operation : Text) : Reply Text :=
  match addMappingChallenge db {
      id := id, requestId := requestId, userId := userId, nodeId := some nodeId,
      secretKey := some secretKey, operation := operation, expiresAt := now + hours 1} with
  | .error e => raise db e
  | .ok db' => done db' requestId

def initiateChallenge (db : Db) (now : Time) (id : Uuid) (requestId challenge : Text)
    (userId : Uuid) (nodeId : Text) : Reply (Text × Text) :=
  match addMappingChallenge db {
      id := id, requestId := requestId, userId := userId, nodeId := some nodeId,
      challenge := some challenge, operation := "add", expiresAt := now + minutes 10} with
  | .error e => raise db e
  | .ok db' => done db' (requestId,challenge)

/-- The commit that ends both flows: a mapping unless there is one, and the
    challenge completed. -/
def finaliseMapping (db : Db) (now : Time) (mappingId : Uuid) (row : MappingChallenge) :
    Except Exc Db :=
  match scalarOneOrNone (db.userNodeMappings.select fun r =>
      r.userId == row.userId && some r.nodeId == row.nodeId) with
  | .error e => .error (.database e)
  | .ok (some _) => .ok (setChallenge db row.id .completed (some now))
  | .ok none => match row.nodeId with
    | none => .error (.database .integrityError)
    | some nodeId => match addMapping db {id := mappingId, userId := row.userId, nodeId := nodeId} with
      | .error e => .error e
      | .ok db' => .ok (setChallenge db' row.id .completed (some now))

theorem finalise_mapping_cases {db db' : Db} {now : Time} {mappingId : Uuid}
    {row : MappingChallenge} (ok : finaliseMapping db now mappingId row = .ok db') :
    ∃ n, row.nodeId = some n ∧
      ((Owns db row.userId n ∧ db' = setChallenge db row.id .completed (some now)) ∨
        ∃ t, t.rows = db.userNodeMappings.rows ++
            [{id := mappingId, userId := row.userId, nodeId := cut 64 n}] ∧
          db.hasUser row.userId = true ∧ db.hasNode (cut 64 n) = true ∧
          db' = setChallenge {db with userNodeMappings := t} row.id .completed (some now)) := by
  unfold finaliseMapping at ok
  split at ok
  · cases ok
  · rename_i m found
    cases ok
    obtain ⟨stored,hit⟩ := scalar_mem found
    simp only [Bool.and_eq_true, beq_iff_eq] at hit
    exact ⟨m.nodeId,hit.2.symm,Or.inl ⟨⟨m,stored,hit.1,rfl⟩,rfl⟩⟩
  · split at ok
    · cases ok
    · rename_i n named
      split at ok
      · cases ok
      · rename_i added
        cases ok
        obtain ⟨t,inserted,present,eq⟩ := commitInsert_ok added
        rw [Bool.and_eq_true] at present
        subst eq
        exact ⟨n,named,Or.inr ⟨t,(Table.insert_ok inserted).1,present.1,present.2,rfl⟩⟩

theorem challenge_node_varchar {db : Db} {row : MappingChallenge} {n : Text}
    (stored : row ∈ db.mappingChallenges) (named : row.nodeId = some n) :
    varchar 64 n = true := by
  have held := Table.holds_of_mem stored
  simp only [Schema.holds, Bool.and_eq_true, named] at held
  exact held.1.1.1.2

theorem finalise_mapping_ok {db db' : Db} {now : Time} {mappingId : Uuid} {row : MappingChallenge}
    (stored : row ∈ db.mappingChallenges) (ok : finaliseMapping db now mappingId row = .ok db') :
    ∃ n, row.nodeId = some n ∧
      ((Owns db row.userId n ∧ db' = setChallenge db row.id .completed (some now)) ∨
        ∃ t, t.rows = db.userNodeMappings.rows ++
            [{id := mappingId, userId := row.userId, nodeId := n}] ∧
          db.hasUser row.userId = true ∧ db.hasNode n = true ∧
          db' = setChallenge {db with userNodeMappings := t} row.id .completed (some now)) := by
  obtain ⟨n,named,how⟩ := finalise_mapping_cases ok
  rw [cut_of_varchar (challenge_node_varchar stored named)] at how
  exact ⟨n,named,how⟩

theorem finalise_mapping_frame {db db' : Db} {now : Time} {mappingId : Uuid}
    {row : MappingChallenge} (ok : finaliseMapping db now mappingId row = .ok db') :
    ∃ mappings challenges, db' = {db with
      userNodeMappings := mappings, mappingChallenges := challenges} := by
  obtain ⟨n,-,⟨-,eq⟩ | ⟨t,-,-,-,eq⟩⟩ := finalise_mapping_cases ok
  · exact ⟨db.userNodeMappings,_,eq⟩
  · exact ⟨t,_,eq⟩

theorem finalise_mapping_succeeds {db : Db} {now : Time} {mappingId : Uuid}
    {row : MappingChallenge} {n : Text} (named : row.nodeId = some n)
    (user : db.hasUser row.userId = true) (node : db.hasNode n = true)
    (fresh : ∀ m ∈ db.userNodeMappings, m.id ≠ mappingId) :
    ∃ db', finaliseMapping db now mappingId row = .ok db' ∧ Owns db' row.userId n ∧
      db'.mappingChallenges = (setChallenge db row.id .completed (some now)).mappingChallenges := by
  have found := scalar_by_key (t := db.userNodeMappings)
    (p := fun r => r.userId == row.userId && some r.nodeId == row.nodeId) (by
      intro a b ha hb
      simp only [Bool.and_eq_true, beq_iff_eq] at ha hb
      have node : a.nodeId = b.nodeId := Option.some.inj (ha.2.trans hb.2.symm)
      simp [Schema.conflict, ha.1, hb.1, node])
  unfold finaliseMapping
  rcases found with ⟨m,stored,hit,scalar⟩ | ⟨absent,scalar⟩
  · simp only [Bool.and_eq_true, beq_iff_eq] at hit
    simp only [scalar]
    refine ⟨_,rfl,⟨m,stored,hit.1,?_⟩,rfl⟩
    exact Option.some.inj (hit.2.trans named)
  · have width : varchar 64 n = true := Db.hasNode_varchar node
    let mapping : UserNodeMapping := {id := mappingId, userId := row.userId, nodeId := n}
    have whole : Schema.stored mapping = mapping := by
      simp only [mapping, Schema.stored, cut_of_varchar width]
    have free : ∀ a ∈ db.userNodeMappings, Schema.conflict a (Schema.stored mapping) = false := by
      intro a stored
      have miss := absent a stored
      rw [named] at miss
      rw [whole]
      simpa [mapping, Schema.conflict, fresh a stored] using miss
    obtain ⟨t,inserted⟩ := Table.insert_succeeds (assignable_of_varchar width) free
    have added : addMapping db mapping = .ok {db with userNodeMappings := t} := by
      simp only [addMapping, commitInsert, inserted, whole]
      simp only [mapping, user, node, Bool.and_self, if_true]
    simp only [scalar]
    simp only [named]
    rw [added]
    refine ⟨_,rfl,⟨mapping,?_,rfl,rfl⟩,rfl⟩
    exact (Table.mem_insert inserted).mpr (Or.inr whole.symm)

/-- The checks of `verify_challenge`, up to the row it finalises. -/
def verifyChallengeCheck (db : Db) (now : Time) (userId : Uuid)
    (requestId challengeResponse : Text) : Except Exc MappingChallenge :=
  if bindable requestId = false then .error (.database .dataError)
  else match scalarOneOrNone (db.mappingChallenges.select fun r =>
      r.requestId == requestId && r.userId == userId && r.status == .pending) with
  | .error e => .error (.database e)
  | .ok none => .error (invalidRequest "Mapping request not found or already used")
  | .ok (some row) =>
    if row.expiresAt < now then .error (invalidRequest "Mapping request expired")
    else match row.challenge with
    | none => .error (invalidRequest "Mapping not in challenge-response mode")
    | some challenge => match compareDigest challenge challengeResponse with
      | .error e => .error e
      | .ok false => .error (invalidRequest "Invalid challenge_response")
      | .ok true => .ok row

def verifyChallenge (db : Db) (now : Time) (mappingId userId : Uuid)
    (requestId challengeResponse : Text) : Reply (Text × MappingStatus) :=
  match verifyChallengeCheck db now userId requestId challengeResponse with
  | .error e => raise db e
  | .ok row => match finaliseMapping db now mappingId row with
    | .error e => raise db e
    | .ok db' => done db' (requestId,.completed)

def deleteUserNode (db : Db) (userId : Uuid) (nodeId : Text) : Reply Unit :=
  match scalarOneOrNone (db.userNodeMappings.select fun r =>
      r.userId == userId && r.nodeId == nodeId) with
  | .error e => raise db (.database e)
  | .ok none =>
    raise db (.rainmakerError 404 ErrorCode.nodeNotMapped "Node not mapped to this user")
  | .ok (some mapping) =>
    done {db with userNodeMappings := db.userNodeMappings.delete fun r => r.id == mapping.id} ()

/-! Sharing. -/

def checkOwner (db : Db) (userId : Uuid) : List Text → Except Exc Unit
  | [] => .ok ()
  | nid :: rest => match scalarOneOrNone (db.userNodeMappings.select fun r =>
        r.userId == userId && r.nodeId == nid) with
    | .error e => .error (.database e)
    | .ok none => .error (.rainmakerError 403 100070 (("Not owner of node " : Text) ++ nid))
    | .ok (some _) => checkOwner db userId rest

def requestRows (now : Time) (ids : Nat → Uuid) (fromUserId : Uuid) (nodeIds : List Text)
    (toUserName : Text) : List NodeSharingRequest :=
  nodeIds.mapIdx fun i nid => {
    id := ids i, nodeId := nid, fromUserId := fromUserId, toUserName := toUserName,
    expiresAt := now + days 7}

def createRequest (db : Db) (now : Time) (ids : Nat → Uuid) (fromUserId : Uuid)
    (nodeIds : List Text) (toUserName : Text) : Reply Uuid :=
  if nodeIds.isEmpty || toUserName.isEmpty then
    raise db (invalidRequest "nodes and user_name required")
  else match checkOwner db fromUserId nodeIds with
  | .error e => raise db e
  | .ok _ => match db.nodeSharingRequests.insertAll
        (requestRows now ids fromUserId nodeIds toUserName) with
    | .error e => raise db (.database e)
    | .ok t => if db.hasUser fromUserId && nodeIds.all fun nid => db.hasNode (cut 64 nid) then
        done {db with nodeSharingRequests := t} (ids 0)
      else raise db (.database .integrityError)

def setRequest (db : Db) (id : Uuid) (status : RequestStatus) : Db :=
  let t := db.nodeSharingRequests.update (fun r => r.id == id)
    (fun r => {r with status := status}) (fun _ _ => rfl) fun _ h => h
  {db with nodeSharingRequests := t}

def addSharing (db : Db) (row : NodeSharing) : Except Exc Db :=
  commitInsert db.nodeSharing row
    (fun r => db.hasNode r.nodeId && db.hasUser r.fromUserId && db.hasUser r.toUserId)
    fun t => {db with nodeSharing := t}

def acceptOrDecline (db : Db) (now : Time) (shareId : Uuid) (inviteeId : Uuid) (inviteeName : Text)
    (requestId : Uuid) (accept : Bool) : Reply RequestStatus :=
  match scalarOneOrNone (db.nodeSharingRequests.select fun r => r.id == requestId) with
  | .error e => raise db (.database e)
  | .ok none => raise db (.rainmakerError 404 100015 "Request not found")
  | .ok (some row) =>
    if row.toUserName ≠ inviteeName then
      raise db (.rainmakerError 403 100070 "Request is for a different user")
    else if row.status ≠ .pending then raise db (invalidRequest "Request already resolved")
    else if row.expiresAt < now then
      raise (setRequest db row.id .expired) (invalidRequest "Request expired")
    else if accept then
      match scalarOneOrNone (db.nodeSharing.select fun r =>
          r.nodeId == row.nodeId && r.toUserId == inviteeId) with
      | .error e => raise db (.database e)
      | .ok (some _) => done (setRequest db row.id .accepted) .accepted
      | .ok none => match addSharing db {
            id := shareId, nodeId := row.nodeId, fromUserId := row.fromUserId,
            toUserId := inviteeId} with
        | .error e => raise db e
        | .ok db' => done (setRequest db' row.id .accepted) .accepted
    else done (setRequest db row.id .declined) .declined

def sharesToRevoke (db : Db) (ownerId inviteeId : Uuid) : List Text → Except Exc (List Uuid)
  | [] => .ok []
  | nid :: rest => match scalarOneOrNone (db.nodeSharing.select fun r =>
        r.nodeId == nid && r.fromUserId == ownerId && r.toUserId == inviteeId) with
    | .error e => .error (.database e)
    | .ok share => match sharesToRevoke db ownerId inviteeId rest with
      | .error e => .error e
      | .ok ids => .ok ((share.map (·.id)).toList ++ ids)

def revokeShare (db : Db) (ownerId : Uuid) (nodeIds : List Text) (inviteeName : Text) :
    Reply Unit :=
  match scalarOneOrNone (db.users.select fun r => r.userName == inviteeName) with
  | .error e => raise db (.database e)
  | .ok none => done db ()
  | .ok (some invitee) => match sharesToRevoke db ownerId invitee.id nodeIds with
    | .error e => raise db e
    | .ok ids =>
      done {db with nodeSharing := db.nodeSharing.delete fun r => ids.contains r.id} ()

/-! What each handler can do. -/

/-- The row `verify_challenge` settles: the caller's, pending, in time, and
    with the response it was handed out with. -/
structure Answerable (db : Db) (now : Time) (userId : Uuid) (requestId response : Text)
    (row : MappingChallenge) : Prop where
  stored : row ∈ db.mappingChallenges
  requested : row.requestId = requestId
  caller : row.userId = userId
  pending : row.status = .pending
  valid : now ≤ row.expiresAt
  echoed : row.challenge = some response

theorem verify_challenge_check_ok {db : Db} {now : Time} {userId : Uuid} {requestId response : Text}
    {row : MappingChallenge} (ok : verifyChallengeCheck db now userId requestId response = .ok row) :
    Answerable db now userId requestId response row := by
  unfold verifyChallengeCheck at ok
  split at ok
  · cases ok
  · split at ok
    · cases ok
    · cases ok
    · rename_i found
      obtain ⟨stored,hit⟩ := scalar_mem found
      simp only [Bool.and_eq_true, beq_iff_eq] at hit
      split at ok
      · cases ok
      · rename_i valid
        split at ok
        · cases ok
        · rename_i challenge moded
          split at ok
          · cases ok
          · cases ok
          · rename_i equal
            cases ok
            rw [compare_digest_true equal] at moded
            exact ⟨stored,hit.1.1,hit.1.2,hit.2,Int.not_lt.mp valid,moded⟩

theorem verify_challenge_cases (db : Db) (now : Time) (mappingId userId : Uuid)
    (requestId response : Text) :
    (verifyChallenge db now mappingId userId requestId response).1 = db ∨
      ∃ row, Answerable db now userId requestId response row ∧
        finaliseMapping db now mappingId row =
          .ok (verifyChallenge db now mappingId userId requestId response).1 := by
  unfold verifyChallenge
  split
  · exact Or.inl rfl
  · rename_i row checked
    split
    · exact Or.inl rfl
    · rename_i finalised
      exact Or.inr ⟨row,verify_challenge_check_ok checked,finalised⟩

theorem delete_user_node_cases (db : Db) (userId : Uuid) (nodeId : Text) :
    (deleteUserNode db userId nodeId).1 = db ∨
      ∃ m ∈ db.userNodeMappings, m.userId = userId ∧ m.nodeId = nodeId ∧
        (deleteUserNode db userId nodeId).1 =
          {db with userNodeMappings := db.userNodeMappings.delete fun r => r.id == m.id} := by
  unfold deleteUserNode
  split
  · exact Or.inl rfl
  · exact Or.inl rfl
  · rename_i m found
    obtain ⟨stored,hit⟩ := scalar_mem found
    simp only [Bool.and_eq_true, beq_iff_eq] at hit
    exact Or.inr ⟨m,stored,hit.1,hit.2,rfl⟩

theorem check_owner_ok {db : Db} {userId : Uuid} {nodeIds : List Text}
    (ok : checkOwner db userId nodeIds = .ok ()) : ∀ n ∈ nodeIds, Owns db userId n := by
  induction nodeIds with
  | nil => simp
  | cons nid rest ih =>
    unfold checkOwner at ok
    split at ok
    · cases ok
    · cases ok
    · rename_i m found
      intro n member
      rcases List.mem_cons.mp member with here | later
      · obtain ⟨stored,hit⟩ := scalar_mem found
        simp only [Bool.and_eq_true, beq_iff_eq] at hit
        exact ⟨m,stored,hit.1,by rw [here,hit.2]⟩
      · exact ih ok n later

theorem owned_varchar {db : Db} {u : Uuid} {n : Text} (owns : Owns db u n) :
    varchar 64 n = true := by
  obtain ⟨m,stored,-,named⟩ := owns
  rw [← named]
  exact Table.holds_of_mem stored

theorem stored_request_rows {now : Time} {ids : Nat → Uuid} {fromUserId : Uuid}
    {nodeIds : List Text} {toUserName : Text} (widths : ∀ n ∈ nodeIds, varchar 64 n = true) :
    (requestRows now ids fromUserId nodeIds toUserName).map Schema.stored =
      requestRows now ids fromUserId nodeIds (cut 254 toUserName) := by
  unfold requestRows
  apply List.ext_getElem
  · simp
  · intro i small _
    simp only [List.length_map, List.length_mapIdx] at small
    simp only [List.getElem_map, List.getElem_mapIdx, Schema.stored, cut_of_varchar (widths _ (List.getElem_mem small))]

theorem create_request_cases (db : Db) (now : Time) (ids : Nat → Uuid) (fromUserId : Uuid)
    (nodeIds : List Text) (toUserName : Text) :
    (createRequest db now ids fromUserId nodeIds toUserName).1 = db ∨
      ∃ t, t.rows = db.nodeSharingRequests.rows ++
          requestRows now ids fromUserId nodeIds (cut 254 toUserName) ∧
        (∀ n ∈ nodeIds, Owns db fromUserId n) ∧
        (createRequest db now ids fromUserId nodeIds toUserName).1 =
          {db with nodeSharingRequests := t} := by
  unfold createRequest
  split
  · exact Or.inl rfl
  · split
    · exact Or.inl rfl
    · rename_i owned
      split
      · exact Or.inl rfl
      · rename_i t inserted
        split
        · have owns := check_owner_ok owned
          have whole := @stored_request_rows now ids fromUserId nodeIds toUserName
            fun n listed => owned_varchar (owns n listed)
          rw [← whole]
          exact Or.inr ⟨t,Table.insertAll_rows inserted,owns,rfl⟩
        · exact Or.inl rfl

theorem mem_request_rows {now : Time} {ids : Nat → Uuid} {fromUserId : Uuid} {nodeIds : List Text}
    {toUserName : Text} {r : NodeSharingRequest}
    (member : r ∈ requestRows now ids fromUserId nodeIds toUserName) :
    r.nodeId ∈ nodeIds ∧ r.fromUserId = fromUserId ∧ r.toUserName = toUserName ∧
      r.status = .pending ∧ r.expiresAt = now + days 7 := by
  obtain ⟨i,small,eq⟩ := List.mem_mapIdx.mp member
  subst eq
  exact ⟨List.getElem_mem small,rfl,rfl,rfl,rfl⟩

theorem request_row_place {now : Time} {ids : Nat → Uuid} {fromUserId : Uuid} {nodeIds : List Text}
    {toUserName : Text} {r : NodeSharingRequest}
    (member : r ∈ requestRows now ids fromUserId nodeIds toUserName) :
    ∃ i, nodeIds[i]? = some r.nodeId ∧ r.id = ids i := by
  obtain ⟨i,small,eq⟩ := List.mem_mapIdx.mp member
  subst eq
  exact ⟨i,List.getElem?_eq_getElem small,rfl⟩

/-- Resolving a request ends its pending state, and shares its node only when
    it is accepted in time. -/
inductive Resolved (db : Db) (now : Time) (shareId inviteeId : Uuid) (row : NodeSharingRequest)
    (accept : Bool) : Db → Prop where
  | closed (status : RequestStatus) (settled : status ≠ .pending) :
      Resolved db now shareId inviteeId row accept (setRequest db row.id status)
  | shared (t : Table NodeSharing) (accepted : accept = true) (valid : now ≤ row.expiresAt)
      (appended : t.rows = db.nodeSharing.rows ++ [{
        id := shareId, nodeId := row.nodeId, fromUserId := row.fromUserId,
        toUserId := inviteeId}]) :
      Resolved db now shareId inviteeId row accept
        (setRequest {db with nodeSharing := t} row.id .accepted)

theorem add_sharing_ok {db db' : Db} {row : NodeSharingRequest} {shareId inviteeId : Uuid}
    (stored : row ∈ db.nodeSharingRequests) (added : addSharing db {
      id := shareId, nodeId := row.nodeId, fromUserId := row.fromUserId,
      toUserId := inviteeId} = .ok db') :
    ∃ t, t.rows = db.nodeSharing.rows ++ [{
        id := shareId, nodeId := row.nodeId, fromUserId := row.fromUserId,
        toUserId := inviteeId}] ∧ db' = {db with nodeSharing := t} := by
  obtain ⟨t,inserted,-,eq⟩ := commitInsert_ok added
  have held := Table.holds_of_mem stored
  simp only [Schema.holds, Bool.and_eq_true] at held
  refine ⟨t,?_,eq⟩
  rw [(Table.insert_ok inserted).1]
  simp only [Schema.stored, cut_of_varchar held.1]

theorem accept_or_decline_cases (db : Db) (now : Time) (shareId inviteeId : Uuid) (name : Text)
    (requestId : Uuid) (accept : Bool) :
    (acceptOrDecline db now shareId inviteeId name requestId accept).1 = db ∨
      ∃ row ∈ db.nodeSharingRequests, row.id = requestId ∧ row.toUserName = name ∧
        row.status = .pending ∧ Resolved db now shareId inviteeId row accept
          (acceptOrDecline db now shareId inviteeId name requestId accept).1 := by
  unfold acceptOrDecline
  split
  · exact Or.inl rfl
  · exact Or.inl rfl
  · rename_i row found
    obtain ⟨stored,hit⟩ := scalar_mem found
    have key : row.id = requestId := by simpa using hit
    split
    · exact Or.inl rfl
    · rename_i addressed
      have named : row.toUserName = name := by simpa using addressed
      split
      · exact Or.inl rfl
      · rename_i open'
        have pending : row.status = .pending := by simpa using open'
        split
        · exact Or.inr ⟨row,stored,key,named,pending,.closed .expired (by decide)⟩
        · rename_i valid
          split
          · rename_i accepted
            split
            · exact Or.inl rfl
            · exact Or.inr ⟨row,stored,key,named,pending,.closed .accepted (by decide)⟩
            · split
              · exact Or.inl rfl
              · rename_i added
                obtain ⟨t,appended,eq⟩ := add_sharing_ok stored added
                subst eq
                exact Or.inr ⟨row,stored,key,named,pending,
                  .shared t accepted (Int.not_lt.mp valid) appended⟩
          · exact Or.inr ⟨row,stored,key,named,pending,.closed .declined (by decide)⟩

/-- What an acceptance that succeeds has done: the caller shares the node of
    the one request it names, and nobody's access has changed otherwise. -/
structure Granted (db : Db) (now : Time) (inviteeId : Uuid) (row : NodeSharingRequest)
    (db' : Db) : Prop where
  stored : row ∈ db.nodeSharingRequests
  pending : row.status = .pending
  valid : now ≤ row.expiresAt
  mappings : db'.userNodeMappings = db.userNodeMappings
  sharing : ∀ u n, SharedWith db' u n ↔ SharedWith db u n ∨ (u = inviteeId ∧ n = row.nodeId)

theorem accept_ok {db db' : Db} {now : Time} {shareId inviteeId : Uuid} {name : Text}
    {requestId : Uuid} {status : RequestStatus}
    (ok : acceptOrDecline db now shareId inviteeId name requestId true = (db',.ok status)) :
    ∃ row, row.id = requestId ∧ row.toUserName = name ∧ Granted db now inviteeId row db' := by
  unfold acceptOrDecline at ok
  split at ok
  · cases ok
  · cases ok
  · rename_i row found
    obtain ⟨stored,hit⟩ := scalar_mem found
    have key : row.id = requestId := by simpa using hit
    split at ok
    · cases ok
    · rename_i addressed
      split at ok
      · cases ok
      · rename_i open'
        split at ok
        · cases ok
        · rename_i valid
          have pending : row.status = .pending := by simpa using open'
          refine ⟨row,key,by simpa using addressed,?_⟩
          simp only [if_true] at ok
          split at ok
          · cases ok
          · rename_i share existing
            cases ok
            obtain ⟨given,same⟩ := scalar_mem existing
            simp only [Bool.and_eq_true, beq_iff_eq] at same
            refine ⟨stored,pending,Int.not_lt.mp valid,rfl,?_⟩
            intro u n
            constructor
            · exact Or.inl
            · rintro (old | ⟨guest,node⟩)
              · exact old
              · exact ⟨share,given,same.2.trans guest.symm,same.1.trans node.symm⟩
          · split at ok
            · cases ok
            · rename_i added
              cases ok
              obtain ⟨t,appended,eq⟩ := add_sharing_ok stored added
              subst eq
              refine ⟨stored,pending,Int.not_lt.mp valid,rfl,?_⟩
              intro u n
              constructor
              · rintro ⟨s,member,guest,node⟩
                rcases (Table.mem_appended appended).mp member with old | new
                · exact Or.inl ⟨s,old,guest,node⟩
                · subst new
                  exact Or.inr ⟨guest.symm,node.symm⟩
              · rintro (⟨s,old,same⟩ | ⟨guest,node⟩)
                · exact ⟨s,(Table.mem_appended appended).mpr (Or.inl old),same⟩
                · exact ⟨_,(Table.mem_appended appended).mpr (Or.inr rfl),guest.symm,node.symm⟩

theorem shares_to_revoke_ok (db : Db) (ownerId inviteeId : Uuid) (nodeIds : List Text) :
    ∃ ids, sharesToRevoke db ownerId inviteeId nodeIds = .ok ids ∧
      ∀ s ∈ db.nodeSharing, s.id ∈ ids ↔
        s.nodeId ∈ nodeIds ∧ s.fromUserId = ownerId ∧ s.toUserId = inviteeId := by
  induction nodeIds with
  | nil => exact ⟨[],rfl,by simp⟩
  | cons nid rest ih =>
    obtain ⟨ids,later,exact⟩ := ih
    have found := scalar_by_key (t := db.nodeSharing)
      (p := fun r => r.nodeId == nid && r.fromUserId == ownerId && r.toUserId == inviteeId) (by
        intro a b ha hb
        simp only [Bool.and_eq_true, beq_iff_eq] at ha hb
        simp [Schema.conflict, ha, hb])
    rcases found with ⟨share,stored,hit,scalar⟩ | ⟨absent,scalar⟩
    · simp only [Bool.and_eq_true, beq_iff_eq] at hit
      refine ⟨share.id :: ids,by simp [sharesToRevoke, scalar, later],?_⟩
      intro s member
      rw [List.mem_cons,exact s member,List.mem_cons]
      constructor
      · rintro (same | ⟨listed,granted⟩)
        · have eq : s = share :=
            Table.eq_of_conflict member stored (by simp [Schema.conflict, same])
          rw [eq]
          exact ⟨Or.inl hit.1.1,hit.1.2,hit.2⟩
        · exact ⟨Or.inr listed,granted⟩
      · rintro ⟨here | listed,granted⟩
        · have eq : s = share := Table.eq_of_conflict member stored (by
            simp [Schema.conflict, here, hit, granted])
          exact Or.inl (by rw [eq])
        · exact Or.inr ⟨listed,granted⟩
    · refine ⟨ids,by simp [sharesToRevoke, scalar, later],?_⟩
      intro s member
      rw [exact s member,List.mem_cons]
      constructor
      · rintro ⟨listed,granted⟩
        exact ⟨Or.inr listed,granted⟩
      · rintro ⟨here | listed,granted⟩
        · have miss := absent s member
          simp [here, granted] at miss
        · exact ⟨listed,granted⟩

theorem revoke_share_cases (db : Db) (ownerId : Uuid) (nodeIds : List Text) (inviteeName : Text) :
    (revokeShare db ownerId nodeIds inviteeName = (db,.ok ()) ∧
        ∀ r ∈ db.users, r.userName ≠ inviteeName) ∨
      ∃ invitee ∈ db.users, invitee.userName = inviteeName ∧
        revokeShare db ownerId nodeIds inviteeName = ({db with
          nodeSharing := db.nodeSharing.delete fun s =>
            nodeIds.contains s.nodeId && s.fromUserId == ownerId &&
              s.toUserId == invitee.id},.ok ()) := by
  have found := scalar_by_key (t := db.users) (p := fun r => r.userName == inviteeName) (by
    intro a b ha hb
    simp only [beq_iff_eq] at ha hb
    simp [Schema.conflict, ha, hb])
  unfold revokeShare
  rcases found with ⟨invitee,stored,named,scalar⟩ | ⟨absent,scalar⟩
  · obtain ⟨ids,marked,exact⟩ := shares_to_revoke_ok db ownerId invitee.id nodeIds
    have same : db.nodeSharing.delete (fun r => ids.contains r.id) =
        db.nodeSharing.delete fun s => nodeIds.contains s.nodeId && s.fromUserId == ownerId &&
          s.toUserId == invitee.id := by
      apply Table.delete_congr
      intro s member
      rw [Bool.eq_iff_iff]
      simp only [List.contains_iff_mem, Bool.and_eq_true, beq_iff_eq]
      rw [exact s member,and_assoc]
    right
    refine ⟨invitee,stored,by simpa using named,?_⟩
    simp only [scalar, marked, done]
    rw [same]
  · left
    refine ⟨by simp [scalar, done],?_⟩
    intro r stored
    simpa using absent r stored

end RainmakerServer.Access
