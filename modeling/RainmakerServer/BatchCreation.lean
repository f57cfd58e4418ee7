import RainmakerServer.Deployment
import RainmakerServer.GroupForest
import RainmakerServer.Services.Access

/-!
Requests that store a row for each element of a list. The rows are flushed by
one commit, so the first bad element, wherever it stands, undoes the whole
request; with keys that are not in use, only the elements themselves decide.
-/
namespace RainmakerServer.BatchCreation
open Tables Access Fleet

/-- What the foreign keys of the migrations say of the tables below. -/
structure ForeignKeys (db : Db) : Prop where
  mappings : ∀ m ∈ db.userNodeMappings, db.hasUser m.userId = true ∧ db.hasNode m.nodeId = true
  targets : ∀ r ∈ db.otaJobNodes, ∃ job ∈ db.otaJobs, job.id = r.jobId
  members : ∀ m ∈ db.nodeGroupNodes, ∃ group ∈ db.nodeGroups, group.id = m.groupId

/-- The keys drawn for the new rows differ, and no stored row has one of them. -/
structure Drawn {α : Type} [Schema α] (t : Table α) (key : α → Uuid) (ids : Nat → Uuid)
    (count : Nat) : Prop where
  different : ∀ i < count, ∀ j < count, ids i = ids j → i = j
  unused : ∀ a ∈ t, ∀ i < count, key a ≠ ids i

/-- The texts of the row fit their columns, which store it as it is. -/
structure Fitting {α : Type} [Schema α] (row : α) : Prop where
  fits : Schema.fits row = true
  whole : Schema.stored row = row

/-- The request stores what it promises when the condition holds, and otherwise
    raises and leaves the database as it was. -/
structure AllOrNothing {α : Type} (db : Db) (reply : Reply α) (condition : Prop)
    (added : Db → Prop) : Prop where
  stores : condition → ∃ db' a, reply = done db' a ∧ added db'
  refuses : ¬ condition → ∃ e, reply = raise db e

/-! The rows. -/

def newJob (now : Time) (jobId : Uuid) (name : Text) (imageId : Uuid) (rolloutPolicy : JsonObject)
    (createdBy : Option Uuid) : OtaJob where
  id := jobId
  imageId := imageId
  name := name
  status := .active
  rolloutPolicy := rolloutPolicy
  startedAt := some now
  createdBy := createdBy

def newTarget (now : Time) (jobId : Uuid) (id : Uuid) (nodeId : Text) : OtaJobNode where
  id := id
  jobId := jobId
  nodeId := nodeId
  status := "pending"
  createdAt := now

def newTargets (now : Time) (jobId : Uuid) (rowIds : Nat → Uuid) (nodeIds : List Text) :
    List OtaJobNode :=
  nodeIds.mapIdx fun i nid => newTarget now jobId (rowIds i) nid

def newMembers (groupId : Uuid) (memberIds : Nat → Uuid) (nodes : List Text) :
    List NodeGroupNode :=
  nodes.mapIdx fun i nid => ⟨memberIds i,groupId,nid⟩

structure JobAdded (db : Db) (job : OtaJob) (targets : List OtaJobNode) (db' : Db) : Prop where
  frame : db' = {db with otaJobs := db'.otaJobs, otaJobNodes := db'.otaJobNodes}
  jobs : db'.otaJobs.rows = db.otaJobs.rows ++ [job]
  rows : db'.otaJobNodes.rows = db.otaJobNodes.rows ++ targets

structure GroupAdded (db : Db) (group : NodeGroup) (members : List NodeGroupNode) (db' : Db) :
    Prop where
  frame : db' = {db with nodeGroups := db'.nodeGroups, nodeGroupNodes := db'.nodeGroupNodes}
  groups : db'.nodeGroups.rows = db.nodeGroups.rows ++ [group]
  rows : db'.nodeGroupNodes.rows = db.nodeGroupNodes.rows ++ members

structure RequestsAdded (db : Db) (requests : List NodeSharingRequest) (db' : Db) : Prop where
  frame : db' = {db with nodeSharingRequests := db'.nodeSharingRequests}
  rows : db'.nodeSharingRequests.rows = db.nodeSharingRequests.rows ++ requests

/-! Lists of new rows. -/

section
variable {α : Type} {row : Nat → Text → α} {nodes : List Text}

theorem all_rows {P : α → Prop} (all : ∀ i < nodes.length, ∀ n ∈ nodes, P (row i n)) :
    ∀ r ∈ nodes.mapIdx row, P r := by
  intro r new
  obtain ⟨i,bound,eq⟩ := List.mem_mapIdx.mp new
  rw [← eq]
  exact all i bound _ (List.getElem_mem bound)

theorem fitting_rows [Schema α] {rs : List α} {t t' : Table α} (fitting : ∀ r ∈ rs, Fitting r)
    (stored : t.insertAll rs = .ok t') : t'.rows = t.rows ++ rs := by
  have same : rs.map Schema.stored = rs := by
    have each : rs.map Schema.stored = rs.map id :=
      List.map_congr_left fun r member => (fitting r member).whole
    rw [each,List.map_id]
  rw [Table.insertAll_rows stored,same]

theorem insert_fitting [Schema α] {r : α} {t t' : Table α} (fitting : Fitting r)
    (stored : t.insert r = .ok t') : t'.rows = t.rows ++ [r] := by
  rw [(Table.insert_ok stored).1,fitting.whole]

theorem fitting_storable_iff [Schema α] {rs : List α} {t : Table α}
    (fitting : ∀ r ∈ rs, Fitting r) :
    (∃ t', t.insertAll rs = .ok t') ↔ (∀ a ∈ t, ∀ r ∈ rs, Schema.conflict a r = false) ∧
      rs.Pairwise fun a b => Schema.conflict a b = false := by
  have each : ∀ a ∈ t, ∀ r ∈ rs, Schema.conflict a (Schema.stored r) = Schema.conflict a r := by
    intro a _ r member
    rw [(fitting r member).whole]
  have pairs : (rs.Pairwise fun a b => Schema.conflict (Schema.stored a) (Schema.stored b) = false) ↔
      rs.Pairwise fun a b => Schema.conflict a b = false := by
    apply List.Pairwise.iff_of_mem
    intro a b left right
    rw [(fitting a left).whole,(fitting b right).whole]
  rw [Table.insertAll_ok_iff,pairs]
  constructor
  · rintro ⟨-,free,apart⟩
    refine ⟨?_,apart⟩
    intro a stored r member
    rw [← each a stored r member]
    exact free a stored r member
  · rintro ⟨free,apart⟩
    refine ⟨fun r member => (fitting r member).fits,?_,apart⟩
    intro a stored r member
    rw [each a stored r member]
    exact free a stored r member

theorem rows_apart_iff [Schema α] (ids : Nat → Uuid)
    (different : ∀ i < nodes.length, ∀ j < nodes.length, ids i = ids j → i = j)
    (collide : ∀ i j a b, Schema.conflict (row i a) (row j b) = (ids i == ids j || a == b)) :
    ((nodes.mapIdx row).Pairwise fun a b => Schema.conflict a b = false) ↔ nodes.Nodup := by
  rw [List.pairwise_iff_getElem,List.Nodup,List.pairwise_iff_getElem]
  simp only [List.length_mapIdx, List.getElem_mapIdx, collide, Bool.or_eq_false_iff,
    beq_eq_false_iff_ne]
  constructor
  · intro apart i j first second less
    exact (apart i j first second less).2
  · intro distinct i j first second less
    refine ⟨?_,distinct i j first second less⟩
    intro same
    have equal := different i first j second same
    omega

end

theorem node_names_iff {db : Db} {nodes : List Text} (widths : ∀ n ∈ nodes, varchar 64 n = true) :
    (∀ n ∈ nodes, db.hasNode (cut 64 n) = true) ↔ ∀ n ∈ nodes, db.hasNode n = true := by
  constructor
  · intro known n member
    rw [← cut_of_varchar (widths n member)]
    exact known n member
  · intro known n member
    rw [cut_of_varchar (widths n member)]
    exact known n member

/-! Jobs. -/

section
variable {db : Db} {now : Time} {jobId imageId : Uuid} {rowIds : Nat → Uuid} {name : Text}
  {nodeIds : List Text} {policy : JsonObject} {createdBy : Option Uuid}

theorem create_job_outcome (ready : ∃ image ∈ db.otaImages, image.id = imageId ∧
      image.status = .ready) {jobs : Table OtaJob} {targets : Table OtaJobNode}
    (job : db.otaJobs.insert (newJob now jobId name imageId policy createdBy) = .ok jobs)
    (rows : db.otaJobNodes.insertAll (newTargets now jobId rowIds nodeIds) = .ok targets)
    (known : ∀ n ∈ nodeIds, db.hasNode (cut 64 n) = true) :
    createJob db now jobId rowIds name imageId nodeIds policy createdBy =
      done {db with otaJobs := jobs, otaJobNodes := targets} jobId := by
  obtain ⟨image,stored,key,status⟩ := ready
  have found : db.otaImages.select (fun r => r.id == imageId) = [image] := by
    apply select_sole (by simp [Schema.conflict]) stored (by simpa using key)
    intro a member same
    have equal : a.id = imageId := by simpa using same
    exact Table.eq_of_conflict member stored (by simp [Schema.conflict, equal, key])
  have all : (nodeIds.all fun nid => db.hasNode (cut 64 nid)) = true := List.all_eq_true.mpr known
  unfold newJob at job
  unfold newTargets newTarget at rows
  simp only [createJob, found, scalarOneOrNone, status, ne_eq, not_true_eq_false, ↓reduceIte,
    commitInsert, job, rows, all]

theorem create_job_cases (db : Db) (now : Time) (jobId : Uuid) (rowIds : Nat → Uuid) (name : Text)
    (imageId : Uuid) (nodeIds : List Text) (policy : JsonObject) (createdBy : Option Uuid) :
    (∃ e, createJob db now jobId rowIds name imageId nodeIds policy createdBy = raise db e) ∨
    ∃ jobs targets, (∃ image ∈ db.otaImages, image.id = imageId ∧ image.status = .ready) ∧
      (∀ n ∈ nodeIds, db.hasNode (cut 64 n) = true) ∧
      db.otaJobs.insert (newJob now jobId name imageId policy createdBy) = .ok jobs ∧
      db.otaJobNodes.insertAll (newTargets now jobId rowIds nodeIds) = .ok targets ∧
      createJob db now jobId rowIds name imageId nodeIds policy createdBy =
        done {db with otaJobs := jobs, otaJobNodes := targets} jobId := by
  unfold createJob
  dsimp only
  split
  · exact Or.inl ⟨_,rfl⟩
  · exact Or.inl ⟨_,rfl⟩
  · rename_i image found
    obtain ⟨stored,key⟩ := scalar_mem found
    split
    · exact Or.inl ⟨_,rfl⟩
    · rename_i ready
      split
      · exact Or.inl ⟨_,rfl⟩
      · rename_i added
        obtain ⟨jobs,inserted,-,eq⟩ := commitInsert_ok added
        subst eq
        split
        · exact Or.inl ⟨_,rfl⟩
        · rename_i targets rows
          split
          · rename_i known
            exact Or.inr ⟨jobs,targets,⟨image,stored,beq_iff_eq.mp key,not_not.mp ready⟩,
              List.all_eq_true.mp known,inserted,rows,rfl⟩
          · exact Or.inl ⟨_,rfl⟩

theorem targets_fitting (widths : ∀ n ∈ nodeIds, varchar 64 n = true) :
    ∀ r ∈ newTargets now jobId rowIds nodeIds, Fitting r := by
  apply all_rows
  intro i _ n member
  have pending : varchar 32 "pending" = true := by decide
  constructor
  · simp only [newTarget, Schema.fits, assignable_of_varchar (widths n member), assignableOpt,
      assignable_of_varchar pending, Bool.and_self]
  · simp only [newTarget, Schema.stored, cut_of_varchar (widths n member), cut_of_varchar pending,
      Option.map_none]

theorem targets_storable_iff (now : Time) (keys : ForeignKeys db)
    (unused : ∀ job ∈ db.otaJobs, job.id ≠ jobId)
    (drawn : Drawn db.otaJobNodes OtaJobNode.id rowIds nodeIds.length)
    (widths : ∀ n ∈ nodeIds, varchar 64 n = true) :
    (∃ targets, db.otaJobNodes.insertAll (newTargets now jobId rowIds nodeIds) = .ok targets) ↔
      nodeIds.Nodup := by
  have free : ∀ a ∈ db.otaJobNodes, ∀ r ∈ newTargets now jobId rowIds nodeIds,
      Schema.conflict a r = false := by
    intro a stored
    apply all_rows
    intro i bound n _
    obtain ⟨job,listed,key⟩ := keys.targets a stored
    have other : a.jobId ≠ jobId := by
      rw [← key]
      exact unused job listed
    simp [newTarget, Schema.conflict, drawn.unused a stored i bound, other]
  rw [fitting_storable_iff (targets_fitting widths),and_iff_right free]
  unfold newTargets
  rw [rows_apart_iff rowIds drawn.different (by simp [newTarget, Schema.conflict])]

theorem create_job_all_or_nothing (keys : ForeignKeys db)
    (unused : ∀ job ∈ db.otaJobs, job.id ≠ jobId)
    (drawn : Drawn db.otaJobNodes OtaJobNode.id rowIds nodeIds.length)
    (fits : Fitting (newJob now jobId name imageId policy createdBy))
    (widths : ∀ n ∈ nodeIds, varchar 64 n = true) :
    AllOrNothing db (createJob db now jobId rowIds name imageId nodeIds policy createdBy)
      ((∃ image ∈ db.otaImages, image.id = imageId ∧ image.status = .ready) ∧
        (∀ n ∈ nodeIds, db.hasNode n = true) ∧ nodeIds.Nodup)
      (JobAdded db (newJob now jobId name imageId policy createdBy)
        (newTargets now jobId rowIds nodeIds)) := by
  have storable := targets_storable_iff now keys unused drawn widths
  constructor
  · rintro ⟨ready,known,distinct⟩
    obtain ⟨jobs,job⟩ := Table.insert_succeeds fits.fits fun a stored => by
      simp [Schema.conflict, Schema.stored, newJob, unused a stored]
    obtain ⟨targets,rows⟩ := storable.mpr distinct
    exact ⟨_,_,create_job_outcome ready job rows ((node_names_iff widths).mpr known),rfl,
      insert_fitting fits job,fitting_rows (targets_fitting widths) rows⟩
  · intro failing
    rcases create_job_cases db now jobId rowIds name imageId nodeIds policy createdBy with
      refused | ⟨_,targets,ready,known,-,rows,-⟩
    · exact refused
    · exact absurd ⟨ready,(node_names_iff widths).mp known,storable.mp ⟨targets,rows⟩⟩ failing

end

/-! Groups. -/

section
variable {db : Db} {groupId ownerId : Uuid} {memberIds : Nat → Uuid} {name : Text}
  {parent : Option Uuid} {type : Option Text} {exclusive : Bool} {nodes : List Text}
  {metadata : Json}

theorem known_parent_iff : knownParent db ownerId parent = true ↔
    ∀ p, parent = some p → ∃ g ∈ db.nodeGroups, g.id = p ∧ g.ownerId = ownerId := by
  cases parent with
  | none => simp [knownParent]
  | some p => simp [knownParent, List.any_eq_true, Table.mem_def]

theorem create_group_outcome (named : name ≠ []) (above : knownParent db ownerId parent = true)
    (owner : db.hasUser ownerId = true) {groups : Table NodeGroup} {members : Table NodeGroupNode}
    (group : db.nodeGroups.insert ⟨groupId,ownerId,parent,name,type,exclusive,
      metadata.orElse (.obj [])⟩ = .ok groups)
    (rows : db.nodeGroupNodes.insertAll (newMembers groupId memberIds nodes) = .ok members)
    (known : ∀ n ∈ nodes, db.hasNode (cut 64 n) = true) :
    createGroup db groupId memberIds ownerId name parent type exclusive nodes metadata =
      done {db with nodeGroups := groups, nodeGroupNodes := members} groupId := by
  have filled : name.isEmpty = false := by simpa using named
  have all : (nodes.all fun nid => db.hasNode (cut 64 nid)) = true := List.all_eq_true.mpr known
  unfold newMembers at rows
  simp only [createGroup, filled, Bool.false_eq_true, if_false, above, Bool.true_eq_false,
    commitInsert, group, Schema.stored, owner, if_true, rows, all]

theorem members_fitting (widths : ∀ n ∈ nodes, varchar 64 n = true) :
    ∀ r ∈ newMembers groupId memberIds nodes, Fitting r := by
  apply all_rows
  intro i _ n member
  constructor
  · exact assignable_of_varchar (widths n member)
  · simp [Schema.stored, cut_of_varchar (widths n member)]

theorem members_storable_iff (keys : ForeignKeys db) (unused : ∀ g ∈ db.nodeGroups, g.id ≠ groupId)
    (drawn : Drawn db.nodeGroupNodes NodeGroupNode.id memberIds nodes.length)
    (widths : ∀ n ∈ nodes, varchar 64 n = true) :
    (∃ members, db.nodeGroupNodes.insertAll (newMembers groupId memberIds nodes) = .ok members) ↔
      nodes.Nodup := by
  have free : ∀ a ∈ db.nodeGroupNodes, ∀ r ∈ newMembers groupId memberIds nodes,
      Schema.conflict a r = false := by
    intro a stored
    apply all_rows
    intro i bound n _
    obtain ⟨group,listed,key⟩ := keys.members a stored
    have other : a.groupId ≠ groupId := by
      rw [← key]
      exact unused group listed
    simp [Schema.conflict, drawn.unused a stored i bound, other]
  rw [fitting_storable_iff (members_fitting widths),and_iff_right free]
  unfold newMembers
  rw [rows_apart_iff memberIds drawn.different (by simp [Schema.conflict])]

theorem create_group_all_or_nothing (keys : ForeignKeys db) (owner : db.hasUser ownerId = true)
    (unused : ∀ g ∈ db.nodeGroups, g.id ≠ groupId)
    (drawn : Drawn db.nodeGroupNodes NodeGroupNode.id memberIds nodes.length)
    (fits : Fitting (⟨groupId,ownerId,parent,name,type,exclusive,
      metadata.orElse (.obj [])⟩ : NodeGroup))
    (widths : ∀ n ∈ nodes, varchar 64 n = true) :
    AllOrNothing db
      (createGroup db groupId memberIds ownerId name parent type exclusive nodes metadata)
      (name ≠ [] ∧ (∀ p, parent = some p → ∃ g ∈ db.nodeGroups, g.id = p ∧ g.ownerId = ownerId) ∧
        (∀ n ∈ nodes, db.hasNode n = true) ∧ nodes.Nodup)
      (GroupAdded db ⟨groupId,ownerId,parent,name,type,exclusive,metadata.orElse (.obj [])⟩
        (newMembers groupId memberIds nodes)) := by
  have storable := members_storable_iff keys unused drawn widths
  constructor
  · rintro ⟨named,above,known,distinct⟩
    obtain ⟨groups,group⟩ := Table.insert_succeeds fits.fits fun a stored => by
      simp [Schema.conflict, Schema.stored, unused a stored]
    obtain ⟨members,rows⟩ := storable.mpr distinct
    exact ⟨_,_,create_group_outcome named (known_parent_iff.mpr above) owner group rows
      ((node_names_iff widths).mpr known),rfl,insert_fitting fits group,
      fitting_rows (members_fitting widths) rows⟩
  · intro failing
    rcases GroupForest.create_group_cases db groupId memberIds ownerId name parent type exclusive
      nodes metadata with refused | ⟨_,members,named,above,known,-,rows,-⟩
    · exact refused
    · exact absurd ⟨named,known_parent_iff.mp above,(node_names_iff widths).mp known,
        storable.mp ⟨members,rows⟩⟩ failing

end

/-! Sharing requests. -/

section
variable {db : Db} {now : Time} {ids : Nat → Uuid} {fromUserId : Uuid} {nodeIds : List Text}
  {toUserName : Text}

theorem check_owner_iff :
    checkOwner db fromUserId nodeIds = .ok () ↔ ∀ n ∈ nodeIds, Owns db fromUserId n := by
  constructor
  · exact check_owner_ok
  · intro owns
    induction nodeIds with
    | nil => rfl
    | cons nid rest ih =>
      obtain ⟨m,stored,user,node⟩ := owns nid (by simp)
      have found : db.userNodeMappings.select (fun r => r.userId == fromUserId && r.nodeId == nid) =
          [m] := by
        apply select_sole (by simp [Schema.conflict]) stored (by simp [user, node])
        intro a member same
        simp only [Bool.and_eq_true, beq_iff_eq] at same
        exact Table.eq_of_conflict member stored
          (by simp [Schema.conflict, same.1, same.2, user, node])
      unfold checkOwner
      simp only [found, scalarOneOrNone]
      exact ih fun n later => owns n (by simp [later])

theorem requests_fitting (named : varchar 254 toUserName = true)
    (widths : ∀ n ∈ nodeIds, varchar 64 n = true) :
    ∀ r ∈ requestRows now ids fromUserId nodeIds toUserName, Fitting r := by
  apply all_rows
  intro i _ n member
  constructor
  · simp [Schema.fits, assignable_of_varchar (widths n member), assignable_of_varchar named]
  · simp [Schema.stored, cut_of_varchar (widths n member), cut_of_varchar named]

theorem requests_storable (now : Time) (fromUserId : Uuid)
    (drawn : Drawn db.nodeSharingRequests NodeSharingRequest.id ids nodeIds.length)
    (named : varchar 254 toUserName = true)
    (widths : ∀ n ∈ nodeIds, varchar 64 n = true) :
    ∃ t, db.nodeSharingRequests.insertAll
      (requestRows now ids fromUserId nodeIds toUserName) = .ok t := by
  rw [fitting_storable_iff (requests_fitting named widths)]
  constructor
  · intro a stored
    apply all_rows
    intro i bound n _
    simp [Schema.conflict, drawn.unused a stored i bound]
  · unfold requestRows
    rw [List.pairwise_iff_getElem]
    simp only [List.length_mapIdx, List.getElem_mapIdx, Schema.conflict, beq_eq_false_iff_ne]
    intro i j first second less same
    have equal := drawn.different i first j second same
    omega

theorem create_request_all_or_nothing (keys : ForeignKeys db)
    (drawn : Drawn db.nodeSharingRequests NodeSharingRequest.id ids nodeIds.length)
    (named : varchar 254 toUserName = true) (widths : ∀ n ∈ nodeIds, varchar 64 n = true) :
    AllOrNothing db (createRequest db now ids fromUserId nodeIds toUserName)
      (nodeIds ≠ [] ∧ toUserName ≠ [] ∧ ∀ n ∈ nodeIds, Owns db fromUserId n)
      (RequestsAdded db (requestRows now ids fromUserId nodeIds toUserName)) := by
  obtain ⟨t,rows⟩ := requests_storable now fromUserId drawn named widths
  by_cases condition : nodeIds ≠ [] ∧ toUserName ≠ [] ∧ ∀ n ∈ nodeIds, Owns db fromUserId n
  · refine ⟨fun _ => ?_,fun failing => absurd condition failing⟩
    obtain ⟨some_node,some_name,owns⟩ := condition
    have present : ∀ n ∈ nodeIds, db.hasUser fromUserId = true ∧ db.hasNode n = true := by
      intro n member
      obtain ⟨m,stored,user,node⟩ := owns n member
      rw [← user,← node]
      exact keys.mappings m stored
    have user : db.hasUser fromUserId = true := by
      obtain ⟨n,member⟩ := List.exists_mem_of_ne_nil nodeIds some_node
      exact (present n member).1
    have all : (nodeIds.all fun nid => db.hasNode (cut 64 nid)) = true :=
      List.all_eq_true.mpr ((node_names_iff widths).mpr fun n member => (present n member).2)
    have filled : (nodeIds.isEmpty || toUserName.isEmpty) = false := by
      simp [some_node, some_name]
    refine ⟨{db with nodeSharingRequests := t},ids 0,?_,rfl,
      fitting_rows (requests_fitting named widths) rows⟩
    simp [createRequest, filled, check_owner_iff.mpr owns, rows, user, all]
  · refine ⟨fun holds => absurd holds condition,fun _ => ?_⟩
    unfold createRequest
    split
    · exact ⟨_,rfl⟩
    · rename_i filled
      rw [Bool.or_eq_true,not_or,List.isEmpty_iff,List.isEmpty_iff] at filled
      split
      · exact ⟨_,rfl⟩
      · rename_i owned
        exact absurd ⟨filled.1,filled.2,check_owner_ok owned⟩ condition

end

/-- The three requests, in every state that respects its foreign keys: each
    succeeds exactly under its condition, then adds its rows and nothing else,
    and otherwise changes nothing. -/
theorem batches_all_or_nothing (db : Db) (keys : ForeignKeys db) :
    (∀ now jobId rowIds name imageId nodeIds policy createdBy,
      (∀ job ∈ db.otaJobs, job.id ≠ jobId) →
      Drawn db.otaJobNodes OtaJobNode.id rowIds nodeIds.length →
      Fitting (newJob now jobId name imageId policy createdBy) →
      (∀ n ∈ nodeIds, varchar 64 n = true) →
      AllOrNothing db (createJob db now jobId rowIds name imageId nodeIds policy createdBy)
        ((∃ image ∈ db.otaImages, image.id = imageId ∧ image.status = .ready) ∧
          (∀ n ∈ nodeIds, db.hasNode n = true) ∧ nodeIds.Nodup)
        (JobAdded db (newJob now jobId name imageId policy createdBy)
          (newTargets now jobId rowIds nodeIds))) ∧
    (∀ groupId memberIds ownerId name parent type exclusive nodes metadata,
      db.hasUser ownerId = true → (∀ g ∈ db.nodeGroups, g.id ≠ groupId) →
      Drawn db.nodeGroupNodes NodeGroupNode.id memberIds nodes.length →
      Fitting (⟨groupId,ownerId,parent,name,type,exclusive,
        metadata.orElse (.obj [])⟩ : NodeGroup) →
      (∀ n ∈ nodes, varchar 64 n = true) →
      AllOrNothing db
        (createGroup db groupId memberIds ownerId name parent type exclusive nodes metadata)
        (name ≠ [] ∧
          (∀ p, parent = some p → ∃ g ∈ db.nodeGroups, g.id = p ∧ g.ownerId = ownerId) ∧
          (∀ n ∈ nodes, db.hasNode n = true) ∧ nodes.Nodup)
        (GroupAdded db ⟨groupId,ownerId,parent,name,type,exclusive,metadata.orElse (.obj [])⟩
          (newMembers groupId memberIds nodes))) ∧
    (∀ now ids fromUserId nodeIds toUserName,
      Drawn db.nodeSharingRequests NodeSharingRequest.id ids nodeIds.length →
      varchar 254 toUserName = true → (∀ n ∈ nodeIds, varchar 64 n = true) →
      AllOrNothing db (createRequest db now ids fromUserId nodeIds toUserName)
        (nodeIds ≠ [] ∧ toUserName ≠ [] ∧ ∀ n ∈ nodeIds, Owns db fromUserId n)
        (RequestsAdded db (requestRows now ids fromUserId nodeIds toUserName))) := by
  refine ⟨?_,?_,?_⟩
  · intro now jobId rowIds name imageId nodeIds policy createdBy unused drawn fits widths
    exact create_job_all_or_nothing keys unused drawn fits widths
  · intro groupId memberIds ownerId name parent type exclusive nodes metadata owner unused drawn
      fits widths
    exact create_group_all_or_nothing keys owner unused drawn fits widths
  · intro now ids fromUserId nodeIds toUserName drawn named widths
    exact create_request_all_or_nothing keys drawn named widths

def readyImage : OtaImage where
  id := 7
  name := "light"
  fwVersion := "1.1"
  model := none
  fileSize := 4096
  storageKey := "images/light.bin"
  status := .ready
  metadata := []

def household : Db where
  users := .one (Deployment.account 1 "ana@example.com")
  nodes := .of [{nodeId := "lamp"},{nodeId := "plug"}]
  userNodeMappings := .of [{id := 3, userId := 1, nodeId := "lamp"},
    {id := 4, userId := 1, nodeId := "plug"}]
  otaImages := .one readyImage

theorem household_batches :
    (∃ db' a, createJob household 0 40 (· + 50) "update" 7 ["lamp","plug"] [] (some 1) =
        done db' a ∧ JobAdded household (newJob 0 40 "update" 7 [] (some 1))
          (newTargets 0 40 (· + 50) ["lamp","plug"]) db') ∧
    (∃ e, createGroup household 60 (· + 61) 1 "kitchen" none none false ["lamp","lamp"] .null =
        raise household e) ∧
    ∃ db' a, createRequest household 0 (· + 70) 1 ["lamp","plug"] "bob@example.com" = done db' a ∧
      RequestsAdded household (requestRows 0 (· + 70) 1 ["lamp","plug"] "bob@example.com") db' := by
  have keys : ForeignKeys household := by
    refine ⟨by decide +kernel,?_,?_⟩
    · intro r stored
      cases stored
    · intro m stored
      cases stored
  obtain ⟨jobs,groups,requests⟩ := batches_all_or_nothing household keys
  have different : ∀ base : Nat, ∀ i < 2, ∀ j < 2, i + base = j + base → i = j := by
    intro base i _ j _ same
    omega
  refine ⟨?_,?_,?_⟩
  · apply (jobs 0 40 (· + 50) "update" 7 ["lamp","plug"] [] (some 1) _ _ _ _).stores
    · exact ⟨⟨readyImage,List.mem_singleton_self _,rfl,rfl⟩,by decide +kernel,by decide +kernel⟩
    · intro job stored
      cases stored
    · refine ⟨different 50,?_⟩
      intro r stored
      cases stored
    · exact ⟨by decide +kernel,rfl⟩
    · decide +kernel
  · apply (groups 60 (· + 61) 1 "kitchen" none none false ["lamp","lamp"] .null _ _ _ _ _).refuses
    · decide +kernel
    · decide +kernel
    · intro g stored
      cases stored
    · refine ⟨different 61,?_⟩
      intro m stored
      cases stored
    · exact ⟨by decide +kernel,rfl⟩
    · decide +kernel
  · apply (requests 0 (· + 70) 1 ["lamp","plug"] "bob@example.com" _ _ _).stores
    · refine ⟨by decide,by decide,?_⟩
      intro n member
      simp only [List.mem_cons, List.not_mem_nil, or_false] at member
      rcases member with here | here
      · rw [here]
        exact ⟨{id := 3, userId := 1, nodeId := "lamp"},by decide +kernel,rfl,rfl⟩
      · rw [here]
        exact ⟨{id := 4, userId := 1, nodeId := "plug"},by decide +kernel,rfl,rfl⟩
    · refine ⟨different 70,?_⟩
      intro r stored
      cases stored
    · decide +kernel
    · decide +kernel

end RainmakerServer.BatchCreation
