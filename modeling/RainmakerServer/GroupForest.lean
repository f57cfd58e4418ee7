import RainmakerServer.Lib.Forest
import RainmakerServer.Lib.Runs
import RainmakerServer.Services.Accounts

/-!
The groups of the users as a forest. A group is created below a group of its
owner or at the top, so the rows stay in order, parents first, and every tree
has one owner. The cascades of a deletion therefore end, and what they take
away is one group with everything below it, all of one owner.
-/
namespace RainmakerServer.GroupForest
open Tables Runs Forest Fleet

/-! The calls. -/

inductive GroupCall where
  | createGroup (groupId : Uuid) (memberIds : Nat → Uuid) (ownerId : Uuid) (name : Text)
      (parentGroupId : Option Uuid) (groupType : Option Text) (mutuallyExclusive : Bool)
      (nodes : List Text) (metadata : Json)
  | deleteGroup (ownerId groupId : Uuid)
  | deleteCurrentUser (userId : Uuid)

def groupStep (db : Db) : GroupCall → Db
  | .createGroup groupId memberIds ownerId name parent type exclusive nodes metadata =>
    (createGroup db groupId memberIds ownerId name parent type exclusive nodes metadata).1
  | .deleteGroup ownerId groupId => (deleteGroup db ownerId groupId).1
  | .deleteCurrentUser userId => Accounts.deleteCurrentUser db userId

def ungrouped (db : Db) : Db := {db with nodeGroups := .empty, nodeGroupNodes := .empty}

def ParentOf (db : Db) : Uuid → Uuid → Prop :=
  Child NodeGroup.id NodeGroup.parentId db.nodeGroups.rows

def Below (db : Db) (groupId x : Uuid) : Prop := Relation.ReflTransGen (ParentOf db) groupId x

structure Grouped (db : Db) : Prop where
  ordered : Ordered NodeGroup.id NodeGroup.parentId db.nodeGroups.rows
  owned : ∀ g ∈ db.nodeGroups, ∀ h ∈ db.nodeGroups, g.parentId = some h.id → h.ownerId = g.ownerId
  members : ∀ m ∈ db.nodeGroupNodes, ∃ g ∈ db.nodeGroups, g.id = m.groupId

/-! The cascade. -/

section
variable {db : Db} {roots : List Uuid}

theorem child_groups_eq (groups : List NodeGroup) :
    childGroups groups = expand NodeGroup.id NodeGroup.parentId groups := by
  funext ids
  unfold childGroups expand
  congr 2
  apply List.filter_congr
  intro g _
  cases g.parentId with
  | none => rfl
  | some p => rfl

theorem mem_descendants (grouped : Grouped db) {x : Uuid} :
    x ∈ descendants db.nodeGroups.rows roots ↔
      Reached NodeGroup.id NodeGroup.parentId db.nodeGroups.rows roots x := by
  unfold descendants
  rw [child_groups_eq]
  exact mem_iterate_iff grouped.ordered

theorem mem_cascade_groups (grouped : Grouped db) {g : NodeGroup} :
    g ∈ (cascadeGroups db roots).nodeGroups ↔ g ∈ db.nodeGroups ∧
      ¬ Reached NodeGroup.id NodeGroup.parentId db.nodeGroups.rows roots g.id := by
  simp only [cascadeGroups, Table.mem_delete, List.contains_eq_mem, decide_eq_false_iff_not,
    mem_descendants grouped]

theorem mem_cascade_members (grouped : Grouped db) {m : NodeGroupNode} :
    m ∈ (cascadeGroups db roots).nodeGroupNodes ↔ m ∈ db.nodeGroupNodes ∧
      ¬ Reached NodeGroup.id NodeGroup.parentId db.nodeGroups.rows roots m.groupId := by
  simp only [cascadeGroups, Table.mem_delete, List.contains_eq_mem, decide_eq_false_iff_not,
    mem_descendants grouped]

theorem cascade_grouped (grouped : Grouped db) : Grouped (cascadeGroups db roots) where
  ordered := by
    apply ordered_filter grouped.ordered
    intro a above b below named kept
    simp only [Bool.not_eq_true', List.contains_eq_mem, decide_eq_false_iff_not,
      mem_descendants grouped] at kept ⊢
    intro reached
    exact kept (reached_child reached ⟨b,below,rfl,named⟩)
  owned := by
    intro g stored h there named
    exact grouped.owned g ((mem_cascade_groups grouped).mp stored).1 h
      ((mem_cascade_groups grouped).mp there).1 named
  members := by
    intro m stored
    obtain ⟨old,kept⟩ := (mem_cascade_members grouped).mp stored
    obtain ⟨g,there,same⟩ := grouped.members m old
    refine ⟨g,(mem_cascade_groups grouped).mpr ⟨there,?_⟩,same⟩
    rw [same]
    exact kept

theorem below_owner (grouped : Grouped db) {g h : NodeGroup} (stored : g ∈ db.nodeGroups)
    (there : h ∈ db.nodeGroups) (below : Below db g.id h.id) : h.ownerId = g.ownerId := by
  have along : ∀ x, Below db g.id x → ∀ h ∈ db.nodeGroups, h.id = x → h.ownerId = g.ownerId := by
    intro x path
    induction path with
    | refl =>
      intro h there same
      rw [Table.eq_of_conflict there stored (by simp [Schema.conflict, same])]
    | tail _ edge ih =>
      intro h there same
      obtain ⟨r,member,key,named⟩ := edge
      have single := Table.eq_of_conflict there member (by simp [Schema.conflict, same, key])
      subst single
      obtain ⟨p,present,up⟩ := ordered_parent grouped.ordered member named
      rw [← up] at named
      rw [← grouped.owned h there p present named]
      exact ih p present up
  exact along h.id below h there rfl

end

/-! The steps. -/

theorem create_group_cases (db : Db) (groupId : Uuid) (memberIds : Nat → Uuid) (ownerId : Uuid)
    (name : Text) (parent : Option Uuid) (type : Option Text) (exclusive : Bool)
    (nodes : List Text) (metadata : Json) :
    (∃ e, createGroup db groupId memberIds ownerId name parent type exclusive nodes metadata =
      raise db e) ∨
    ∃ groups members, name ≠ [] ∧ knownParent db ownerId parent = true ∧
      (∀ n ∈ nodes, db.hasNode (cut 64 n) = true) ∧
      db.nodeGroups.insert ⟨groupId,ownerId,parent,name,type,exclusive,metadata.orElse (.obj [])⟩ = .ok groups ∧
      db.nodeGroupNodes.insertAll (nodes.mapIdx fun i nid => ⟨memberIds i,groupId,nid⟩) =
        .ok members ∧
      createGroup db groupId memberIds ownerId name parent type exclusive nodes metadata =
        done {db with nodeGroups := groups, nodeGroupNodes := members} groupId := by
  unfold createGroup
  split
  · exact Or.inl ⟨_,rfl⟩
  · rename_i filled
    split
    · exact Or.inl ⟨_,rfl⟩
    · rename_i above
      split
      · exact Or.inl ⟨_,rfl⟩
      · rename_i stored
        obtain ⟨t,inserted,-,eq⟩ := commitInsert_ok stored
        subst eq
        split
        · exact Or.inl ⟨_,rfl⟩
        · rename_i members all
          split
          · rename_i known
            exact Or.inr ⟨t,members,by simpa using filled,by simpa using above,
              List.all_eq_true.mp known,inserted,all,rfl⟩
          · exact Or.inl ⟨_,rfl⟩

theorem delete_group_cases (db : Db) (ownerId groupId : Uuid) :
    (∃ e, deleteGroup db ownerId groupId = raise db e) ∨
    ∃ g ∈ db.nodeGroups, g.id = groupId ∧ g.ownerId = ownerId ∧
      deleteGroup db ownerId groupId = done (cascadeGroups db [g.id]) () := by
  unfold deleteGroup
  split
  · exact Or.inl ⟨_,rfl⟩
  · exact Or.inl ⟨_,rfl⟩
  · rename_i g found
    obtain ⟨stored,hit⟩ := scalar_mem found
    simp only [Bool.and_eq_true, beq_iff_eq] at hit
    exact Or.inr ⟨g,stored,hit.1,hit.2,rfl⟩

section
variable {db : Db}

theorem insert_grouped {g : NodeGroup} {groups : Table NodeGroup} {rows : List NodeGroupNode}
    {members : Table NodeGroupNode} (grouped : Grouped db)
    (known : knownParent db g.ownerId g.parentId = true)
    (appended : groups.rows = db.nodeGroups.rows ++ [g])
    (fresh : ∀ a ∈ db.nodeGroups.rows, a.id ≠ g.id)
    (all : db.nodeGroupNodes.insertAll rows = .ok members) (new : ∀ m ∈ rows, m.groupId = g.id) :
    Grouped {db with nodeGroups := groups, nodeGroupNodes := members} := by
  have above : ∀ p, g.parentId = some p → ∃ a ∈ db.nodeGroups.rows, a.id = p ∧ a.ownerId = g.ownerId := by
    intro p named
    rw [named] at known
    simpa [knownParent] using known
  constructor
  · show Ordered NodeGroup.id NodeGroup.parentId groups.rows
    rw [appended]
    refine .snoc grouped.ordered fresh ?_
    intro p named
    obtain ⟨a,stored,same,-⟩ := above p named
    exact ⟨a,stored,same⟩
  · intro a stored b there named
    rcases (Table.mem_appended appended).mp stored with old | last
    · rcases (Table.mem_appended appended).mp there with earlier | newest
      · exact grouped.owned a old b earlier named
      · -- no group that is there is below the new one
        obtain ⟨c,present,same⟩ := ordered_parent grouped.ordered old named
        rw [newest] at same
        exact absurd same (fresh c present)
    · rw [last] at named ⊢
      obtain ⟨c,present,same,owner⟩ := above b.id named
      have stored' : c ∈ groups := (Table.mem_appended appended).mpr (Or.inl present)
      rw [Table.eq_of_conflict there stored' (by simp [Schema.conflict, same])]
      exact owner
  · intro m stored
    rcases (Table.mem_insertAll all).mp stored with old | added
    · obtain ⟨a,present,same⟩ := grouped.members m old
      exact ⟨a,(Table.mem_appended appended).mpr (Or.inl present),same⟩
    · obtain ⟨sent,member,same⟩ := List.mem_map.mp added
      subst same
      exact ⟨g,(Table.mem_appended appended).mpr (Or.inr rfl),(new sent member).symm⟩

theorem created_grouped {g : NodeGroup} {groups : Table NodeGroup} {nodes : List Text}
    {memberIds : Nat → Uuid} {members : Table NodeGroupNode} (grouped : Grouped db)
    (known : knownParent db g.ownerId g.parentId = true)
    (inserted : db.nodeGroups.insert g = .ok groups)
    (all : db.nodeGroupNodes.insertAll (nodes.mapIdx fun i nid => ⟨memberIds i,g.id,nid⟩) =
      .ok members) : Grouped {db with nodeGroups := groups, nodeGroupNodes := members} := by
  obtain ⟨appended,-,free⟩ := Table.insert_ok inserted
  apply insert_grouped grouped _ appended _ all
  · intro m added
    obtain ⟨i,bound,same⟩ := List.mem_mapIdx.mp added
    rw [← same]
    rfl
  · exact known
  · intro a stored same
    have same' : a.id = g.id := same
    have clash := free a stored
    simp [Schema.conflict, Schema.stored, same'] at clash

theorem step_grouped (c : GroupCall) (grouped : Grouped db) : Grouped (groupStep db c) := by
  cases c with
  | createGroup groupId memberIds ownerId name parent type exclusive nodes metadata =>
    simp only [groupStep]
    rcases create_group_cases db groupId memberIds ownerId name parent type exclusive nodes
      metadata with ⟨e,failed⟩ | ⟨groups,members,-,known,-,inserted,all,eq⟩
    · rw [failed]
      exact grouped
    · rw [eq]
      exact created_grouped grouped known inserted all
  | deleteGroup ownerId groupId =>
    simp only [groupStep]
    rcases delete_group_cases db ownerId groupId with ⟨e,failed⟩ | ⟨g,stored,-,-,eq⟩
    · rw [failed]
      exact grouped
    · rw [eq]
      exact cascade_grouped grouped
  | deleteCurrentUser userId =>
    have cascaded := @cascade_grouped db ((db.nodeGroups.select fun g => g.ownerId == userId).map
      (·.id)) grouped
    exact ⟨cascaded.ordered,cascaded.owned,cascaded.members⟩

theorem run_grouped (db : Db) (cs : List GroupCall) :
    Grouped (run groupStep (ungrouped db) cs) := by
  apply run_preserves groupStep (fun _ c => step_grouped c)
  constructor
  · exact .nil
  · intro g stored
    cases stored
  · intro m stored
    cases stored

end

/-- What `delete_group` takes away when it finds the group. -/
structure Removed (db db' : Db) (ownerId groupId : Uuid) : Prop where
  found : ∃ g ∈ db.nodeGroups, g.id = groupId
  frame : db' = {db with nodeGroups := db'.nodeGroups, nodeGroupNodes := db'.nodeGroupNodes}
  groups : ∀ g, g ∈ db'.nodeGroups ↔ g ∈ db.nodeGroups ∧ ¬ Below db groupId g.id
  members : ∀ m, m ∈ db'.nodeGroupNodes ↔ m ∈ db.nodeGroupNodes ∧ ¬ Below db groupId m.groupId
  owner : ∀ g ∈ db.nodeGroups, Below db groupId g.id → g.ownerId = ownerId

/-- In every state that is reached the groups are a forest of one owner a tree,
    and a deletion removes one group with what is below it, or nothing. -/
theorem groups_form_forest (start : Db) (cs : List GroupCall) :
    let db := run groupStep (ungrouped start) cs
    (∀ x, ¬ Relation.TransGen (ParentOf db) x x) ∧
    (∀ g ∈ db.nodeGroups, ∀ p, g.parentId = some p →
      ∃ h ∈ db.nodeGroups, h.id = p ∧ h.ownerId = g.ownerId) ∧
    (∀ m ∈ db.nodeGroupNodes, ∃ g ∈ db.nodeGroups, g.id = m.groupId) ∧
    (db.nodeGroupNodes.rows.map fun m => (m.groupId,m.nodeId)).Nodup ∧
    ∀ ownerId groupId, (∃ e, deleteGroup db ownerId groupId = raise db e) ∨
      (deleteGroup db ownerId groupId).2 = .ok () ∧
        Removed db (deleteGroup db ownerId groupId).1 ownerId groupId := by
  intro db
  have grouped : Grouped db := run_grouped start cs
  have pairs : (db.nodeGroupNodes.rows.map fun m => (m.groupId,m.nodeId)).Nodup := by
    apply Table.nodup_map
    intro a b same
    simp only [Prod.mk.injEq] at same
    simp [Schema.conflict, same.1, same.2]
  refine ⟨ordered_acyclic grouped.ordered,?_,grouped.members,pairs,?_⟩
  · intro g stored p named
    obtain ⟨h,there,same⟩ := ordered_parent grouped.ordered stored named
    rw [← same] at named
    exact ⟨h,there,same,grouped.owned g stored h there named⟩
  · intro ownerId groupId
    rcases delete_group_cases db ownerId groupId with failed | ⟨g,stored,key,owner,eq⟩
    · exact Or.inl failed
    · right
      subst key
      subst owner
      rw [eq]
      have single : ∀ x, Reached NodeGroup.id NodeGroup.parentId db.nodeGroups.rows [g.id] x ↔
          Below db g.id x := by
        intro x
        simp [Reached, Below, ParentOf]
      refine ⟨rfl,⟨g,stored,rfl⟩,rfl,?_,?_,?_⟩
      · intro h
        rw [← single]
        exact mem_cascade_groups grouped
      · intro m
        rw [← single]
        exact mem_cascade_members grouped
      · intro h there below
        exact below_owner grouped stored there below

end RainmakerServer.GroupForest
