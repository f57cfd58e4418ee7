import RainmakerServer.Deployment
import RainmakerServer.GroupForest
import RainmakerServer.Lib.Unwinding
import RainmakerServer.Mqtt.Router

/-!
What every user keeps on the server for themselves: automations, groups and the
custom data of the account. The routes take an access token and a body, and
every query they send is narrowed to the caller. What other users do, with
whatever keys they name, is therefore not seen in any answer.
-/
namespace RainmakerServer.UserStores
open Tables Runs Accounts GroupForest

/-! The routes. -/

inductive StoreReply where
  | automation (automationId : Text)
  | automations (items : List Fleet.AutomationItem)
  | group (groupId : Text)
  | groups (items : List Fleet.GroupItem)
  | customData (data : JsonObject)
  | success (description : Text)

def answered {α : Type} (reply : Reply α) (f : α → StoreReply) : Reply StoreReply :=
  (reply.1,reply.2.map f)

def uuidOf (pf : Platform) : Json → Except Exc Uuid
  | .str s => match pf.parseUuid s with
    | some id => .ok id
    | none => .error .valueError
  | .null => .error .typeError
  | _ => .error .attributeError

def createAutomation (pf : Platform) (db : Db) (user : User) (id : Uuid) (payload : JsonObject) :
    Reply StoreReply :=
  let name := Mqtt.field "name" .null payload
  if name.truthy = false then raise db (invalidRequest "name required")
  else answered (Fleet.createAutomation db id user.id name (Mqtt.field "events" .null payload)
    (Mqtt.field "actions" .null payload) (Mqtt.field "event_operator" (.str "and") payload)
    (Mqtt.field "metadata" .null payload)) fun id => .automation (pf.uuidStr id)

def listAutomations (pf : Platform) (db : Db) (user : User) : Reply StoreReply :=
  done db (.automations ((Fleet.listAutomations db user.id).map (Fleet.serialise pf)))

def automationIdOf (pf : Platform) (payload : JsonObject) : Except Exc Uuid :=
  match Dict.get? "automation_id".toList payload with
  | none => .error (invalidRequest "automation_id required")
  | some v => match uuidOf pf v with
    | .ok id => .ok id
    | .error .attributeError => .error .attributeError
    | .error _ => .error (invalidRequest "automation_id required")

def updateAutomation (pf : Platform) (db : Db) (user : User) (payload : JsonObject) :
    Reply StoreReply :=
  match automationIdOf pf payload with
  | .error e => raise db e
  | .ok id => answered (Fleet.updateAutomation db user.id id payload)
      fun _ => .success "Automation updated"

def deleteAutomation (pf : Platform) (db : Db) (user : User) (automationId : Text) :
    Reply StoreReply :=
  match pf.parseUuid automationId with
  | none => raise db (invalidRequest "invalid automation_id")
  | some id => answered (Fleet.deleteAutomation db user.id id)
      fun _ => .success "Automation deleted"

def parentOf (pf : Platform) (parent : Json) : Except Exc (Option Uuid) :=
  if parent.truthy = false then .ok none
  else match uuidOf pf parent with
  | .ok id => .ok (some id)
  | .error .attributeError => .error .attributeError
  | .error _ => .error (invalidRequest "invalid parent_group_id")

def memberTexts : List Json → Except Exc (List Text)
  | [] => .ok []
  | v :: rest => match Fleet.columnText v, memberTexts rest with
    | .ok (some s), .ok texts => .ok (s :: texts)
    | .ok none, .ok _ => .error (.database .integrityError)
    | .error e, _ => .error e
    | _, .error e => .error e

def membersOf (nodes : Json) : Except Exc (List Text) := (Mqtt.iterate nodes).bind memberTexts

def createGroup (pf : Platform) (db : Db) (user : User) (groupId : Uuid) (memberIds : Nat → Uuid)
    (payload : JsonObject) : Reply StoreReply :=
  let name := Mqtt.field "group_name" .null payload
  if name.truthy = false then raise db (invalidRequest "group_name required")
  else match parentOf pf (Mqtt.field "parent_group_id" .null payload) with
  | .error e => raise db e
  | .ok parent =>
    if Fleet.knownParent db user.id parent = false then
      raise db (invalidRequest "Unknown parent group")
    else match Fleet.columnText name, Fleet.columnText (Mqtt.field "type" .null payload) with
    | .ok (some name), .ok type =>
      let create := fun nodes => Fleet.createGroup db groupId memberIds user.id name parent type
        (Mqtt.field "mutually_exclusive" (.bool false) payload).truthy nodes
        (Mqtt.field "metadata" .null payload)
      match (create []).2, membersOf (Mqtt.field "nodes" .null payload) with
      | .error e, _ => raise db e
      | .ok _, .error e => raise db e
      | .ok _, .ok nodes => answered (create nodes) fun id => .group (pf.uuidStr id)
    | _, _ => raise db (.database .dataError)

def listUserNodeGroups (pf : Platform) (db : Db) (user : User) (groupId : Option Text) :
    Reply StoreReply :=
  match Tsdata.given groupId with
  | none => done db (.groups (Fleet.listGroups pf db user.id none))
  | some text => match pf.parseUuid text with
    | none => raise db .valueError
    | some id => done db (.groups (Fleet.listGroups pf db user.id (some id)))

def deleteUserNodeGroup (pf : Platform) (db : Db) (user : User) (groupId : Text) :
    Reply StoreReply :=
  match pf.parseUuid groupId with
  | none => raise db (invalidRequest "invalid group_id")
  | some id => answered (Fleet.deleteGroup db user.id id) fun _ => .success "Group deleted"

/-- The key of a new row and those of its members are drawn by the call. -/
inductive StoreCall where
  | createAutomation (id : Uuid) (payload : JsonObject)
  | listAutomations
  | updateAutomation (payload : JsonObject)
  | deleteAutomation (automationId : Text)
  | createGroup (groupId : Uuid) (memberIds : Nat → Uuid) (payload : JsonObject)
  | listUserNodeGroups (groupId : Option Text)
  | deleteUserNodeGroup (groupId : Text)
  | getCustomData
  | putCustomData (payload : JsonObject)

def serveStore (pf : Platform) (db : Db) (user : User) : StoreCall → Reply StoreReply
  | .createAutomation id payload => createAutomation pf db user id payload
  | .listAutomations => listAutomations pf db user
  | .updateAutomation payload => updateAutomation pf db user payload
  | .deleteAutomation automationId => deleteAutomation pf db user automationId
  | .createGroup groupId memberIds payload => createGroup pf db user groupId memberIds payload
  | .listUserNodeGroups groupId => listUserNodeGroups pf db user groupId
  | .deleteUserNodeGroup groupId => deleteUserNodeGroup pf db user groupId
  | .getCustomData => done db (.customData user.customData)
  | .putCustomData payload =>
    answered (putCustomData db user payload) fun _ => .success "Custom data stored"

/-- `ORJSONResponse` on the result of a route. Documents of the user can be more
    than it renders. -/
def render : StoreReply → Except Exc StoreReply
  | .automations items =>
    if Json.renderedObject [("automations",.arr (items.map fun item =>
      .obj [("events",item.events),("actions",item.actions),("metadata",item.metadata)]))]
    then .ok (.automations items) else .error .typeError
  | .customData data =>
    if Json.renderedObject data then .ok (.customData data) else .error .typeError
  | reply => .ok reply

def request (pf : Platform) (db : Db) (c : Uuid × StoreCall) : Reply StoreReply :=
  match currentUser db c.1 with
  | .error e => raise db e
  | .ok user => ((serveStore pf db user c.2).1,(serveStore pf db user c.2).2.bind render)

def storeStep (pf : Platform) (db : Db) (c : Uuid × StoreCall) : Db := (request pf db c).1

/-! What a user sees. -/

def held (db : Db) (u g : Uuid) : Bool := Fleet.knownParent db u (some g)

structure Agree (u : Uuid) (db db' : Db) : Prop where
  nodes : ∀ n, db.hasNode n = db'.hasNode n
  account : db.users.rows.filter (·.id == u) = db'.users.rows.filter (·.id == u)
  automations : db.automations.rows.filter (·.userId == u) =
    db'.automations.rows.filter (·.userId == u)
  groups : db.nodeGroups.rows.filter (·.ownerId == u) = db'.nodeGroups.rows.filter (·.ownerId == u)
  members : (db.nodeGroupNodes.rows.filter fun m => held db u m.groupId) =
    db'.nodeGroupNodes.rows.filter fun m => held db' u m.groupId

structure Twins {α : Type} (u : Uuid) (left right : Reply α) : Prop where
  answer : left.2 = right.2
  agree : Agree u left.1 right.1

section
variable {u : Uuid} {db db' db'' : Db}

theorem agree_refl : Agree u db db := ⟨fun _ => rfl,rfl,rfl,rfl,rfl⟩

theorem agree_symm (agree : Agree u db db') : Agree u db' db :=
  ⟨fun n => (agree.nodes n).symm,agree.account.symm,agree.automations.symm,agree.groups.symm,
    agree.members.symm⟩

theorem agree_trans (first : Agree u db db') (second : Agree u db' db'') : Agree u db db'' :=
  ⟨fun n => (first.nodes n).trans (second.nodes n),first.account.trans second.account,
    first.automations.trans second.automations,first.groups.trans second.groups,
    first.members.trans second.members⟩

theorem twins_raise {α : Type} {e : Exc} (agree : Agree u db db') :
    Twins u (raise (α := α) db e) (raise db' e) := ⟨rfl,agree⟩

theorem twins_done {α : Type} {a b : α} (agree : Agree u db db') (same : a = b) :
    Twins u (done db a) (done db' b) := ⟨congrArg Except.ok same,agree⟩

theorem twins_answered {α : Type} {left right : Reply α} {f : α → StoreReply}
    (twins : Twins u left right) : Twins u (answered left f) (answered right f) :=
  ⟨by rw [answered,answered,twins.answer],twins.agree⟩

theorem twins_rendered {left right : Reply StoreReply} (twins : Twins u left right) :
    Twins u (left.1,left.2.bind render) (right.1,right.2.bind render) :=
  ⟨by rw [twins.answer],twins.agree⟩

theorem own_automations_same {p : Automation → Bool} (agree : Agree u db db')
    (own : ∀ r, p r = true → r.userId = u) : db.automations.select p = db'.automations.select p :=
  filter_narrow agree.automations fun r hit => by simp [own r hit]

theorem own_groups_same {p : NodeGroup → Bool} (agree : Agree u db db')
    (own : ∀ g, p g = true → g.ownerId = u) : db.nodeGroups.select p = db'.nodeGroups.select p :=
  filter_narrow agree.groups fun g hit => by simp [own g hit]

theorem held_iff {g : Uuid} : held db u g = true ↔
    ∃ x ∈ db.nodeGroups.rows.filter (·.ownerId == u), x.id = g := by
  simp only [held, Fleet.knownParent, List.any_eq_true, List.mem_filter, Bool.and_eq_true,
    beq_iff_eq]
  constructor
  · rintro ⟨x,stored,key,owner⟩
    exact ⟨x,⟨stored,owner⟩,key⟩
  · rintro ⟨x,⟨stored,owner⟩,key⟩
    exact ⟨x,stored,key,owner⟩

theorem held_congr (groups : db.nodeGroups.rows.filter (·.ownerId == u) =
    db'.nodeGroups.rows.filter (·.ownerId == u)) (g : Uuid) : held db u g = held db' u g := by
  rw [Bool.eq_iff_iff,held_iff,held_iff,groups]

theorem known_parent_same {parent : Option Uuid} (agree : Agree u db db') :
    Fleet.knownParent db u parent = Fleet.knownParent db' u parent := by
  cases parent with
  | none => rfl
  | some g => exact held_congr agree.groups g

theorem has_user_same (agree : Agree u db db') : db.hasUser u = db'.hasUser u := by
  have through : ∀ rows : List User, rows.any (·.id == u) = !(rows.filter (·.id == u)).isEmpty := by
    intro rows
    induction rows with
    | nil => rfl
    | cons r rows ih =>
      by_cases hit : (r.id == u) = true
      · simp [hit]
      · simp [hit, ih]
  simp only [Db.hasUser, through, agree.account]

theorem current_user_same (agree : Agree u db db') : currentUser db u = currentUser db' u := by
  have found : userById db u = userById db' u :=
    find_narrow (q := fun r => r.id == u) agree.account fun _ hit => hit
  simp only [currentUser, found]

theorem agree_automations {t t' : Table Automation} (agree : Agree u db db')
    (same : t.rows.filter (·.userId == u) = t'.rows.filter (·.userId == u)) :
    Agree u {db with automations := t} {db' with automations := t'} :=
  ⟨agree.nodes,agree.account,same,agree.groups,agree.members⟩

theorem agree_users {t t' : Table User} (agree : Agree u db db')
    (same : t.rows.filter (·.id == u) = t'.rows.filter (·.id == u)) :
    Agree u {db with users := t} {db' with users := t'} :=
  ⟨agree.nodes,same,agree.automations,agree.groups,agree.members⟩

end

/-! The user's own calls. -/

section
variable {u : Uuid} {db db' : Db}

theorem create_automation_twins {id : Uuid} {name events actions operator metadata : Json}
    (agree : Agree u db db') (left : ∀ r ∈ db.automations, r.id ≠ id)
    (right : ∀ r ∈ db'.automations, r.id ≠ id) :
    Twins u (Fleet.createAutomation db id u name events actions operator metadata)
      (Fleet.createAutomation db' id u name events actions operator metadata) := by
  unfold Fleet.createAutomation
  split
  · rename_i name' operator' _ _
    generalize row : (⟨id,u,name'.getD [],true,operator'.getD "and",events.orElse (.arr []),
      actions.orElse (.arr []),metadata.orElse (.obj [])⟩ : Automation) = r
    have key : r.id = id := by rw [← row]
    have owner : (Schema.stored r).userId = u := by rw [← row]; rfl
    rcases Table.insert_same (t := db.automations) (s := db'.automations) (r := r)
      (fun a stored => by simp [Schema.conflict, Schema.stored, key, left a stored])
      (fun a stored => by simp [Schema.conflict, Schema.stored, key, right a stored]) with
      ⟨t,t',first,second⟩ | ⟨e,first,second⟩
    · simp only [commitInsert, first, second, owner]
      rw [has_user_same agree]
      by_cases present : (db'.hasUser u && name'.isSome) = true
      · simp only [if_pos present]
        apply twins_done _ rfl
        apply agree_automations agree
        rw [(Table.insert_ok first).1,(Table.insert_ok second).1,List.filter_append,
          List.filter_append,agree.automations]
      · simp only [if_neg present]
        exact twins_raise agree
    · simp only [commitInsert, first, second]
      exact twins_raise agree
  · exact twins_raise agree

theorem keyed_automations_same {id : Uuid} (agree : Agree u db db') :
    (db.automations.select fun r => r.id == id && r.userId == u) =
      db'.automations.select fun r => r.id == id && r.userId == u := by
  apply own_automations_same agree
  intro r hit
  rw [Bool.and_eq_true,beq_iff_eq,beq_iff_eq] at hit
  exact hit.2

theorem update_automation_twins {id : Uuid} {patch : JsonObject} (agree : Agree u db db') :
    Twins u (Fleet.updateAutomation db u id patch) (Fleet.updateAutomation db' u id patch) := by
  unfold Fleet.updateAutomation
  rw [keyed_automations_same agree]
  split
  · exact twins_raise agree
  · exact twins_raise agree
  · split
    · exact twins_raise agree
    · apply twins_done _ rfl
      apply agree_automations agree
      exact Table.update_filter_same agree.automations fun _ _ => rfl

theorem delete_automation_twins {id : Uuid} (agree : Agree u db db') :
    Twins u (Fleet.deleteAutomation db u id) (Fleet.deleteAutomation db' u id) := by
  unfold Fleet.deleteAutomation
  rw [keyed_automations_same agree]
  split
  · exact twins_raise agree
  · exact twins_raise agree
  · apply twins_done _ rfl
    apply agree_automations agree
    rw [Table.delete_filter,Table.delete_filter,agree.automations]

theorem put_custom_data_twins {user : User} {payload : JsonObject} (agree : Agree u db db') :
    Twins u (putCustomData db user payload) (putCustomData db' user payload) := by
  unfold putCustomData
  split
  · exact twins_done agree rfl
  · split
    · exact twins_raise agree
    · apply twins_done _ rfl
      apply agree_users agree
      exact Table.update_filter_same agree.account fun _ _ => rfl

/-! Groups. -/

structure FreshGroup (db : Db) (groupId : Uuid) (memberIds : Nat → Uuid) : Prop where
  group : ∀ g ∈ db.nodeGroups, g.id ≠ groupId
  members : ∀ m ∈ db.nodeGroupNodes, ∀ i, m.id ≠ memberIds i

theorem fresh_group_apart {groupId : Uuid} {memberIds : Nat → Uuid} (grouped : Grouped db)
    (fresh : FreshGroup db groupId memberIds) : ∀ m ∈ db.nodeGroupNodes, m.groupId ≠ groupId := by
  intro m stored
  obtain ⟨g,there,same⟩ := grouped.members m stored
  rw [← same]
  exact fresh.group g there

theorem fresh_members_apart {groupId : Uuid} {memberIds : Nat → Uuid} (nodes : List Text)
    (grouped : Grouped db) (fresh : FreshGroup db groupId memberIds) :
    ∀ m ∈ db.nodeGroupNodes, ∀ r ∈ (nodes.mapIdx fun i nid => ⟨memberIds i,groupId,nid⟩),
      Schema.conflict m (Schema.stored r) = false := by
  intro m stored r new
  obtain ⟨i,bound,eq⟩ := List.mem_mapIdx.mp new
  subst eq
  simp [Schema.conflict, Schema.stored, fresh.members m stored i, fresh_group_apart grouped fresh m stored]

theorem held_with_group {g : NodeGroup} {groups : Table NodeGroup} {members : Table NodeGroupNode}
    (owner : g.ownerId = u) (inserted : db.nodeGroups.insert g = .ok groups) (x : Uuid) :
    held {db with nodeGroups := groups, nodeGroupNodes := members} u x =
      (held db u x || x == g.id) := by
  rw [Bool.eq_iff_iff,held_iff,Bool.or_eq_true,held_iff,beq_iff_eq]
  show (∃ y ∈ groups.rows.filter (·.ownerId == u), y.id = x) ↔ _
  rw [(Table.insert_ok inserted).1,List.filter_append,
    List.filter_cons_of_pos (by simp [Schema.stored, owner]),List.filter_nil]
  constructor
  · rintro ⟨y,member,key⟩
    rcases List.mem_append.mp member with old | last
    · exact Or.inl ⟨y,old,key⟩
    · rw [List.mem_singleton.mp last] at key
      exact Or.inr key.symm
  · rintro (⟨y,old,key⟩ | key)
    · exact ⟨y,List.mem_append_left _ old,key⟩
    · exact ⟨Schema.stored g,List.mem_append_right _ (by simp),key.symm⟩

theorem members_with_group {g : NodeGroup} {rows : List NodeGroupNode} {groups : Table NodeGroup}
    {members : Table NodeGroupNode} (owner : g.ownerId = u)
    (fresh : ∀ m ∈ db.nodeGroupNodes, m.groupId ≠ g.id) (new : ∀ m ∈ rows, m.groupId = g.id)
    (inserted : db.nodeGroups.insert g = .ok groups)
    (all : db.nodeGroupNodes.insertAll rows = .ok members) :
    (members.rows.filter fun m =>
        held {db with nodeGroups := groups, nodeGroupNodes := members} u m.groupId) =
      (db.nodeGroupNodes.rows.filter fun m => held db u m.groupId) ++ rows.map Schema.stored := by
  rw [Table.insertAll_rows all,List.filter_append]
  congr 1
  · apply List.filter_congr
    intro m old
    rw [held_with_group owner inserted]
    simp [fresh m old]
  · rw [List.filter_eq_self]
    intro m added
    obtain ⟨given,listed,eq⟩ := List.mem_map.mp added
    have group : m.groupId = g.id := by
      rw [← eq]
      exact new given listed
    rw [held_with_group owner inserted,group]
    simp

theorem agree_new_group {g : NodeGroup} {rows : List NodeGroupNode} {groups groups' : Table NodeGroup}
    {members members' : Table NodeGroupNode} (agree : Agree u db db') (owner : g.ownerId = u)
    (fresh : ∀ m ∈ db.nodeGroupNodes, m.groupId ≠ g.id)
    (fresh' : ∀ m ∈ db'.nodeGroupNodes, m.groupId ≠ g.id)
    (new : ∀ m ∈ rows, m.groupId = g.id) (first : db.nodeGroups.insert g = .ok groups)
    (second : db'.nodeGroups.insert g = .ok groups')
    (all : db.nodeGroupNodes.insertAll rows = .ok members)
    (all' : db'.nodeGroupNodes.insertAll rows = .ok members') :
    Agree u {db with nodeGroups := groups, nodeGroupNodes := members}
      {db' with nodeGroups := groups', nodeGroupNodes := members'} := by
  refine ⟨agree.nodes,agree.account,agree.automations,?_,?_⟩
  · show groups.rows.filter (·.ownerId == u) = groups'.rows.filter (·.ownerId == u)
    rw [(Table.insert_ok first).1,(Table.insert_ok second).1,List.filter_append,
      List.filter_append,agree.groups]
  · rw [members_with_group owner fresh new first all,
      members_with_group owner fresh' new second all',agree.members]

theorem all_nodes_same (nodes : List Text) (agree : Agree u db db') :
    (nodes.all fun nid => db.hasNode (cut 64 nid)) =
      nodes.all fun nid => db'.hasNode (cut 64 nid) := by
  have pointwise : db.hasNode = db'.hasNode := funext agree.nodes
  rw [pointwise]

theorem create_group_twins {groupId : Uuid} {memberIds : Nat → Uuid} {name : Text}
    {parent : Option Uuid} {type : Option Text} {exclusive : Bool} (nodes : List Text)
    {metadata : Json} (agree : Agree u db db') (grouped : Grouped db) (grouped' : Grouped db')
    (fresh : FreshGroup db groupId memberIds) (fresh' : FreshGroup db' groupId memberIds) :
    Twins u (Fleet.createGroup db groupId memberIds u name parent type exclusive nodes metadata)
      (Fleet.createGroup db' groupId memberIds u name parent type exclusive nodes metadata) := by
  unfold Fleet.createGroup
  by_cases empty : name.isEmpty = true
  · simp only [if_pos empty]
    exact twins_raise agree
  simp only [if_neg empty]
  rw [known_parent_same agree]
  by_cases unknown : Fleet.knownParent db' u parent = false
  · simp only [if_pos unknown]
    exact twins_raise agree
  simp only [if_neg unknown]
  generalize row : (⟨groupId,u,parent,name,type,exclusive,metadata.orElse (.obj [])⟩ :
    NodeGroup) = g
  have key : g.id = groupId := by rw [← row]
  have owner : g.ownerId = u := by rw [← row]
  have same : (Schema.stored g).ownerId = u := owner
  rcases Table.insert_same (t := db.nodeGroups) (s := db'.nodeGroups) (r := g)
    (fun a stored => by simp [Schema.conflict, Schema.stored, key, fresh.group a stored])
    (fun a stored => by simp [Schema.conflict, Schema.stored, key, fresh'.group a stored]) with
    ⟨groups,groups',first,second⟩ | ⟨e,first,second⟩
  · simp only [commitInsert, first, second, same]
    rw [has_user_same agree]
    by_cases present : db'.hasUser u = true
    · simp only [if_pos present]
      rcases Table.insertAll_same (fresh_members_apart nodes grouped fresh)
        (fresh_members_apart nodes grouped' fresh') with ⟨ms,ms',all,all'⟩ | ⟨e,failed,failed'⟩
      · simp only [all, all']
        rw [all_nodes_same nodes agree]
        by_cases known : (nodes.all fun nid => db'.hasNode (cut 64 nid)) = true
        · simp only [if_pos known]
          apply twins_done _ rfl
          subst key
          apply agree_new_group agree owner (fresh_group_apart grouped fresh)
            (fresh_group_apart grouped' fresh') _ first second all all'
          intro m added
          obtain ⟨i,bound,eq⟩ := List.mem_mapIdx.mp added
          rw [← eq]
        · simp only [if_neg known]
          exact twins_raise agree
      · simp only [failed, failed']
        exact twins_raise agree
    · simp only [if_neg present]
      exact twins_raise agree
  · simp only [commitInsert, first, second]
    exact twins_raise agree

/-! Deletions. -/

theorem held_cascade {roots : List Uuid} (x : Uuid) : held (Fleet.cascadeGroups db roots) u x =
    (held db u x && !(Fleet.descendants db.nodeGroups.rows roots).contains x) := by
  rw [Bool.eq_iff_iff,Bool.and_eq_true,held_iff,held_iff]
  show (∃ y ∈ (db.nodeGroups.delete _).rows.filter _, y.id = x) ↔ _
  rw [Table.delete_filter]
  simp only [List.mem_filter, Bool.not_eq_true']
  constructor
  · rintro ⟨y,⟨own,kept⟩,key⟩
    rw [key] at kept
    exact ⟨⟨y,own,key⟩,kept⟩
  · rintro ⟨⟨y,own,key⟩,kept⟩
    refine ⟨y,⟨own,?_⟩,key⟩
    rw [key]
    exact kept

theorem cascade_members {roots : List Uuid} :
    ((Fleet.cascadeGroups db roots).nodeGroupNodes.rows.filter fun m =>
      held (Fleet.cascadeGroups db roots) u m.groupId) =
    (db.nodeGroupNodes.rows.filter fun m => held db u m.groupId).filter fun m =>
      !(Fleet.descendants db.nodeGroups.rows roots).contains m.groupId := by
  simp only [held_cascade]
  show ((db.nodeGroupNodes.delete _).rows.filter _) = _
  rw [Table.delete_filter,List.filter_filter,List.filter_filter]
  apply List.filter_congr
  intro m _
  cases held db u m.groupId <;> simp

theorem agree_cascade {roots roots' : List Uuid} (agree : Agree u db db')
    (same : ∀ x, held db u x = true → (Fleet.descendants db.nodeGroups.rows roots).contains x =
      (Fleet.descendants db'.nodeGroups.rows roots').contains x) :
    Agree u (Fleet.cascadeGroups db roots) (Fleet.cascadeGroups db' roots') := by
  refine ⟨agree.nodes,agree.account,agree.automations,?_,?_⟩
  · show (db.nodeGroups.delete _).rows.filter _ = (db'.nodeGroups.delete _).rows.filter _
    rw [Table.delete_filter,Table.delete_filter,← agree.groups]
    apply List.filter_congr
    intro g own
    rw [same g.id (held_iff.mpr ⟨g,own,rfl⟩)]
  · rw [cascade_members,cascade_members,← agree.members]
    apply List.filter_congr
    intro m own
    rw [same m.groupId (List.mem_filter.mp own).2]

theorem unseen_cascade {roots : List Uuid} (none : ∀ x, held db u x = true →
      (Fleet.descendants db.nodeGroups.rows roots).contains x = false) :
    Agree u db (Fleet.cascadeGroups db roots) := by
  refine ⟨fun _ => rfl,rfl,rfl,?_,?_⟩
  · show _ = (db.nodeGroups.delete _).rows.filter _
    rw [Table.delete_filter,eq_comm,List.filter_eq_self]
    intro g own
    rw [none g.id (held_iff.mpr ⟨g,own,rfl⟩)]
    rfl
  · rw [cascade_members,eq_comm,List.filter_eq_self]
    intro m own
    rw [none m.groupId (List.mem_filter.mp own).2]
    rfl

theorem own_descendants {g x : Uuid} (grouped : Grouped db) (own : held db u g = true) :
    x ∈ Fleet.descendants db.nodeGroups.rows [g] ↔ Forest.Reached NodeGroup.id NodeGroup.parentId
      (db.nodeGroups.rows.filter (·.ownerId == u)) [g] x := by
  rw [mem_descendants grouped]
  apply Forest.reached_filter (fun x => held db u x = true)
  · intro root member
    rw [List.mem_singleton.mp member]
    exact own
  · intro r stored p named above
    obtain ⟨a,mine,key⟩ := held_iff.mp above
    obtain ⟨there,owner⟩ := List.mem_filter.mp mine
    rw [beq_iff_eq] at owner
    rw [← key] at named
    have same := grouped.owned r stored a there named
    have kept : (r.ownerId == u) = true := by rw [beq_iff_eq,← same,owner]
    exact ⟨kept,held_iff.mpr ⟨r,List.mem_filter.mpr ⟨stored,kept⟩,rfl⟩⟩

theorem delete_group_twins {groupId : Uuid} (agree : Agree u db db') (grouped : Grouped db)
    (grouped' : Grouped db') :
    Twins u (Fleet.deleteGroup db u groupId) (Fleet.deleteGroup db' u groupId) := by
  have found : (db.nodeGroups.select fun g => g.id == groupId && g.ownerId == u) =
      db'.nodeGroups.select fun g => g.id == groupId && g.ownerId == u := by
    apply own_groups_same agree
    intro g hit
    rw [Bool.and_eq_true,beq_iff_eq,beq_iff_eq] at hit
    exact hit.2
  unfold Fleet.deleteGroup
  rw [found]
  split
  · exact twins_raise agree
  · exact twins_raise agree
  · rename_i g scalar
    obtain ⟨stored,hit⟩ := scalar_mem scalar
    simp only [Bool.and_eq_true, beq_iff_eq] at hit
    have own : held db' u g.id = true :=
      held_iff.mpr ⟨g,List.mem_filter.mpr ⟨stored,by simp [hit.2]⟩,rfl⟩
    have before : held db u g.id = true := by rw [held_congr agree.groups,own]
    apply twins_done _ rfl
    apply agree_cascade agree
    intro x _
    rw [Bool.eq_iff_iff,List.contains_iff_mem,List.contains_iff_mem,own_descendants grouped before,
      own_descendants grouped' own,agree.groups]

end

/-! The calls of others. -/

section
variable {u v : Uuid} {db : Db}

theorem unseen_automations {t : Table Automation}
    (same : db.automations.rows.filter (·.userId == u) = t.rows.filter (·.userId == u)) :
    Agree u db {db with automations := t} := ⟨fun _ => rfl,rfl,same,rfl,rfl⟩

theorem create_automation_unseen {id : Uuid} {name events actions operator metadata : Json}
    (other : v ≠ u) :
    Agree u db (Fleet.createAutomation db id v name events actions operator metadata).1 := by
  unfold Fleet.createAutomation
  split
  · split
    · exact agree_refl
    · rename_i stored
      obtain ⟨t,inserted,-,eq⟩ := commitInsert_ok stored
      subst eq
      exact unseen_automations (Table.insert_filter inserted (by simp [Schema.stored, other])).symm
  · exact agree_refl

theorem keyed_row_apart {row : Automation} (stored : row ∈ db.automations) (owner : row.userId = v)
    (other : v ≠ u) : ∀ r ∈ db.automations, (r.id == row.id) = true → (r.userId == u) = false := by
  intro r member same
  have eq : r = row := Table.eq_of_conflict member stored same
  rw [eq,owner]
  simpa using other

theorem update_automation_unseen {id : Uuid} {patch : JsonObject} (other : v ≠ u) :
    Agree u db (Fleet.updateAutomation db v id patch).1 := by
  unfold Fleet.updateAutomation
  split
  · exact agree_refl
  · exact agree_refl
  · rename_i row found
    obtain ⟨stored,hit⟩ := scalar_mem found
    simp only [Bool.and_eq_true, beq_iff_eq] at hit
    split
    · exact agree_refl
    · apply unseen_automations
      rw [Table.update_filter]
      intro r member same
      have apart := keyed_row_apart stored hit.2 other r member same
      exact ⟨apart,apart⟩

theorem delete_automation_unseen {id : Uuid} (other : v ≠ u) :
    Agree u db (Fleet.deleteAutomation db v id).1 := by
  unfold Fleet.deleteAutomation
  split
  · exact agree_refl
  · exact agree_refl
  · rename_i row found
    obtain ⟨stored,hit⟩ := scalar_mem found
    simp only [Bool.and_eq_true, beq_iff_eq] at hit
    apply unseen_automations
    rw [Table.delete_filter,eq_comm,List.filter_eq_self]
    intro r own
    obtain ⟨member,mine⟩ := List.mem_filter.mp own
    by_contra taken
    have same : (r.id == row.id) = true := by simpa using taken
    rw [keyed_row_apart stored hit.2 other r member same] at mine
    cases mine

theorem create_group_unseen {groupId : Uuid} {memberIds : Nat → Uuid} {name : Text}
    {parent : Option Uuid} {type : Option Text} {exclusive : Bool} {nodes : List Text}
    {metadata : Json} (other : v ≠ u) : Agree u db
      (Fleet.createGroup db groupId memberIds v name parent type exclusive nodes metadata).1 := by
  rcases create_group_cases db groupId memberIds v name parent type exclusive nodes metadata with
    ⟨e,failed⟩ | ⟨groups,members,-,-,-,inserted,all,eq⟩
  · rw [failed]
    exact agree_refl
  · rw [eq]
    have view : groups.rows.filter (·.ownerId == u) = db.nodeGroups.rows.filter (·.ownerId == u) :=
      Table.insert_filter inserted (by simp [Schema.stored, other])
    refine ⟨fun _ => rfl,rfl,rfl,view.symm,?_⟩
    show _ = members.rows.filter _
    rw [Table.insertAll_rows all,List.filter_append]
    have none : (((nodes.mapIdx fun i nid => (⟨memberIds i,groupId,nid⟩ : NodeGroupNode)).map
        Schema.stored).filter fun m => held (done {db with nodeGroups := groups, nodeGroupNodes := members} groupId).1 u
          m.groupId) = [] := by
      rw [List.filter_eq_nil_iff]
      intro m new own
      obtain ⟨given,listed,eq⟩ := List.mem_map.mp new
      obtain ⟨i,bound,same⟩ := List.mem_mapIdx.mp listed
      have group : m.groupId = groupId := by rw [← eq,← same]; rfl
      obtain ⟨g,mine,key⟩ := held_iff.mp own
      -- the group with that key is the new one, which belongs to `v`
      obtain ⟨there,owner⟩ := List.mem_filter.mp mine
      have last : g = Schema.stored
          ⟨groupId,v,parent,name,type,exclusive,metadata.orElse (.obj [])⟩ := by
        apply Table.eq_of_conflict (t := groups) there
          ((Table.mem_insert inserted).mpr (Or.inr rfl))
        rw [group] at key
        simp [Schema.conflict, Schema.stored, key]
      rw [last,beq_iff_eq] at owner
      exact other owner
    rw [none,List.append_nil]
    apply List.filter_congr
    intro m _
    exact held_congr view.symm m.groupId

theorem delete_group_unseen {groupId : Uuid} (grouped : Grouped db) (other : v ≠ u) :
    Agree u db (Fleet.deleteGroup db v groupId).1 := by
  rcases delete_group_cases db v groupId with ⟨e,failed⟩ | ⟨g,stored,-,owner,eq⟩
  · rw [failed]
    exact agree_refl
  · rw [eq]
    apply unseen_cascade
    intro x own
    obtain ⟨h,mine,key⟩ := held_iff.mp own
    obtain ⟨there,belongs⟩ := List.mem_filter.mp mine
    by_contra taken
    rw [Bool.not_eq_false,List.contains_iff_mem,mem_descendants grouped,← key] at taken
    have below : Below db g.id h.id := by
      obtain ⟨root,member,path⟩ := taken
      rw [List.mem_singleton.mp member] at path
      exact path
    rw [beq_iff_eq,below_owner grouped stored there below,owner] at belongs
    exact other belongs

theorem put_custom_data_unseen {user : User} {payload : JsonObject} (other : user.id ≠ u) :
    Agree u db (putCustomData db user payload).1 := by
  unfold putCustomData
  split
  · exact agree_refl
  · split
    · exact agree_refl
    · refine ⟨fun _ => rfl,?_,rfl,rfl,rfl⟩
      simp only [done, setUser]
      rw [Table.update_filter]
      intro r _ same
      rw [beq_iff_eq] at same
      simp [same, other]

end

/-! The routes. -/

def FreshKeys (db : Db) : StoreCall → Prop
  | .createAutomation id _ => ∀ r ∈ db.automations, r.id ≠ id
  | .createGroup groupId memberIds _ => FreshGroup db groupId memberIds
  | _ => True

section
variable {pf : Platform} {u : Uuid} {db db' : Db} {user : User}

theorem list_groups_same {groupId : Option Uuid} (agree : Agree u db db') :
    Fleet.listGroups pf db u groupId = Fleet.listGroups pf db' u groupId := by
  have rows : (db.nodeGroups.select fun g => g.ownerId == u && groupId.all (g.id == ·)) =
      db'.nodeGroups.select fun g => g.ownerId == u && groupId.all (g.id == ·) := by
    apply own_groups_same agree
    intro g hit
    rw [Bool.and_eq_true,beq_iff_eq] at hit
    exact hit.1
  unfold Fleet.listGroups
  rw [rows]
  apply List.map_congr_left
  intro g listed
  obtain ⟨stored,hit⟩ := Table.mem_select.mp listed
  rw [Bool.and_eq_true] at hit
  have own : held db' u g.id = true :=
    held_iff.mpr ⟨g,List.mem_filter.mpr ⟨stored,hit.1⟩,rfl⟩
  have members : (db.nodeGroupNodes.select fun m => m.groupId == g.id) =
      db'.nodeGroupNodes.select fun m => m.groupId == g.id := by
    have view := agree.members
    simp only [held_congr agree.groups] at view
    apply filter_narrow view
    intro m same
    rw [beq_iff_eq] at same
    rw [same,own]
  rw [members]

theorem create_group_route_twins {groupId : Uuid} {memberIds : Nat → Uuid} {payload : JsonObject}
    (key : user.id = u) (agree : Agree u db db') (grouped : Grouped db) (grouped' : Grouped db')
    (fresh : FreshGroup db groupId memberIds) (fresh' : FreshGroup db' groupId memberIds) :
    Twins u (createGroup pf db user groupId memberIds payload)
      (createGroup pf db' user groupId memberIds payload) := by
  unfold createGroup
  dsimp only
  rw [key]
  split
  · exact twins_raise agree
  · split
    · exact twins_raise agree
    · rw [known_parent_same agree]
      split
      · exact twins_raise agree
      · split
        · rw [(create_group_twins [] agree grouped grouped' fresh fresh').answer]
          split
          · exact twins_raise agree
          · exact twins_raise agree
          · exact twins_answered (create_group_twins _ agree grouped grouped' fresh fresh')
        · exact twins_raise agree

theorem serve_store_twins {c : StoreCall} (key : user.id = u) (agree : Agree u db db')
    (grouped : Grouped db) (grouped' : Grouped db') (fresh : FreshKeys db c)
    (fresh' : FreshKeys db' c) : Twins u (serveStore pf db user c) (serveStore pf db' user c) := by
  cases c with
  | createAutomation id payload =>
    simp only [serveStore, createAutomation]
    rw [key]
    split
    · exact twins_raise agree
    · exact twins_answered (create_automation_twins agree fresh fresh')
  | listAutomations =>
    apply twins_done agree
    rw [key]
    unfold Fleet.listAutomations
    rw [own_automations_same agree fun r own => by simpa using own]
  | updateAutomation payload =>
    simp only [serveStore, updateAutomation]
    rw [key]
    split
    · exact twins_raise agree
    · exact twins_answered (update_automation_twins agree)
  | deleteAutomation automationId =>
    simp only [serveStore, deleteAutomation]
    rw [key]
    split
    · exact twins_raise agree
    · exact twins_answered (delete_automation_twins agree)
  | createGroup groupId memberIds payload =>
    exact create_group_route_twins key agree grouped grouped' fresh fresh'
  | listUserNodeGroups groupId =>
    simp only [serveStore, listUserNodeGroups]
    rw [key]
    split
    · exact twins_done agree (by rw [list_groups_same agree])
    · split
      · exact twins_raise agree
      · exact twins_done agree (by rw [list_groups_same agree])
  | deleteUserNodeGroup groupId =>
    simp only [serveStore, deleteUserNodeGroup]
    rw [key]
    split
    · exact twins_raise agree
    · exact twins_answered (delete_group_twins agree grouped grouped')
  | getCustomData => exact twins_done agree rfl
  | putCustomData payload => exact twins_answered (put_custom_data_twins agree)

inductive StoreEffect (db : Db) (user : User) : Db → Prop where
  | none : StoreEffect db user db
  | automationCreated (id : Uuid) (name events actions operator metadata : Json) :
      StoreEffect db user
        (Fleet.createAutomation db id user.id name events actions operator metadata).1
  | automationUpdated (id : Uuid) (patch : JsonObject) :
      StoreEffect db user (Fleet.updateAutomation db user.id id patch).1
  | automationDeleted (id : Uuid) : StoreEffect db user (Fleet.deleteAutomation db user.id id).1
  | groupCreated (groupId : Uuid) (memberIds : Nat → Uuid) (name : Text) (parent : Option Uuid)
      (type : Option Text) (exclusive : Bool) (nodes : List Text) (metadata : Json) :
      StoreEffect db user (Fleet.createGroup db groupId memberIds user.id name parent type exclusive
        nodes metadata).1
  | groupDeleted (groupId : Uuid) : StoreEffect db user (Fleet.deleteGroup db user.id groupId).1
  | customData (payload : JsonObject) : StoreEffect db user (putCustomData db user payload).1

theorem serve_store_effect (c : StoreCall) : StoreEffect db user (serveStore pf db user c).1 := by
  cases c with
  | createAutomation id payload =>
    simp only [serveStore, createAutomation]
    split
    · exact .none
    · exact .automationCreated ..
  | listAutomations => exact .none
  | updateAutomation payload =>
    simp only [serveStore, updateAutomation]
    split
    · exact .none
    · exact .automationUpdated ..
  | deleteAutomation automationId =>
    simp only [serveStore, deleteAutomation]
    split
    · exact .none
    · exact .automationDeleted _
  | createGroup groupId memberIds payload =>
    simp only [serveStore, createGroup]
    split
    · exact .none
    · split
      · exact .none
      · split
        · exact .none
        · split
          · split
            · exact .none
            · exact .none
            · exact .groupCreated ..
          · exact .none
  | listUserNodeGroups groupId =>
    simp only [serveStore, listUserNodeGroups]
    split
    · exact .none
    · split <;> exact .none
  | deleteUserNodeGroup groupId =>
    simp only [serveStore, deleteUserNodeGroup]
    split
    · exact .none
    · exact .groupDeleted _
  | getCustomData => exact .none
  | putCustomData payload => exact .customData payload

theorem store_effect_unseen (effect : StoreEffect db user db') (grouped : Grouped db)
    (other : user.id ≠ u) : Agree u db db' := by
  cases effect with
  | none => exact agree_refl
  | automationCreated => exact create_automation_unseen other
  | automationUpdated => exact update_automation_unseen other
  | automationDeleted => exact delete_automation_unseen other
  | groupCreated => exact create_group_unseen other
  | groupDeleted => exact delete_group_unseen grouped other
  | customData => exact put_custom_data_unseen other

theorem grouped_of_tables (grouped : Grouped db) (groups : db'.nodeGroups = db.nodeGroups)
    (members : db'.nodeGroupNodes = db.nodeGroupNodes) : Grouped db' :=
  ⟨by rw [groups]; exact grouped.ordered,by rw [groups]; exact grouped.owned,
    by rw [groups,members]; exact grouped.members⟩

theorem create_automation_tables {id : Uuid} {name events actions operator metadata : Json} :
    ∃ t, (Fleet.createAutomation db id u name events actions operator metadata).1 =
      {db with automations := t} := by
  unfold Fleet.createAutomation
  split
  · split
    · exact ⟨_,rfl⟩
    · rename_i stored
      obtain ⟨t,-,-,eq⟩ := commitInsert_ok stored
      exact ⟨t,eq⟩
  · exact ⟨_,rfl⟩

theorem update_automation_tables {id : Uuid} {patch : JsonObject} :
    ∃ t, (Fleet.updateAutomation db u id patch).1 = {db with automations := t} := by
  unfold Fleet.updateAutomation
  split
  · exact ⟨_,rfl⟩
  · exact ⟨_,rfl⟩
  · split
    · exact ⟨_,rfl⟩
    · exact ⟨_,rfl⟩

theorem delete_automation_tables {id : Uuid} :
    ∃ t, (Fleet.deleteAutomation db u id).1 = {db with automations := t} := by
  unfold Fleet.deleteAutomation
  split
  · exact ⟨_,rfl⟩
  · exact ⟨_,rfl⟩
  · exact ⟨_,rfl⟩

theorem grouped_of_automations (grouped : Grouped db)
    (tables : ∃ t, db' = {db with automations := t}) : Grouped db' := by
  obtain ⟨t,eq⟩ := tables
  exact grouped_of_tables grouped (by rw [eq]) (by rw [eq])

theorem store_effect_grouped (effect : StoreEffect db user db') (grouped : Grouped db) :
    Grouped db' := by
  cases effect with
  | none => exact grouped
  | automationCreated => exact grouped_of_automations grouped create_automation_tables
  | automationUpdated => exact grouped_of_automations grouped update_automation_tables
  | automationDeleted => exact grouped_of_automations grouped delete_automation_tables
  | groupCreated groupId memberIds name parent type exclusive nodes metadata =>
    exact step_grouped
      (.createGroup groupId memberIds user.id name parent type exclusive nodes metadata) grouped
  | groupDeleted groupId => exact step_grouped (.deleteGroup user.id groupId) grouped
  | customData payload =>
    unfold putCustomData
    split
    · exact grouped
    · split
      · exact grouped
      · exact grouped_of_tables grouped rfl rfl

end

def isOwn (u : Uuid) (c : Uuid × StoreCall) : Bool := c.1 == u

theorem stores_unwind (pf : Platform) (u : Uuid) :
    Unwinding.Unwinds (storeStep pf) (fun db c => (request pf db c).2) (isOwn u) Grouped
      (fun db c => isOwn u c = true → FreshKeys db c.2) (Agree u) := by
  have own : ∀ db db' c, isOwn u c = true → Grouped db → Grouped db' → FreshKeys db c.2 →
      FreshKeys db' c.2 → Agree u db db' → Twins u (request pf db c) (request pf db' c) := by
    rintro db db' ⟨v,c⟩ mine grouped grouped' fresh fresh' agree
    have caller : v = u := by simpa [isOwn] using mine
    subst caller
    simp only [request]
    rw [current_user_same agree]
    split
    · exact twins_raise agree
    · rename_i user auth
      exact twins_rendered
        (serve_store_twins (current_user_ok auth).2.1 agree grouped grouped' fresh fresh')
  constructor
  · exact fun db db' => agree_symm
  · rintro db ⟨v,c⟩ grouped
    simp only [storeStep, request]
    split
    · exact grouped
    · exact store_effect_grouped (serve_store_effect c) grouped
  · rintro db db' ⟨v,c⟩ foreign grouped agree
    have other : v ≠ u := by simpa [isOwn] using foreign
    simp only [storeStep, request]
    split
    · exact agree
    · rename_i user auth
      apply agree_trans (agree_symm _) agree
      apply store_effect_unseen (serve_store_effect c) grouped
      rw [(current_user_ok auth).2.1]
      exact other
  · intro db db' c mine grouped grouped' fresh fresh' agree
    exact (own db db' c mine grouped grouped' (fresh mine) (fresh' mine) agree).answer
  · intro db db' c mine grouped grouped' fresh fresh' agree
    exact (own db db' c mine grouped grouped' (fresh mine) (fresh' mine) agree).agree

def unkept (db : Db) : Db := {ungrouped db with automations := .empty}

def answers (pf : Platform) (u : Uuid) : Db → List (Uuid × StoreCall) →
    List (Except Exc StoreReply) :=
  Unwinding.answers (storeStep pf) (fun db c => (request pf db c).2) (isOwn u)

/-- Two runs over the same nodes and the same account of `u`, with the same
    calls of `u` and any calls of others: every call of `u` returns the same. -/
theorem stores_do_not_interfere (pf : Platform) (u : Uuid) (start start' : Db)
    (cs cs' : List (Uuid × StoreCall)) (nodes : ∀ n, start.hasNode n = start'.hasNode n)
    (account : start.users.rows.filter (·.id == u) = start'.users.rows.filter (·.id == u))
    (same : cs.filter (isOwn u) = cs'.filter (isOwn u))
    (fresh : Along (storeStep pf) (fun db c => isOwn u c = true → FreshKeys db c.2)
      (unkept start) cs)
    (fresh' : Along (storeStep pf) (fun db c => isOwn u c = true → FreshKeys db c.2)
      (unkept start') cs') :
    answers pf u (unkept start) cs = answers pf u (unkept start') cs' := by
  have blank : ∀ db, Grouped (unkept db) := fun db =>
    grouped_of_tables (run_grouped db []) rfl rfl
  have agree : Agree u (unkept start) (unkept start') := ⟨nodes,account,rfl,rfl,rfl⟩
  exact Unwinding.same_answers (stores_unwind pf u) same (blank start) (blank start') agree fresh
    fresh'

/-! Ana keeps an automation and a group, and Bob names both in deletions. -/

def automationText : Text := "0000000a-0000-0000-0000-000000000000"
def groupText : Text := "00000014-0000-0000-0000-000000000000"

def platform : Platform := {Deployment.platform with
  parseUuid := fun s => if s = automationText then some 10 else if s = groupText then some 20 else none
  uuidStr := fun id => if id = 10 then automationText else groupText}

def home : Db where
  users := Deployment.anaAndBob
  nodes := .one {nodeId := "lamp"}

def anaKeeps : List (Uuid × StoreCall) :=
  [(1,.createAutomation 10 [("name",.str "night")]),
   (1,.createGroup 20 (fun i => 30 + i) [("group_name",.str "home"),("nodes",.arr [.str "lamp"])]),
   (1,.listAutomations),(1,.listUserNodeGroups none)]

def bobMeddles : List (Uuid × StoreCall) :=
  [(1,.createAutomation 10 [("name",.str "night")]),(2,.deleteAutomation automationText),
   (1,.createGroup 20 (fun i => 30 + i) [("group_name",.str "home"),("nodes",.arr [.str "lamp"])]),
   (2,.deleteUserNodeGroup groupText),(1,.listAutomations),(1,.listUserNodeGroups none)]

theorem ana_sees_her_own :
    answers platform 1 (unkept home) bobMeddles = answers platform 1 (unkept home) anaKeeps := by
  have automation : ∀ r ∈ (unkept home).automations, r.id ≠ 10 := by
    intro r stored
    cases stored
  have group : ∀ cs, (run (storeStep platform) (unkept home) cs).nodeGroups.rows = [] →
      (run (storeStep platform) (unkept home) cs).nodeGroupNodes.rows = [] →
      FreshGroup (run (storeStep platform) (unkept home) cs) 20 (fun i => 30 + i) := by
    intro cs groups members
    constructor
    · intro g stored
      rw [Table.mem_def,groups] at stored
      cases stored
    · intro m stored
      rw [Table.mem_def,members] at stored
      cases stored
  apply stores_do_not_interfere platform 1 home home bobMeddles anaKeeps (fun _ => rfl) rfl rfl
  · exact ⟨fun _ => automation,Bool.noConfusion,fun _ => group (bobMeddles.take 2) rfl rfl,
      Bool.noConfusion,fun _ => trivial,fun _ => trivial,trivial⟩
  · exact ⟨fun _ => automation,fun _ => group (anaKeeps.take 1) rfl rfl,fun _ => trivial,
      fun _ => trivial,trivial⟩

end RainmakerServer.UserStores
