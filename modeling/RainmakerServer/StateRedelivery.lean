import RainmakerServer.MappingRetry
import RainmakerServer.ShadowReports

/-!
Messages that carry state, delivered twice. A configuration or a parameter
report stores what is already there the second time. A mapping message settles
its challenge, and a settled challenge is not found again; when its mapping
cannot be stored the challenge stays pending, since this handler alone does not
create the node it writes about, and a later copy of the message finds it
expired.
-/
namespace RainmakerServer.StateRedelivery
open Tables Mqtt

def stateSuffixes : List Text :=
  [Topics.config,Topics.paramsLocal,Topics.paramsLocalInit,Topics.userMapping]

def ParsedKeys (pf : Platform) : Prop := ∀ body doc, pf.jsonLoads body = some (.obj doc) →
  (Dict.keys doc).Nodup ∧
    ∀ device params, (device,Json.obj params) ∈ doc → (Dict.keys params).Nodup

def untimed (db : Db) : Db :=
  let challenges := db.mappingChallenges.update (fun _ => true)
    (fun r => {r with completedAt := none}) (fun _ _ => rfl) fun _ held => held
  let claims := db.claimChallenges.update (fun _ => true)
    (fun r => {r with createdAt := 0}) (fun _ _ => rfl) fun _ held => held
  let targets := db.otaJobNodes.update (fun _ => true)
    (fun r => {r with createdAt := 0}) (fun _ _ => rfl) fun _ held => held
  {db with mappingChallenges := challenges, claimChallenges := claims, otaJobNodes := targets}

def SameContents (a b : Db) : Prop := untimed a = untimed b

structure Mappable (db : Db) (u : Uuid) (n : Text) (mappingId : Uuid) : Prop where
  user : db.hasUser u = true
  node : db.hasNode n = true
  fresh : ∀ m ∈ db.userNodeMappings, m.id ≠ mappingId

/-- The pending challenges the message of node `n` with this secret answers. -/
def answered (db : Db) (n secret : Text) : List MappingChallenge :=
  db.mappingChallenges.select fun r =>
    r.secretKey == some secret && r.nodeId == some n && r.status == .pending

def secretOf (n : Text) : Json → Option Text
  | .obj doc => match Dict.get? "secret_key".toList doc with
    | some (.str (c :: cs)) => if claimsOtherNode n doc then none else some (c :: cs)
    | _ => none
  | _ => none

/-- The message answers one challenge, which is valid at `t1` but cannot be
    finalised then; at `t2` it has expired, or it can be finalised. -/
def Unfinished (pf : Platform) (db : Db) (n : Text) (payload : Bytes) (t1 t2 : Time)
    (m1 m2 : Uuid) : Prop :=
  ∃ secret row, (parsePayload pf payload).bind (secretOf n) = some secret ∧
    answered db n secret = [row] ∧
    t1 ≤ row.expiresAt ∧ ¬ Access.Owns db row.userId n ∧ ¬ Mappable db row.userId n m1 ∧
    (row.expiresAt < t2 ∨ Mappable db row.userId n m2)

/-! The merge, again. -/

section
variable {doc : JsonObject}

theorem update_again {params : JsonObject} (distinct : (Dict.keys params).Nodup)
    (current : JsonObject) :
    Dict.update (Dict.update current params) params = Dict.update current params := by
  apply Dict.update_absorbed
  intro p member
  exact Dict.get_update_of_mem distinct member current

theorem update_self {params : JsonObject} (distinct : (Dict.keys params).Nodup) :
    Dict.update params params = params := by
  apply Dict.update_absorbed
  intro p member
  exact Dict.get_of_mem distinct member

theorem merged_value_again {value : Json} {held : Option Json}
    (distinct : ∀ params, value = .obj params → (Dict.keys params).Nodup) :
    ShadowReports.mergedValue value (some (ShadowReports.mergedValue value held)) =
      ShadowReports.mergedValue value held := by
  cases value with
  | obj params =>
    have own := distinct params rfl
    cases held with
    | none => simp [ShadowReports.mergedValue, update_self own]
    | some before =>
      cases before with
      | obj current => simp [ShadowReports.mergedValue, update_again own]
      | _ => simp [ShadowReports.mergedValue, update_self own]
  | _ => cases held with
    | none => rfl
    | some before => cases before <;> rfl

theorem merge_absorbed {merged update : JsonObject}
    (same : ∀ entry ∈ update, Nodes.mergeEntry merged entry = merged) :
    Nodes.mergeParams merged update = merged := by
  induction update with
  | nil => rfl
  | cons entry update ih =>
    have rest := ih fun later member => same later (List.mem_cons_of_mem _ member)
    unfold Nodes.mergeParams at rest ⊢
    rw [List.foldl_cons,same entry (by simp)]
    exact rest

variable (distinct : (Dict.keys doc).Nodup)
  (objects : ∀ device params, (device,Json.obj params) ∈ doc → (Dict.keys params).Nodup)
include distinct objects

theorem merge_again (current : JsonObject) :
    Nodes.mergeParams (Nodes.mergeParams current doc) doc = Nodes.mergeParams current doc := by
  apply merge_absorbed
  rintro ⟨device,value⟩ member
  rw [ShadowReports.merge_entry_set,ShadowReports.merge_get_of_mem distinct member,
    merged_value_again fun params object => objects device params (object ▸ member)]
  exact Dict.set_of_get (ShadowReports.merge_get_of_mem distinct member current)

theorem merge_self : Nodes.mergeParams doc doc = doc := by
  apply merge_absorbed
  rintro ⟨device,value⟩ member
  have found := Dict.get_of_mem distinct member
  have whole : ShadowReports.mergedValue value none = value := rfl
  have again := @merged_value_again value none fun params object =>
    objects device params (object ▸ member)
  rw [whole] at again
  rw [ShadowReports.merge_entry_set,found,again]
  exact Dict.set_of_get found

end

/-! The two upserts, again. -/

section
variable {db db' : Db} {n : Text} {doc : JsonObject}

theorem shadow_absorbed {row : NodeParamsShadow} (found : Nodes.readShadow db n = some row)
    (same : Nodes.mergeParams row.payload doc = row.payload) :
    (commitLast db (Nodes.upsertParamsShadow db n doc)).1 = db := by
  obtain ⟨stored,named⟩ := ShadowReports.read_shadow_named found
  have written : Nodes.setShadow db n row.payload = db := by
    have rows : db.nodeParamsShadow.update (fun r => r.nodeId == n)
        (fun r => {r with payload := row.payload}) (fun _ _ => rfl) (fun _ held => held) = db.nodeParamsShadow := by
      apply Table.update_absorbed
      intro r member here
      have key : Schema.conflict r row = true := by
        simp only [Schema.conflict, named]
        exact here
      rw [Table.eq_of_conflict member stored key]
    unfold Nodes.setShadow
    dsimp only
    rw [rows]
  unfold Nodes.upsertParamsShadow Nodes.commitShadow
  rw [found]
  dsimp only
  rw [same]
  split
  · rfl
  · split
    · rfl
    · exact written

theorem commit_insert_taken {α : Type} [Schema α] {t : Table α} {r row : α} {present : α → Bool}
    {store : Table α → Db} (stored : r ∈ t) (taken : Schema.conflict r (Schema.stored row) = true) :
    ∃ e, commitInsert t row present store = .error e := by
  unfold commitInsert
  cases inserted : t.insert row with
  | error e => exact ⟨_,rfl⟩
  | ok t' =>
    have free := (Table.insert_ok inserted).2.2 r stored
    rw [taken] at free
    cases free

theorem shadow_again (distinct : (Dict.keys doc).Nodup)
    (objects : ∀ device params, (device,Json.obj params) ∈ doc → (Dict.keys params).Nodup)
    (ok : Nodes.upsertParamsShadow db n doc = .ok db') :
    (commitLast db' (Nodes.upsertParamsShadow db' n doc)).1 = db' := by
  have first := ok
  unfold Nodes.upsertParamsShadow Nodes.commitShadow at ok
  cases found : Nodes.readShadow db n with
  | none =>
    rw [found] at ok
    obtain ⟨t,inserted,-,eq⟩ := commitInsert_ok ok
    subst eq
    have new := (Table.mem_insert inserted).mpr (Or.inr rfl)
    cases read : Nodes.readShadow {db with nodeParamsShadow := t} n with
    | none =>
      -- the name was cut: the row is not found under it, and in the way
      obtain ⟨e,refused⟩ := @commit_insert_taken _ _ t _ ⟨n,doc⟩ (fun r => db.hasNode r.nodeId)
        (fun t' => {db with nodeParamsShadow := t'}) new (by simp [Schema.conflict])
      have again : Nodes.upsertParamsShadow {db with nodeParamsShadow := t} n doc = .error e := by
        unfold Nodes.upsertParamsShadow
        rw [read]
        exact refused
      rw [again]
      rfl
    | some row =>
      obtain ⟨stored,named⟩ := ShadowReports.read_shadow_named read
      rcases (Table.mem_insert inserted).mp stored with old | fresh
      · exact absurd named (by simpa using List.find?_eq_none.mp found row old)
      · have whole : row.payload = doc := by rw [fresh]; rfl
        apply shadow_absorbed read
        rw [whole]
        exact merge_self distinct objects
  | some existing =>
    rw [found] at ok
    dsimp only at ok
    split at ok
    · -- the merged document compares equal: the same comparison again
      cases ok
      rw [first]
      rfl
    · split at ok
      · cases ok
      · cases ok
        exact shadow_absorbed (ShadowReports.read_after_update _ found)
          (merge_again distinct objects existing.payload)

theorem read_config_named {row : NodeConfig} (found : Nodes.readConfig db n = some row) :
    row ∈ db.nodeConfigs ∧ row.nodeId = n := by
  have hit := List.find?_some found
  exact ⟨List.mem_of_find?_eq_some found,by simpa using hit⟩

theorem config_absorbed {row : NodeConfig} {version : Option Text}
    (found : Nodes.readConfig db n = some row) (parsed : Nodes.configVersion doc = .ok version)
    (written : row.configVersion = version ∨ row.configVersion = version.map (cut 32))
    (payload : Json.pyEq (.obj doc) (.obj row.payload) = false → row.payload = doc) :
    (commitLast db (Nodes.upsertNodeConfig db n doc)).1 = db := by
  obtain ⟨stored,named⟩ := read_config_named found
  unfold Nodes.upsertNodeConfig Nodes.commitConfig
  rw [found,parsed]
  dsimp only
  split
  · rfl
  · have rows : db.nodeConfigs.update (fun r => r.nodeId == n)
        (fun r => {r with
          configVersion := if version = row.configVersion then r.configVersion
            else version.map (cut 32)
          payload := if Json.pyEq (.obj doc) (.obj row.payload) = true then r.payload else doc})
        (fun _ _ => rfl) (fun _ held => held) = db.nodeConfigs := by
      apply Table.update_absorbed
      intro r member here
      have key : Schema.conflict r row = true := by
        simp only [Schema.conflict, named]
        exact here
      rw [Table.eq_of_conflict member stored key]
      have kept : (if version = row.configVersion then row.configVersion
          else version.map (cut 32)) = row.configVersion := by
        rcases written with same | same
        · exact if_pos same.symm
        · split
          · rfl
          · exact same.symm
      rw [kept]
      by_cases same : Json.pyEq (.obj doc) (.obj row.payload) = true
      · simp [same]
      · rw [Bool.not_eq_true] at same
        simp [← payload same]
    show {db with nodeConfigs := _} = db
    rw [rows]

/-- What the row holds after an upsert: the document that came, or the one read
    before if the two compare equal. -/
def heldDocument (seen : Option NodeConfig) (doc : JsonObject) : JsonObject :=
  match seen with
  | none => doc
  | some old => if Json.pyEq (.obj doc) (.obj old.payload) then old.payload else doc

theorem upsert_config_read (ok : Nodes.upsertNodeConfig db n doc = .ok db') :
    ∃ version, Nodes.configVersion doc = .ok version ∧
      ((varchar 64 n = false ∧ ∃ e, Nodes.upsertNodeConfig db' n doc = .error e) ∨
        ∃ row, Nodes.readConfig db' n = some row ∧
          (row.configVersion = version ∨ row.configVersion = version.map (cut 32)) ∧
          row.payload = heldDocument (Nodes.readConfig db n) doc) := by
  unfold Nodes.upsertNodeConfig Nodes.commitConfig at ok
  cases version : Nodes.configVersion doc with
  | error e =>
    rw [version] at ok
    cases ok
  | ok v =>
    rw [version] at ok
    dsimp only at ok
    refine ⟨v,rfl,?_⟩
    cases found : Nodes.readConfig db n with
    | none =>
      rw [found] at ok
      obtain ⟨t,inserted,-,eq⟩ := commitInsert_ok ok
      subst eq
      have new := (Table.mem_insert inserted).mpr (Or.inr rfl)
      cases read : Nodes.readConfig {db with nodeConfigs := t} n with
      | none =>
        left
        have wide : varchar 64 n = false := by
          by_contra width
          rw [Bool.not_eq_false] at width
          have other := List.find?_eq_none.mp read _ new
          simp [Schema.stored, cut_of_varchar width] at other
        refine ⟨wide,?_⟩
        obtain ⟨e,refused⟩ := @commit_insert_taken _ _ t _ ⟨n,v,doc⟩ (fun r => db.hasNode r.nodeId)
          (fun t' => {db with nodeConfigs := t'}) new (by simp [Schema.conflict])
        refine ⟨e,?_⟩
        unfold Nodes.upsertNodeConfig Nodes.commitConfig
        rw [read,version]
        exact refused
      | some row =>
        right
        obtain ⟨stored,named⟩ := read_config_named read
        rcases (Table.mem_insert inserted).mp stored with old | fresh
        · exact absurd named (by simpa using List.find?_eq_none.mp found row old)
        · exact ⟨row,rfl,Or.inr (by rw [fresh]; rfl),by rw [fresh]; rfl⟩
    | some existing =>
      rw [found] at ok
      dsimp only at ok
      split at ok
      · cases ok
      · cases ok
        right
        -- the row read now is the row that was written
        have read := @Table.find_update _ _ db.nodeConfigs (fun r => r.nodeId == n)
          (fun r => {r with
            configVersion := if v = existing.configVersion then r.configVersion
              else v.map (cut 32)
            payload := if Json.pyEq (.obj doc) (.obj existing.payload) = true
              then r.payload else doc})
          (fun _ _ => rfl) (fun _ held => held) (by intro r here; exact here)
        obtain ⟨stored,-⟩ := read_config_named found
        unfold Nodes.readConfig at found
        rw [found,Option.map_some] at read
        refine ⟨_,read,?_,rfl⟩
        dsimp only
        split
        · rename_i same
          exact Or.inl same.symm
        · exact Or.inr rfl

theorem config_again (ok : Nodes.upsertNodeConfig db n doc = .ok db') :
    (commitLast db' (Nodes.upsertNodeConfig db' n doc)).1 = db' := by
  obtain ⟨version,parsed,⟨-,e,refused⟩ | ⟨row,read,written,payload⟩⟩ := upsert_config_read ok
  · rw [refused]
    rfl
  · apply config_absorbed read parsed written
    rw [payload]
    intro other
    dsimp only [heldDocument] at other ⊢
    split
    · rfl
    · rename_i old seen
      rw [seen] at other
      dsimp only at other
      split
      · rename_i same
        rw [if_pos same,same] at other
        cases other
      · rfl

end

/-! The handlers, again. -/

section
variable {db : Db} {n : Text} {t1 t2 : Time}

theorem ensure_node_settled {db1 : Db} (settled : db1.hasNode (cut 64 n) = true) :
    ensureNode db1 t2 n = .ok db1 ∨ ∃ e, ensureNode db1 t2 n = .error e := by
  unfold ensureNode
  split
  · exact Or.inl rfl
  · right
    obtain ⟨r,stored,named⟩ := Db.hasNode_iff.mp settled
    exact commit_insert_taken stored (by simp [Schema.conflict, Schema.stored, named])

theorem ensure_node_ready {db1 : Db} (ready : ensureNode db t1 n = .ok db1) :
    db1.hasNode (cut 64 n) = true := by
  unfold ensureNode at ready
  split at ready
  · rename_i present
    cases ready
    rw [cut_of_varchar (Db.hasNode_varchar present)]
    exact present
  · obtain ⟨t,inserted,-,eq⟩ := commitInsert_ok ready
    subst eq
    exact Db.hasNode_iff.mpr ⟨_,(Table.mem_insert inserted).mpr (Or.inr rfl),rfl⟩

theorem ensure_node_refused {e : Exc} (refused : ensureNode db t1 n = .error e) :
    ∃ e', ensureNode db t2 n = .error e' := by
  unfold ensureNode at refused ⊢
  split at refused
  · cases refused
  · rename_i absent
    rw [if_neg absent]
    cases again : createNode db t2 n with
    | error e' => exact ⟨e',rfl⟩
    | ok db2 =>
      -- the two rows differ in their time only
      obtain ⟨t,inserted,-,-⟩ := commitInsert_ok again
      obtain ⟨-,fits,free⟩ := Table.insert_ok inserted
      obtain ⟨t',first⟩ := @Table.insert_succeeds _ _ db.nodes
        {nodeId := n, registrationTs := some t1} fits free
      simp [createNode, commitInsert, first] at refused

def ensuredCommit (upsert : Db → Except Exc Db) (db : Db) (now : Time) (n : Text) : Db :=
  match ensureNode db now n with
  | .error _ => db
  | .ok db1 => (commitLast db1 (upsert db1)).1

theorem ensured_again {upsert : Db → Except Exc Db}
    (reports : ∀ db db', upsert db = .ok db' → Nodes.Reports (cut 64 n) db db')
    (again : ∀ db db', upsert db = .ok db' → (commitLast db' (upsert db')).1 = db') :
    ensuredCommit upsert (ensuredCommit upsert db t1 n) t2 n = ensuredCommit upsert db t1 n := by
  cases ready : ensureNode db t1 n with
  | error e =>
    have first : ensuredCommit upsert db t1 n = db := by simp only [ensuredCommit, ready]
    obtain ⟨e',refused⟩ := @ensure_node_refused db n t1 t2 e ready
    rw [first]
    simp only [ensuredCommit, refused]
  | ok db1 =>
    have first : ensuredCommit upsert db t1 n = (commitLast db1 (upsert db1)).1 := by
      simp only [ensuredCommit, ready]
    have once : ∀ db2 : Db, db2.hasNode (cut 64 n) = true →
        (commitLast db2 (upsert db2)).1 = db2 → ensuredCommit upsert db2 t2 n = db2 := by
      intro db2 there same
      unfold ensuredCommit
      rcases @ensure_node_settled n t2 db2 there with present | ⟨e,refused⟩
      · rw [present]
        exact same
      · rw [refused]
    have present := ensure_node_ready ready
    rw [first]
    cases stored : upsert db1 with
    | error e => exact once db1 present (by rw [stored]; rfl)
    | ok db2 => exact once db2 ((reports db1 db2 stored).kept _ present) (again db1 db2 stored)

theorem handle_config_again (value : Json) :
    (handleConfig (handleConfig db t1 n value).1 t2 n value).1 = (handleConfig db t1 n value).1 := by
  cases value with
  | obj doc =>
    have shape : ∀ db now, (handleConfig db now n (.obj doc)).1 =
        ensuredCommit (fun db1 => Nodes.upsertNodeConfig db1 n doc) db now n := by
      intro db now
      unfold handleConfig ensuredCommit
      cases ensureNode db now n with
      | error e => rfl
      | ok db1 => exact Nodes.refreshed_db _ _
    rw [shape,shape]
    exact ensured_again (fun _ _ => Nodes.commit_config_reports) fun _ _ => config_again
  | _ => rfl

theorem handle_params_local_again {value : Json}
    (keys : ∀ doc, value = .obj doc → (Dict.keys doc).Nodup ∧
      ∀ device params, (device,Json.obj params) ∈ doc → (Dict.keys params).Nodup) :
    (handleParamsLocal (handleParamsLocal db t1 n value).1 t2 n value).1 =
      (handleParamsLocal db t1 n value).1 := by
  cases value with
  | obj doc =>
    obtain ⟨distinct,objects⟩ := keys doc rfl
    have shape : ∀ db now, (handleParamsLocal db now n (.obj doc)).1 =
        ensuredCommit (fun db1 => Nodes.upsertParamsShadow db1 n doc) db now n := by
      intro db now
      unfold handleParamsLocal ensuredCommit
      cases ensureNode db now n with
      | error e => rfl
      | ok db1 => exact Nodes.refreshed_db _ _
    rw [shape,shape]
    exact ensured_again (fun _ _ => Nodes.commit_shadow_reports) fun _ _ =>
      shadow_again distinct objects
  | _ => rfl

end

/-! The challenge, again. -/

section
variable {db : Db} {n secret : Text} {row : MappingChallenge}

theorem answered_row (sole : answered db n secret = [row]) : row ∈ db.mappingChallenges ∧
    row.secretKey = some secret ∧ row.nodeId = some n ∧ row.status = .pending := by
  have member : row ∈ answered db n secret := by
    rw [sole]
    exact List.mem_singleton_self row
  obtain ⟨stored,hit⟩ := Table.mem_select.mp member
  simp only [Bool.and_eq_true, beq_iff_eq] at hit
  exact ⟨stored,hit.1.1,hit.1.2,hit.2⟩

theorem finalise_mapping_iff {now : Time} {mappingId : Uuid} (stored : row ∈ db.mappingChallenges)
    (named : row.nodeId = some n) :
    (∃ db', Access.finaliseMapping db now mappingId row = .ok db') ↔
      Access.Owns db row.userId n ∨ Mappable db row.userId n mappingId := by
  constructor
  · rintro ⟨db',ok⟩
    obtain ⟨m,same,⟨owned,-⟩ | ⟨t,appended,user,node,-⟩⟩ :=
      Access.finalise_mapping_ok stored ok
    · rw [named] at same
      cases same
      exact Or.inl owned
    · rw [named] at same
      cases same
      refine Or.inr ⟨user,node,?_⟩
      have unique := t.unique
      rw [appended,List.pairwise_append] at unique
      intro m member clash
      have apart := unique.2.2 m member _ (List.mem_singleton_self _)
      simp [Schema.conflict, clash] at apart
  · rintro (owned | mappable)
    · unfold Access.finaliseMapping
      have found := scalar_by_key (t := db.userNodeMappings)
        (p := fun r => r.userId == row.userId && some r.nodeId == row.nodeId) (by
          intro a b ha hb
          simp only [Bool.and_eq_true, beq_iff_eq] at ha hb
          have node : a.nodeId = b.nodeId := Option.some.inj (ha.2.trans hb.2.symm)
          simp [Schema.conflict, ha.1, hb.1, node])
      rcases found with ⟨m,-,-,scalar⟩ | ⟨absent,-⟩
      · rw [scalar]
        exact ⟨_,rfl⟩
      · obtain ⟨m,stored,user,node⟩ := owned
        have miss := absent m stored
        simp [user, node, named] at miss
    · obtain ⟨db',ok,-⟩ := @Access.finalise_mapping_succeeds db now mappingId row n named
        mappable.user mappable.node mappable.fresh
      exact ⟨db',ok⟩

theorem finalise_refused {now : Time} {mappingId : Uuid} {e : Exc}
    (stored : row ∈ db.mappingChallenges)
    (refused : Access.finaliseMapping db now mappingId row = .error e)
    (named : row.nodeId = some n) :
    ¬ (Access.Owns db row.userId n ∨ Mappable db row.userId n mappingId) := by
  intro possible
  obtain ⟨db',ok⟩ := (@finalise_mapping_iff db n row now mappingId stored named).mpr possible
  rw [refused] at ok
  cases ok

theorem answered_after {db' : Db} {status : MappingStatus} {completedAt : Option Time}
    (sole : answered db n secret = [row]) (settled : status ≠ .pending)
    (rows : db'.mappingChallenges =
      (Access.setChallenge db row.id status completedAt).mappingChallenges) :
    answered db' n secret = [] := by
  unfold answered Table.select
  rw [rows,List.filter_eq_nil_iff]
  intro r member hit
  simp only [Bool.and_eq_true, beq_iff_eq] at hit
  rw [← Table.mem_def] at member
  obtain ⟨old,stored,eq⟩ := GrantSteps.mem_set_challenge.mp member
  split at eq
  · rw [← eq] at hit
    exact settled hit.2
  · rename_i other
    subst eq
    have found : old ∈ answered db n secret := Table.mem_select.mpr ⟨stored,by simp [hit]⟩
    rw [sole,List.mem_singleton] at found
    simp [found] at other

theorem settled_differs {db' : Db} {status : MappingStatus} {completedAt : Option Time}
    (stored : row ∈ db.mappingChallenges) (pending : row.status = .pending)
    (settled : status ≠ .pending)
    (rows : db'.mappingChallenges =
      (Access.setChallenge db row.id status completedAt).mappingChallenges) :
    ¬ SameContents db' db := by
  intro same
  have tables : (untimed db').mappingChallenges = (untimed db).mappingChallenges :=
    congrArg Db.mappingChallenges same
  have erased : {row with status := status, completedAt := none} ∈
      (untimed db').mappingChallenges := by
    simp only [untimed, rows, Table.mem_update]
    exact ⟨_,GrantSteps.set_challenge_sets stored,by simp⟩
  rw [tables] at erased
  simp only [untimed, Table.mem_update, if_true] at erased
  obtain ⟨old,present,eq⟩ := erased
  obtain ⟨id,-,-,-,-,-,written,-⟩ := MappingChallenge.mk.inj eq
  have key : Schema.conflict old row = true := by simp [Schema.conflict, id]
  rw [Table.eq_of_conflict present stored key,pending] at written
  exact settled written.symm

theorem match_unanswered {now : Time} {mappingId : Uuid} (none : answered db n secret = []) :
    (matchChallenge db now mappingId n secret).1 = db := by
  unfold answered at none
  unfold matchChallenge
  rw [none]
  rfl

theorem match_answered {now : Time} {mappingId : Uuid} (sole : answered db n secret = [row]) :
    (matchChallenge db now mappingId n secret).1 =
      if row.expiresAt < now then Access.setChallenge db row.id .expired row.completedAt
      else (commitLast db (Access.finaliseMapping db now mappingId row)).1 := by
  unfold answered at sole
  unfold matchChallenge
  rw [sole]
  dsimp only [scalarOneOrNone]
  split <;> rfl

theorem match_several {now : Time} {mappingId : Uuid} {a b : MappingChallenge}
    {rest : List MappingChallenge} (several : answered db n secret = a :: b :: rest) :
    (matchChallenge db now mappingId n secret).1 = db := by
  unfold answered at several
  unfold matchChallenge
  rw [several]
  rfl

theorem finalised_rows {db' : Db} {now : Time} {mappingId : Uuid}
    (ok : Access.finaliseMapping db now mappingId row = .ok db') : db'.mappingChallenges =
      (Access.setChallenge db row.id .completed (some now)).mappingChallenges := by
  obtain ⟨-,-,⟨-,eq⟩ | ⟨t,-,-,-,eq⟩⟩ := Access.finalise_mapping_cases ok
  · rw [eq]
  · rw [eq]
    rfl

theorem match_challenge_again {t1 t2 : Time} {m1 m2 : Uuid} :
    SameContents (matchChallenge (matchChallenge db t1 m1 n secret).1 t2 m2 n secret).1
        (matchChallenge db t1 m1 n secret).1 ↔
      ¬ ∃ row, answered db n secret = [row] ∧ t1 ≤ row.expiresAt ∧
        ¬ Access.Owns db row.userId n ∧ ¬ Mappable db row.userId n m1 ∧
        (row.expiresAt < t2 ∨ Mappable db row.userId n m2) := by
  match found : answered db n secret with
  | [] =>
    rw [match_unanswered found,match_unanswered found]
    simp [SameContents]
  | a :: b :: rest =>
    rw [match_several found,match_several found]
    simp [SameContents]
  | [row] =>
    obtain ⟨stored,-,named,pending⟩ := answered_row found
    have alone : ∀ P : MappingChallenge → Prop,
        (∃ r, [row] = [r] ∧ P r) ↔ P row := by
      intro P
      simp
    rw [alone]
    by_cases late : row.expiresAt < t1
    · have first : (matchChallenge db t1 m1 n secret).1 = _ := match_answered found
      rw [if_pos late] at first
      rw [first,match_unanswered (answered_after found (by decide) rfl)]
      exact iff_of_true rfl fun blocked => Int.not_le.mpr late blocked.1
    · have first : (matchChallenge db t1 m1 n secret).1 = _ := match_answered found
      rw [if_neg late] at first
      cases outcome : Access.finaliseMapping db t1 m1 row with
      | ok db' =>
        rw [outcome] at first
        have settled : (matchChallenge db t1 m1 n secret).1 = db' := first
        rw [settled,match_unanswered (answered_after found (by decide) (finalised_rows outcome))]
        have possible := (finalise_mapping_iff stored named).mp ⟨db',outcome⟩
        exact iff_of_true rfl fun blocked => possible.elim blocked.2.1 blocked.2.2.1
      | error e =>
        rw [outcome] at first
        have kept : (matchChallenge db t1 m1 n secret).1 = db := first
        have refused := not_or.mp (finalise_refused stored outcome named)
        rw [kept,match_answered found]
        by_cases expired : row.expiresAt < t2
        · rw [if_pos expired]
          have changed : ¬ SameContents (Access.setChallenge db row.id .expired row.completedAt) db :=
            settled_differs stored pending (by decide) rfl
          exact iff_of_false changed (not_not.mpr ⟨Int.not_lt.mp late,refused.1,refused.2,
            Or.inl expired⟩)
        · rw [if_neg expired]
          cases second : Access.finaliseMapping db t2 m2 row with
          | ok db' =>
            have mappable := ((finalise_mapping_iff stored named).mp ⟨db',second⟩).resolve_left refused.1
            have changed : ¬ SameContents db' db :=
              settled_differs stored pending (by decide) (finalised_rows second)
            exact iff_of_false changed (not_not.mpr ⟨Int.not_lt.mp late,refused.1,refused.2,
              Or.inr mappable⟩)
          | error e =>
            have again : ¬ Mappable db row.userId n m2 :=
              fun mappable => finalise_refused stored second named (Or.inr mappable)
            exact iff_of_true rfl fun blocked => blocked.2.2.2.elim expired again

end

/-! The message, again. -/

section
variable {pf : Platform} {db : Db} {n : Text} {t1 t2 : Time} {m1 m2 : Uuid}

theorem handle_user_mapping_secret (db : Db) (now : Time) (mappingId : Uuid) (n : Text)
    (value : Json) : (handleUserMapping db now mappingId n value).1 =
      match secretOf n value with
      | none => db
      | some secret => (matchChallenge db now mappingId n secret).1 := by
  cases value with
  | obj doc =>
    unfold handleUserMapping secretOf
    dsimp only
    cases Dict.get? "secret_key".toList doc with
    | none => rfl
    | some secret =>
      dsimp only
      cases secret with
      | str s =>
        cases s with
        | nil => rfl
        | cons c cs => cases claimsOtherNode n doc <;> rfl
      | _ =>
        dsimp only
        split
        · rfl
        · split <;> rfl
  | _ => rfl

theorem handle_user_mapping_again (value : Json) :
    SameContents (handleUserMapping (handleUserMapping db t1 m1 n value).1 t2 m2 n value).1
        (handleUserMapping db t1 m1 n value).1 ↔
      ¬ ∃ secret row, secretOf n value = some secret ∧ answered db n secret = [row] ∧
        t1 ≤ row.expiresAt ∧ ¬ Access.Owns db row.userId n ∧ ¬ Mappable db row.userId n m1 ∧
        (row.expiresAt < t2 ∨ Mappable db row.userId n m2) := by
  rw [handle_user_mapping_secret,handle_user_mapping_secret]
  cases found : secretOf n value with
  | none => simp [SameContents]
  | some secret =>
    dsimp only
    rw [match_challenge_again]
    simp

end

/-- A message that carries state and is dispatched again leaves the database as
    the first dispatch did, unless it is a mapping message that meanwhile ran
    out, or became possible. -/
theorem redelivery_harmless_iff (pf : Platform) (parsed : ParsedKeys pf) (db : Db)
    (t1 t2 : Time) (m1 m2 : Uuid) {topic n suffix : Text} (payload : Bytes)
    (topical : splitTopic topic = some (n,suffix)) (carries : suffix ∈ stateSuffixes) :
    SameContents (dispatch pf (dispatch pf db t1 m1 topic payload) t2 m2 topic payload)
        (dispatch pf db t1 m1 topic payload) ↔
      ¬ (suffix = Topics.userMapping ∧ Unfinished pf db n payload t1 t2 m1 m2) := by
  cases body : parsePayload pf payload with
  | none =>
    have dropped : ∀ d now m, dispatch pf d now m topic payload = d := by
      intro d now m
      simp only [dispatch, topical, body]
    rw [dropped,dropped]
    refine iff_of_true rfl ?_
    rintro ⟨-,secret,row,found,-⟩
    rw [body] at found
    cases found
  | some value =>
    have handled : ∀ d now m, dispatch pf d now m topic payload =
        (handle pf d now m n suffix value).1 := by
      intro d now m
      simp only [dispatch, topical, body]
    rw [handled,handled]
    have keys : ∀ doc, value = .obj doc → (Dict.keys doc).Nodup ∧
        ∀ device params, (device,Json.obj params) ∈ doc → (Dict.keys params).Nodup := by
      intro doc object
      subst object
      apply parsed payload doc
      unfold parsePayload at body
      split at body
      · cases body
      · exact body
    simp only [stateSuffixes, List.mem_cons, List.not_mem_nil, or_false] at carries
    rcases carries with config | shadow | initial | mapping
    · subst config
      simp only [handle, if_true]
      rw [handle_config_again]
      exact iff_of_true rfl fun blocked => absurd blocked.1 (by decide)
    · subst shadow
      simp only [handle, show ¬ Topics.paramsLocal = Topics.config by decide, if_false, true_or,
        if_true]
      rw [handle_params_local_again keys]
      exact iff_of_true rfl fun blocked => absurd blocked.1 (by decide)
    · subst initial
      simp only [handle, show ¬ Topics.paramsLocalInit = Topics.config by decide, if_false, or_true,
        if_true]
      rw [handle_params_local_again keys]
      exact iff_of_true rfl fun blocked => absurd blocked.1 (by decide)
    · subst mapping
      simp only [handle, show ¬ Topics.userMapping = Topics.config by decide,
        show ¬ (Topics.userMapping = Topics.paramsLocal ∨
          Topics.userMapping = Topics.paramsLocalInit) by decide, if_false, if_true]
      rw [handle_user_mapping_again]
      simp only [Unfinished, body, Option.bind_some, true_and]

def bodyOf (s : String) : Bytes := s.toList.map fun c => UInt8.ofNat c.toNat

def secretBody : Bytes := bodyOf "\x7b\"secret_key\":\"s3cret\"\x7d"
def powerBody : Bytes := bodyOf "\x7b\"Light\":\x7b\"power\":true\x7d\x7d"

def platform : Platform := {Deployment.platform with
  jsonLoads := fun body =>
    if body = secretBody then some (.obj [("secret_key",.str "s3cret")])
    else if body = powerBody then some (.obj [("Light",.obj [("power",.bool true)])])
    else none}

theorem platform_keys : ParsedKeys platform := by
  intro body doc loaded
  simp only [platform] at loaded
  split at loaded
  · cases loaded
    refine ⟨by decide,?_⟩
    intro device params member
    simp at member
  · split at loaded
    · cases loaded
      refine ⟨by decide,?_⟩
      intro device params member
      simp only [List.mem_singleton, Prod.mk.injEq, Json.obj.injEq] at member
      rw [member.2]
      decide
    · cases loaded

def requested : Db :=
  let account : User := Deployment.account 1 "ana@example.com"
  let accounts : Db := {users := .one account}
  (Access.requestLegacyMapping accounts 0 5 Deployment.token16 1 "n1" "s3cret" "add").1

theorem report_redelivered : SameContents
    (dispatch platform (dispatch platform requested 0 30
      (Topics.nodeTopic "n1" Topics.paramsLocal) powerBody) (hours 1) 31
      (Topics.nodeTopic "n1" Topics.paramsLocal) powerBody)
    (dispatch platform requested 0 30 (Topics.nodeTopic "n1" Topics.paramsLocal) powerBody) :=
  (redelivery_harmless_iff platform platform_keys requested 0 (hours 1) 30 31 powerBody
    (by decide : splitTopic (Topics.nodeTopic "n1" Topics.paramsLocal) =
      some ("n1".toList,Topics.paramsLocal)) (by decide)).mpr fun blocked =>
    absurd blocked.1 (by decide)

def mappingTopic : Text := Topics.nodeTopic "n1" Topics.userMapping

def mappedOnce : Db := dispatch platform requested 0 30 mappingTopic secretBody
def mappedTwice : Db := dispatch platform mappedOnce (hours 2) 31 mappingTopic secretBody

/-- The first copy of the mapping message fails on the missing node and leaves
    the challenge pending; the second copy marks it expired. -/
theorem mapping_redelivered_late : splitTopic mappingTopic = some ("n1".toList,Topics.userMapping) ∧
    mappedOnce.mappingChallenges.rows.map (·.status) = [.pending] ∧
    mappedTwice.mappingChallenges.rows.map (·.status) = [.expired] ∧
    ¬ SameContents mappedTwice mappedOnce := by
  have once : mappedOnce.mappingChallenges.rows.map (·.status) = [.pending] := by decide +kernel
  have twice : mappedTwice.mappingChallenges.rows.map (·.status) = [.expired] := by
    decide +kernel
  refine ⟨by decide,once,twice,?_⟩
  intro same
  have rows := congrArg (fun d => d.mappingChallenges.rows.map (·.status)) same
  simp only [untimed, Table.update, if_true, List.map_map] at rows
  have statuses : mappedTwice.mappingChallenges.rows.map (·.status) =
      mappedOnce.mappingChallenges.rows.map (·.status) := rows
  rw [once,twice] at statuses
  cases statuses

end RainmakerServer.StateRedelivery
