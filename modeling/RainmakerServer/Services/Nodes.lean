import RainmakerServer.Models

/-!
What a device reports: its configuration, its parameter shadow and its time
series. Both upserts are cut at their two database steps, the read of the row
and the commit. An UPDATE is sent only when the assigned document differs from
the one read, as the ORM compares them.
-/
namespace RainmakerServer.Nodes
open Tables

/-! Configuration. -/

/-- A version that is absent or null is NULL; only text fits the column. -/
def configVersion (payload : JsonObject) : Except Exc (Option Text) :=
  match Dict.get? "config_version".toList payload with
  | none => .ok none
  | some .null => .ok none
  | some (.str s) => .ok (some s)
  | some _ => .error (.database .dataError)

def readConfig (db : Db) (nodeId : Text) : Option NodeConfig :=
  db.nodeConfigs.rows.find? fun r => r.nodeId == nodeId

/-- `seen` is the row the query returned. Only assigned columns that differ
    from it are written. -/
def commitConfig (db : Db) (nodeId : Text) (seen : Option NodeConfig) (payload : JsonObject) :
    Except Exc Db :=
  match configVersion payload with
  | .error e => .error e
  | .ok version =>
    let row : NodeConfig := ⟨nodeId,version,payload⟩
    match seen with
    | none => commitInsert db.nodeConfigs row (fun r => db.hasNode r.nodeId)
        fun t => {db with nodeConfigs := t}
    | some existing =>
      if Schema.fits row = false then .error (.database .dataError)
      else
        let same := Json.pyEq (.obj payload) (.obj existing.payload)
        let t := db.nodeConfigs.update (fun r => r.nodeId == nodeId)
          (fun r => {r with
            configVersion := if version = existing.configVersion then r.configVersion
              else version.map (cut 32),
            payload := if same then r.payload else payload}) (fun _ _ => rfl) fun _ h => h
        .ok {db with nodeConfigs := t}

def upsertNodeConfig (db : Db) (nodeId : Text) (payload : JsonObject) : Except Exc Db :=
  commitConfig db nodeId (readConfig db nodeId) payload

/-! Parameter shadow. -/

def mergeEntry (merged : JsonObject) (entry : Text × Json) : JsonObject :=
  match entry.2, Dict.get? entry.1 merged with
  | .obj params, some (.obj current) => Dict.set entry.1 (.obj (Dict.update current params)) merged
  | value, _ => Dict.set entry.1 value merged

/-- Deep-merge two layers of params (device → {param: value}). -/
def mergeParams (current update : JsonObject) : JsonObject := update.foldl mergeEntry current

def readShadow (db : Db) (nodeId : Text) : Option NodeParamsShadow :=
  db.nodeParamsShadow.rows.find? fun r => r.nodeId == nodeId

def setShadow (db : Db) (nodeId : Text) (payload : JsonObject) : Db :=
  let t := db.nodeParamsShadow.update (fun r => r.nodeId == nodeId)
    (fun r => {r with payload := payload}) (fun _ _ => rfl) fun _ h => h
  {db with nodeParamsShadow := t}

def commitShadow (db : Db) (nodeId : Text) (seen : Option NodeParamsShadow) (params : JsonObject) :
    Except Exc Db :=
  match seen with
  | none => commitInsert db.nodeParamsShadow ⟨nodeId,params⟩ (fun r => db.hasNode r.nodeId)
      fun t => {db with nodeParamsShadow := t}
  | some existing =>
    let merged := mergeParams existing.payload params
    if Json.pyEq (.obj merged) (.obj existing.payload) then .ok db
    else if Json.storableFields merged = false then .error (.database .dataError)
    else .ok (setShadow db nodeId merged)

def upsertParamsShadow (db : Db) (nodeId : Text) (params : JsonObject) : Except Exc Db :=
  commitShadow db nodeId (readShadow db nodeId) params

/-- `refresh` after the commit of an upsert: the row is looked up by the
    identifier the handler was given, not by the one that was stored. -/
def refreshed (found : Db → Bool) (reply : Reply Unit) : Reply Unit :=
  match reply.2 with
  | .error _ => reply
  | .ok _ => if found reply.1 then reply else raise reply.1 .invalidRequestError

@[simp] theorem refreshed_db (found : Db → Bool) (reply : Reply Unit) :
    (refreshed found reply).1 = reply.1 := by
  unfold refreshed
  split
  · rfl
  · split
    · rfl
    · rfl

theorem refreshed_ok {found : Db → Bool} {reply : Reply Unit}
    (ok : (refreshed found reply).2 = .ok ()) : reply.2 = .ok () ∧ found reply.1 = true := by
  unfold refreshed at ok
  split at ok
  · rename_i failed
    rw [failed] at ok
    cases ok
  · rename_i passed
    split at ok
    · rename_i there
      exact ⟨ok,there⟩
    · cases ok

/-! Time series. -/

def truncate (q : Rat) : Int := q.num.tdiv q.den

def pyInt (pf : Platform) : Json → Except Exc Int
  | .bool b => .ok (if b then 1 else 0)
  | .int i => .ok i
  | .float (.fin q) => .ok (truncate q)
  | .float (.inf _) => .error .overflowError
  | .float .nan => .error .valueError
  | .str s => match pf.intOfText s with
    | some i => .ok i
    | none => .error .valueError
  | _ => .error .typeError

def pyFloat (pf : Platform) : Json → Except Exc PyFloat
  | .bool b => .ok (.fin (if b then 1 else 0))
  | .int i => match pf.floatOfInt i with
    | some f => .ok f
    | none => .error .overflowError
  | .float f => .ok f
  | .str s => match pf.floatOfText s with
    | some f => .ok f
    | none => .error .valueError
  | _ => .error .typeError

structure Columns where
  valueInt : Option Int := none
  valueFloat : Option PyFloat := none
  valueBool : Option Bool := none
  valueStr : Option Text := none
  deriving DecidableEq

def coerce (pf : Platform) (dt v : Json) : Except Exc Columns :=
  match dt with
  | .arr _ => .error .typeError
  | .obj _ => .error .typeError
  | .str s =>
    if s = "int".toList then (pyInt pf v).map fun i => {valueInt := some i}
    else if s = "float".toList ∨ s = "number".toList then
      (pyFloat pf v).map fun f => {valueFloat := some f}
    else if s = "bool".toList then .ok {valueBool := some v.truthy}
    else .ok {valueStr := some (pf.strOf v)}
  | _ => .ok {valueStr := some (pf.strOf v)}

def bigint : Option Int → Bool
  | none => true
  | some i => decide (-9223372036854775808 ≤ i ∧ i ≤ 9223372036854775807)

def noNul : Option Text → Bool
  | none => true
  | some v => !v.contains '\x00'

def tsRow (nodeId deviceName paramName : Text) (dt : Json) (ts : Int) (c : Columns) :
    Except Exc TsData :=
  match dt with
  | .str s =>
    if assignable 64 nodeId && assignable 64 deviceName && assignable 64 paramName &&
        assignable 16 s && bigint c.valueInt && noNul c.valueStr then
      .ok ⟨ts,cut 64 nodeId,cut 64 deviceName,cut 64 paramName,cut 16 s,c.valueInt,c.valueFloat,
        c.valueBool,c.valueStr⟩
    else .error (.database .dataError)
  | _ => .error (.database .dataError)

def coerceAll (pf : Platform) (dt : Json) : List (Int × Json) → Except Exc (List (Int × Columns))
  | [] => .ok []
  | (ts,v) :: rest => match coerce pf dt v with
    | .error e => .error e
    | .ok c => match coerceAll pf dt rest with
      | .error e => .error e
      | .ok cs => .ok ((ts,c) :: cs)

def tsRows (nodeId deviceName paramName : Text) (dt : Json) :
    List (Int × Columns) → Except Exc (List TsData)
  | [] => .ok []
  | (ts,c) :: rest => match tsRow nodeId deviceName paramName dt ts c with
    | .error e => .error e
    | .ok r => match tsRows nodeId deviceName paramName dt rest with
      | .error e => .error e
      | .ok rs => .ok (r :: rs)

/-- All points of a call are converted first and stored by one commit. -/
def insertTsdata (pf : Platform) (db : Db) (nodeId deviceName paramName : Text) (dt : Json)
    (points : List (Int × Json)) : Except Exc Db :=
  if points.isEmpty then .ok db
  else match coerceAll pf dt points with
  | .error e => .error e
  | .ok cs => match tsRows nodeId deviceName paramName dt cs with
    | .error e => .error e
    | .ok rs => .ok {db with tsdata := db.tsdata ++ rs}

/-- `datetime.fromtimestamp(i, tz=UTC)`: years 1 to 9999, and an operating
    system error or an overflow far outside. -/
def fromTimestamp (i : Int) : Except Exc Int :=
  if i < -9223372036854775808 ∨ 9223372036854775807 < i then .error .overflowError
  else if i < -67768040609740800 ∨ 67768036191676799 < i then .error .osError
  else if i < -62135596800 ∨ 253402300799 < i then .error .valueError
  else .ok i

/-! Frames. -/

structure Reports (n : Text) (db db' : Db) : Prop where
  frame : ∃ nodes configs shadows points, db' = {db with
    nodes := nodes, nodeConfigs := configs, nodeParamsShadow := shadows, tsdata := points}
  kept : ∀ m, db.hasNode m = true → db'.hasNode m = true
  nodes : db'.nodes.rows.filter (·.nodeId != n) = db.nodes.rows.filter (·.nodeId != n)
  configs : db'.nodeConfigs.rows.filter (·.nodeId != n) =
    db.nodeConfigs.rows.filter (·.nodeId != n)
  shadows : db'.nodeParamsShadow.rows.filter (·.nodeId != n) =
    db.nodeParamsShadow.rows.filter (·.nodeId != n)
  points : db'.tsdata.filter (·.nodeId != n) = db.tsdata.filter (·.nodeId != n)

namespace Reports
variable {n : Text} {db db' db'' : Db}

theorem refl (n : Text) (db : Db) : Reports n db db :=
  ⟨⟨_,_,_,_,rfl⟩,fun _ h => h,rfl,rfl,rfl,rfl⟩

theorem trans (first : Reports n db db') (second : Reports n db' db'') : Reports n db db'' where
  frame := by
    obtain ⟨_,_,_,_,eq⟩ := first.frame
    obtain ⟨nodes,configs,shadows,points,eq'⟩ := second.frame
    subst eq
    exact ⟨nodes,configs,shadows,points,eq'⟩
  kept m h := second.kept m (first.kept m h)
  nodes := second.nodes.trans first.nodes
  configs := second.configs.trans first.configs
  shadows := second.shadows.trans first.shadows
  points := second.points.trans first.points

end Reports

theorem commit_config_reports {db db' : Db} {n : Text} {seen : Option NodeConfig}
    {payload : JsonObject} (ok : commitConfig db n seen payload = .ok db') :
    Reports (cut 64 n) db db' := by
  unfold commitConfig at ok
  split at ok
  · cases ok
  · dsimp only at ok
    split at ok
    · obtain ⟨t,inserted,-,eq⟩ := commitInsert_ok ok
      subst eq
      exact ⟨⟨_,_,_,_,rfl⟩,fun _ h => h,rfl,Table.insert_filter inserted (by simp [Schema.stored]),rfl,rfl⟩
    · split at ok
      · cases ok
      · cases ok
        refine ⟨⟨_,_,_,_,rfl⟩,fun _ h => h,rfl,?_,rfl,rfl⟩
        dsimp only
        rw [Table.update_filter]
        intro r stored here
        have own : cut 64 r.nodeId = r.nodeId := cut_of_varchar (Table.holds_of_mem stored)
        rw [beq_iff_eq] at here
        simp [← here, own]

theorem commit_shadow_reports {db db' : Db} {n : Text} {seen : Option NodeParamsShadow}
    {params : JsonObject} (ok : commitShadow db n seen params = .ok db') :
    Reports (cut 64 n) db db' := by
  unfold commitShadow at ok
  split at ok
  · obtain ⟨t,inserted,-,eq⟩ := commitInsert_ok ok
    subst eq
    exact ⟨⟨_,_,_,_,rfl⟩,fun _ h => h,rfl,rfl,
      Table.insert_filter inserted (by simp [Schema.stored]),rfl⟩
  · dsimp only at ok
    split at ok
    · cases ok
      exact Reports.refl _ db
    · split at ok
      · cases ok
      · cases ok
        refine ⟨⟨_,_,_,_,rfl⟩,fun _ h => h,rfl,rfl,?_,rfl⟩
        dsimp only [setShadow]
        rw [Table.update_filter]
        intro r stored here
        have own : cut 64 r.nodeId = r.nodeId := cut_of_varchar (Table.holds_of_mem stored)
        rw [beq_iff_eq] at here
        simp [← here, own]

theorem ts_rows_node {n deviceName paramName : Text} {dt : Json} {cs : List (Int × Columns)}
    {rs : List TsData} (ok : tsRows n deviceName paramName dt cs = .ok rs) :
    ∀ r ∈ rs, r.nodeId = cut 64 n := by
  induction cs generalizing rs with
  | nil =>
    cases ok
    simp
  | cons c cs ih =>
    simp only [tsRows] at ok
    split at ok
    · cases ok
    · rename_i row first
      split at ok
      · cases ok
      · rename_i rest later
        cases ok
        intro r member
        rcases List.mem_cons.mp member with here | there
        · subst here
          unfold tsRow at first
          split at first
          · split at first
            · cases first
              rfl
            · cases first
          · cases first
        · exact ih later r there

theorem insert_tsdata_reports {pf : Platform} {db db' : Db} {n deviceName paramName : Text}
    {dt : Json} {points : List (Int × Json)}
    (ok : insertTsdata pf db n deviceName paramName dt points = .ok db') :
    Reports (cut 64 n) db db' := by
  unfold insertTsdata at ok
  split at ok
  · cases ok
    exact Reports.refl _ db
  · split at ok
    · cases ok
    · split at ok
      · cases ok
      · rename_i rs built
        cases ok
        refine ⟨⟨_,_,_,_,rfl⟩,fun _ h => h,rfl,rfl,rfl,?_⟩
        have own : rs.filter (·.nodeId != cut 64 n) = [] := by
          rw [List.filter_eq_nil_iff]
          intro r member
          simp [ts_rows_node built r member]
        simp [List.filter_append, own]

end RainmakerServer.Nodes
