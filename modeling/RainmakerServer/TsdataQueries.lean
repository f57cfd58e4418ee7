import RainmakerServer.Lib.Runs
import RainmakerServer.Redelivery

/-!
What a raw query answers, beside what was reported. The points of a history are
kept in a log of their own, with the value each was converted to and under the
name it was reported by. The table is the image of the log, row for row. A
query selects the right points of it, but reads all of them from one column,
the one of the newest point of the series.
-/
namespace RainmakerServer.TsdataQueries
open Tables Runs Mqtt Nodes Tsdata Redelivery

/-! Raw queries. -/

def Raw (q : Query) : Prop := given q.aggregate = none ∨ given q.aggregateInterval = none

def inRange (q : Query) (ts : Int) : Bool := decide (q.startTime ≤ ts) && decide (ts ≤ q.endTime)

def selected (rows : List TsData) (q : Query) (deviceName paramName : Text) : List TsData :=
  ((series rows q.nodeId deviceName paramName).filter fun r => inRange q r.ts).take q.limit.toNat

/-- A query that names a series and can be carried out. -/
structure Asks (q : Query) (deviceName paramName : Text) : Prop where
  name : Split.cut '.' q.param = some (deviceName,paramName)
  node : bindable q.nodeId = true
  device : bindable deviceName = true
  param : bindable paramName = true
  limit : 0 ≤ q.limit

theorem raw_query_eq {pf : Platform} {ts : Timescale} {rows : List TsData} {q : Query}
    {deviceName paramName : Text} (raw : Raw q) (asks : Asks q deviceName paramName) :
    queryTsdata pf ts rows q = .ok ((selected rows q deviceName paramName).map fun r =>
      ⟨r.ts,(valueColumn (dataType rows q.nodeId deviceName paramName)).read r⟩) := by
  have within : ¬ q.limit < 0 := Int.not_lt.mpr asks.limit
  unfold queryTsdata selected
  rw [asks.name]
  simp only [asks.node, asks.device, asks.param, Bool.and_self, Bool.true_eq_false, if_false,
    limited, if_neg within, List.map_take]
  rcases raw with first | second
  · rw [first]
    rfl
  · rw [second]
    cases given q.aggregate <;> rfl

theorem raw_query_asks {pf : Platform} {ts : Timescale} {rows : List TsData} {q : Query}
    {records : List Record} (raw : Raw q) (answered : queryTsdata pf ts rows q = .ok records) :
    ∃ deviceName paramName, Asks q deviceName paramName := by
  unfold queryTsdata at answered
  split at answered
  · cases answered
  · rename_i deviceName paramName name
    split at answered
    · cases answered
    · rename_i carried
      simp only [Bool.not_eq_false, Bool.and_eq_true] at carried
      refine ⟨deviceName,paramName,name,carried.1.1,carried.1.2,carried.2,?_⟩
      by_contra negative
      have refused : q.limit < 0 := Int.not_le.mp negative
      rcases raw with first | second
      · simp only [first, limited, if_pos refused] at answered
        cases answered
      · cases first : given q.aggregate with
        | none =>
          simp only [first, limited, if_pos refused] at answered
          cases answered
        | some aggregate =>
          simp only [first, second, limited, if_pos refused] at answered
          cases answered

/-! The points of a history of inserts. -/

structure Point where
  nodeId : Text
  deviceName : Text
  paramName : Text
  ts : Int
  dataType : Text
  value : Value

def coerced (c : Columns) : Value :=
  match c.valueInt, c.valueFloat, c.valueBool, c.valueStr with
  | some i, _, _, _ => .int i
  | _, some f, _, _ => .float f
  | _, _, some b, _ => .bool b
  | _, _, _, some s => .str s
  | _, _, _, _ => .null

structure InsertCall where
  nodeId : Text
  deviceName : Text
  paramName : Text
  dataType : Json
  points : List (Int × Json)

section
variable (pf : Platform)

def insertStep (db : Db) (c : InsertCall) : Db :=
  match insertTsdata pf db c.nodeId c.deviceName c.paramName c.dataType c.points with
  | .error _ => db
  | .ok db' => db'

def ingestedPoint (c : InsertCall) (point : Int × Json) : Option Point :=
  match c.dataType, coerce pf c.dataType point.2 with
  | .str s, .ok columns =>
    some ⟨cut 64 c.nodeId,cut 64 c.deviceName,cut 64 c.paramName,point.1,cut 16 s,coerced columns⟩
  | _, _ => none

def ingestedBy (c : InsertCall) : List Point :=
  match callRows pf c.nodeId c.deviceName c.paramName c.dataType c.points with
  | .error _ => []
  | .ok _ => c.points.filterMap (ingestedPoint pf c)

def ingested (calls : List InsertCall) : List Point := calls.flatMap (ingestedBy pf)

end

def pointOfRow (r : TsData) : Point :=
  ⟨r.nodeId,r.deviceName,r.paramName,r.ts,r.dataType,(valueColumn r.dataType).read r⟩

def Typed (r : TsData) : Prop :=
  ∀ column : Column, column.read r ≠ .null ↔ column = valueColumn r.dataType

section
variable {pf : Platform} {n deviceName paramName : Text} {dt v : Json} {ts : Int} {c : Columns}
  {row : TsData}

theorem coerce_ok {s : Text} (converted : coerce pf (.str s) v = .ok c) :
    (valueColumn s = .valueInt ∧ ∃ i, c = {valueInt := some i}) ∨
    (valueColumn s = .valueFloat ∧ ∃ f, c = {valueFloat := some f}) ∨
    (valueColumn s = .valueBool ∧ ∃ b, c = {valueBool := some b}) ∨
    valueColumn s = .valueStr ∧ ∃ t, c = {valueStr := some t} := by
  unfold coerce at converted
  dsimp only at converted
  unfold valueColumn
  split at converted
  · rename_i int
    left
    cases read : pyInt pf v with
    | error e =>
      rw [read] at converted
      cases converted
    | ok i =>
      rw [read] at converted
      cases converted
      exact ⟨if_pos int,i,rfl⟩
  · rename_i int
    rw [if_neg int]
    split at converted
    · rename_i float
      right
      left
      cases read : pyFloat pf v with
      | error e =>
        rw [read] at converted
        cases converted
      | ok f =>
        rw [read] at converted
        cases converted
        exact ⟨if_pos float,f,rfl⟩
    · rename_i float
      rw [if_neg float]
      split at converted
      · rename_i bool
        cases converted
        exact Or.inr (Or.inr (Or.inl ⟨if_pos bool,_,rfl⟩))
      · rename_i bool
        cases converted
        exact Or.inr (Or.inr (Or.inr ⟨if_neg bool,_,rfl⟩))

theorem value_column_cut (s : Text) : valueColumn (cut 16 s) = valueColumn s := by
  rcases Nat.lt_or_ge 16 s.length with long | short
  · have stored : (cut 16 s).length = 16 := List.length_take_of_le (Nat.le_of_lt long)
    have apart : ∀ t : Text, t.length < 16 → cut 16 s ≠ t ∧ s ≠ t := by
      intro t bound
      refine ⟨?_,?_⟩ <;> intro same <;> subst same <;> omega
    have int := apart "int" (by decide)
    have float := apart "float" (by decide)
    have number := apart "number" (by decide)
    have bool := apart "bool" (by decide)
    unfold valueColumn
    rw [if_neg int.1,if_neg (not_or.mpr ⟨float.1,number.1⟩),if_neg bool.1,if_neg int.2,
      if_neg (not_or.mpr ⟨float.2,number.2⟩),if_neg bool.2]
  · rw [cut,List.take_of_length_le short]

theorem coerced_row (converted : coerce pf dt v = .ok c)
    (built : tsRow n deviceName paramName dt ts c = .ok row) :
    Typed row ∧ (valueColumn row.dataType).read row = coerced c := by
  obtain ⟨s,text,-,-,-,eq⟩ := ts_row_ok built
  subst text
  subst eq
  unfold Typed
  rcases coerce_ok converted with ⟨own,i,filled⟩ | ⟨own,f,filled⟩ | ⟨own,b,filled⟩ | ⟨own,t,filled⟩
  all_goals
    subst filled
    rw [value_column_cut,own]
    refine ⟨?_,rfl⟩
    intro column
    cases column <;> simp [Column.read, orNull]

theorem call_rows_points {call : InsertCall} {points : List (Int × Json)} {rows : List TsData}
    (ok : callRows pf call.nodeId call.deviceName call.paramName call.dataType points = .ok rows) :
    rows.map pointOfRow = points.filterMap (ingestedPoint pf call) ∧ ∀ row ∈ rows, Typed row := by
  induction points generalizing rows with
  | nil =>
    cases ok
    simp
  | cons point points ih =>
    obtain ⟨c,row,rest,converted,built,later,eq⟩ := call_rows_cons.mp ok
    obtain ⟨same,typed⟩ := ih later
    obtain ⟨own,read⟩ := coerced_row converted built
    obtain ⟨s,text,-,-,-,fields⟩ := ts_row_ok built
    have first : ingestedPoint pf call point = some (pointOfRow row) := by
      unfold ingestedPoint pointOfRow
      rw [text] at converted ⊢
      simp only [converted, read]
      rw [fields]
    subst eq
    constructor
    · rw [List.map_cons,List.filterMap_cons,first,same]
    · intro r member
      rcases List.mem_cons.mp member with here | there
      · rw [here]
        exact own
      · exact typed r there

end

theorem run_points (pf : Platform) (db : Db) (calls : List InsertCall) :
    ∃ rows, (run (insertStep pf) db calls).tsdata = db.tsdata ++ rows ∧
      rows.map pointOfRow = ingested pf calls ∧ ∀ row ∈ rows, Typed row := by
  induction calls generalizing db with
  | nil => exact ⟨[],by simp [run],rfl,by simp⟩
  | cons call calls ih =>
    obtain ⟨later,table,same,typed⟩ := ih (insertStep pf db call)
    simp only [run, ingested, List.flatMap_cons, table]
    simp only [insertStep, insert_tsdata_rows, ingestedBy]
    cases stored : callRows pf call.nodeId call.deviceName call.paramName call.dataType
      call.points with
    | error e => exact ⟨later,rfl,same,typed⟩
    | ok rows =>
      obtain ⟨first,own⟩ := call_rows_points stored
      refine ⟨rows ++ later,?_,?_,?_⟩
      · simp [Except.map, withRows]
      · rw [List.map_append,first,same]
        rfl
      · intro row member
        rcases List.mem_append.mp member with here | there
        · exact own row here
        · exact typed row there

/-! The values of an answer. -/

def asked (log : List Point) (q : Query) : List Point :=
  match Split.cut '.' q.param with
  | none => []
  | some (deviceName,paramName) => log.filter fun x => x.nodeId == q.nodeId &&
      x.deviceName == deviceName && x.paramName == paramName

/-- The points that a raw query has to return, in their order. -/
def chosen (log : List Point) (q : Query) : List Point :=
  (((asked log q).mergeSort fun a b => decide (a.ts ≤ b.ts)).filter fun x => inRange q x.ts).take
    q.limit.toNat

def newest (log : List Point) (q : Query) : Option Point :=
  ((asked log q).mergeSort fun a b => decide (b.ts ≤ a.ts)).head?

section
variable {rows : List TsData} {q : Query} {deviceName paramName : Text}

theorem asked_rows (asks : Asks q deviceName paramName) : asked (rows.map pointOfRow) q =
    (rows.filter fun r => r.nodeId == q.nodeId && r.deviceName == deviceName &&
      r.paramName == paramName).map pointOfRow := by
  unfold asked
  rw [asks.name]
  dsimp only
  rw [List.filter_map]
  rfl

theorem chosen_rows (asks : Asks q deviceName paramName) :
    chosen (rows.map pointOfRow) q = (selected rows q deviceName paramName).map pointOfRow := by
  unfold chosen selected series
  rw [asked_rows asks,← List.map_mergeSort (r := fun a b => decide (a.ts ≤ b.ts)) (by intro a _ b _; rfl)]
  rw [List.filter_map,List.map_take]
  rfl

theorem newest_rows (asks : Asks q deviceName paramName) :
    dataType rows q.nodeId deviceName paramName =
      match newest (rows.map pointOfRow) q with
      | none => "int"
      | some last => last.dataType := by
  unfold newest dataType
  rw [asked_rows asks,← List.map_mergeSort (r := fun a b => decide (b.ts ≤ a.ts)) (by intro a _ b _; rfl)]
  cases (rows.filter fun r => r.nodeId == q.nodeId && r.deviceName == deviceName &&
    r.paramName == paramName).mergeSort fun a b => decide (b.ts ≤ a.ts) with
  | nil => rfl
  | cons r rest => rfl

theorem selected_stored {r : TsData} (member : r ∈ selected rows q deviceName paramName) :
    r ∈ rows :=
  List.mem_of_mem_filter (List.mem_mergeSort.mp
    (List.mem_of_mem_filter (List.mem_of_mem_take member)))

theorem typed_read {r : TsData} {column : Column} (typed : Typed r) :
    column.read r = (valueColumn r.dataType).read r ↔ column = valueColumn r.dataType := by
  constructor
  · intro same
    apply (typed column).mp
    rw [same]
    exact (typed (valueColumn r.dataType)).mpr rfl
  · intro same
    rw [same]

theorem asked_logged {log : List Point} {x : Point} (member : x ∈ asked log q) : x ∈ log := by
  unfold asked at member
  split at member
  · cases member
  · exact List.mem_of_mem_filter member

theorem chosen_asked {log : List Point} {x : Point} (member : x ∈ chosen log q) : x ∈ asked log q :=
  List.mem_mergeSort.mp (List.mem_of_mem_filter (List.mem_of_mem_take member))

theorem newest_asked {log : List Point} {x : Point} (found : newest log q = some x) :
    x ∈ asked log q :=
  List.mem_mergeSort.mp (List.mem_of_mem_head? found)

theorem newest_of_chosen {log : List Point} {x : Point} (member : x ∈ chosen log q) :
    ∃ last, newest log q = some last := by
  unfold newest
  cases sorted : (asked log q).mergeSort fun a b => decide (b.ts ≤ a.ts) with
  | nil =>
    have none : x ∈ (asked log q).mergeSort fun a b => decide (b.ts ≤ a.ts) :=
      List.mem_mergeSort.mpr (chosen_asked member)
    rw [sorted] at none
    cases none
  | cons last rest => exact ⟨last,rfl⟩

end

/-- Every returned record carries the value of its own point, and none is null,
    exactly when the chosen points are stored in the column of the newest one. -/
theorem own_values_iff (pf : Platform) (ts : Timescale) (db : Db) (calls : List InsertCall)
    (q : Query) (records : List Record) (fresh : db.tsdata = []) (raw : Raw q)
    (answered : queryTsdata pf ts (run (insertStep pf) db calls).tsdata q = .ok records) :
    (records = (chosen (ingested pf calls) q).map (fun x => ⟨x.ts,x.value⟩) ∧
      ∀ record ∈ records, record.v ≠ .null) ↔
    ∀ x ∈ chosen (ingested pf calls) q, ∀ last, newest (ingested pf calls) q = some last →
      valueColumn x.dataType = valueColumn last.dataType := by
  obtain ⟨rows,table,log,typed⟩ := run_points pf db calls
  rw [fresh,List.nil_append] at table
  rw [table] at answered
  obtain ⟨deviceName,paramName,asks⟩ := raw_query_asks raw answered
  rw [raw_query_eq raw asks] at answered
  cases answered
  have stored : ∀ r ∈ selected rows q deviceName paramName, Typed r := by
    intro r member
    exact typed r (selected_stored member)
  rw [← log]
  constructor
  · intro own x member last found
    rw [chosen_rows asks] at own member
    obtain ⟨r,here,eq⟩ := List.mem_map.mp member
    subst eq
    have same := own.1
    rw [List.map_map] at same
    have value := List.map_inj_left.mp same r here
    simp only [Function.comp, pointOfRow, Record.mk.injEq, true_and] at value
    rw [newest_rows asks,found] at value
    exact ((typed_read (stored r here)).mp value).symm
  · intro agree
    have column : ∀ r ∈ selected rows q deviceName paramName,
        valueColumn (dataType rows q.nodeId deviceName paramName) = valueColumn r.dataType := by
      intro r here
      have member : pointOfRow r ∈ chosen (rows.map pointOfRow) q := by
        rw [chosen_rows asks]
        exact List.mem_map.mpr ⟨r,here,rfl⟩
      obtain ⟨last,found⟩ := newest_of_chosen member
      rw [newest_rows asks,found]
      exact (agree _ member last found).symm
    constructor
    · rw [chosen_rows asks,List.map_map]
      apply List.map_congr_left
      intro r here
      rw [column r here]
      rfl
    · intro record member
      obtain ⟨r,here,eq⟩ := List.mem_map.mp member
      subst eq
      exact ((stored r here) _).mpr (column r here)

def powerQuery : Query := ⟨"n1","Light.power",0,300,none,none,200⟩

theorem power_query_asks : Asks powerQuery "Light" "power" :=
  ⟨by decide,by decide,by decide,by decide,by decide⟩

def steadyType : List InsertCall :=
  [⟨"n1","Light","power",.str "int",[(100,.int 5)]⟩,
   ⟨"n1","Light","power",.str "int",[(200,.int 7)]⟩]

theorem steady_type_values :
    ∃ records, queryTsdata Deployment.platform Deployment.timescale
        (run (insertStep Deployment.platform) Db.empty steadyType).tsdata powerQuery = .ok records ∧
      records = (chosen (ingested Deployment.platform steadyType) powerQuery).map
        (fun x => ⟨x.ts,x.value⟩) ∧ ∀ record ∈ records, record.v ≠ .null := by
  have answered := @raw_query_eq Deployment.platform Deployment.timescale
    (run (insertStep Deployment.platform) Db.empty steadyType).tsdata powerQuery "Light" "power"
    (Or.inl rfl) power_query_asks
  have ints : ∀ x ∈ ingested Deployment.platform steadyType, x.dataType = "int".toList := by
    decide +kernel
  refine ⟨_,answered,(own_values_iff _ _ _ steadyType powerQuery _ rfl (Or.inl rfl)
    answered).mpr ?_⟩
  intro x member last found
  rw [ints x (asked_logged (chosen_asked member)),ints last (asked_logged (newest_asked found))]

def typeChange : List InsertCall :=
  [⟨"n1","Light","power",.str "int",[(100,.int 5)]⟩,
   ⟨"n1","Light","power",.str "bool",[(200,.bool true)]⟩]

def typeChangeRows : List TsData :=
  [⟨100,"n1","Light","power","int",some 5,none,none,none⟩,
   ⟨200,"n1","Light","power","bool",none,none,some true,none⟩]

/-- The first point is there with its value and is returned without it. -/
theorem type_change_hides_value :
    (ingested Deployment.platform typeChange).map (fun x => (x.ts,x.value)) =
      [(100,.int 5),(200,.bool true)] ∧
    queryTsdata Deployment.platform Deployment.timescale
      (run (insertStep Deployment.platform) Db.empty typeChange).tsdata powerQuery =
      .ok [⟨100,.null⟩,⟨200,.bool true⟩] := by
  have table : (run (insertStep Deployment.platform) Db.empty typeChange).tsdata =
      typeChangeRows := by decide +kernel
  have own : typeChangeRows.filter (fun r => r.nodeId == powerQuery.nodeId &&
      r.deviceName == "Light".toList && r.paramName == "power".toList) = typeChangeRows := by
    decide
  have sorted : typeChangeRows.mergeSort (fun a b => decide (a.ts ≤ b.ts)) = typeChangeRows :=
    List.mergeSort_of_pairwise (by decide)
  have reversed : typeChangeRows.mergeSort (fun a b => decide (b.ts ≤ a.ts)) =
      typeChangeRows.reverse := by
    simp [typeChangeRows, List.mergeSort]
  have last : dataType typeChangeRows powerQuery.nodeId "Light" "power" = "bool".toList := by
    unfold dataType
    rw [own,reversed]
    rfl
  refine ⟨by decide +kernel,?_⟩
  rw [raw_query_eq (Or.inl rfl) power_query_asks,table,last]
  unfold selected series
  rw [own,sorted]
  decide

/-! The points of a history of messages. -/

structure Reported where
  nodeId : Text
  name : Text
  ts : Int
  deriving DecidableEq

/-- A time-series message as it reaches the router. -/
structure Delivery where
  now : Time
  mappingId : Uuid
  topic : Text
  payload : Bytes
  nodeId : Text
  suffix : Text
  routed : splitTopic topic = some (nodeId,suffix)
  kind : OnTsdata suffix

section
variable (pf : Platform)

def deliver (db : Db) (d : Delivery) : Db := dispatch pf db d.now d.mappingId d.topic d.payload

def storedName (name : Text) : Text :=
  match Split.cut '.' name with
  | none => name
  | some (deviceName,paramName) => cut 64 deviceName ++ '.' :: cut 64 paramName

def seriesPoints (n : Text) (fields : JsonObject) (records : Except Exc (List Json)) :
    List Reported :=
  match field "name" (.str []) fields, records.bind (pointsOf pf) with
  | .str name, .ok points => if '.' ∈ name then points.map fun p => ⟨cut 64 n,storedName name,p.1⟩ else []
  | _, _ => []

def entryPoints (n : Text) : Json → List Reported
  | .obj entry => seriesPoints pf n entry (iterate (field "records" .null entry))
  | _ => []

def bulkPoints (n : Text) : List Json → List Reported
  | [] => []
  | entry :: rest => match entryRows pf n entry with
    | .error _ => []
    | .ok _ => entryPoints pf n entry ++ bulkPoints n rest

def messagePoints (n suffix : Text) : Json → List Reported
  | .obj fields =>
    if suffix = Topics.simpleTsdata then match seriesRows pf n fields (.ok [.obj fields]) with
      | .error _ => []
      | .ok _ => seriesPoints pf n fields (.ok [.obj fields])
    else match Dict.get? "ts_data".toList fields with
    | some (.arr entries) => bulkPoints pf n entries
    | _ => []
  | _ => []

def reportedBy (d : Delivery) : List Reported :=
  match parsePayload pf d.payload with
  | none => []
  | some value => messagePoints pf d.nodeId d.suffix value

def reported (ds : List Delivery) : List Reported := ds.flatMap (reportedBy pf)

end

def reportOfRow (r : TsData) : Reported := ⟨r.nodeId,r.deviceName ++ '.' :: r.paramName,r.ts⟩

section
variable {pf : Platform} {n suffix : Text}

theorem call_rows_reports {deviceName paramName : Text} {dt : Json} {points : List (Int × Json)}
    {rows : List TsData} (ok : callRows pf n deviceName paramName dt points = .ok rows) :
    rows.map reportOfRow = points.map fun p =>
      ⟨cut 64 n,cut 64 deviceName ++ '.' :: cut 64 paramName,p.1⟩ := by
  induction points generalizing rows with
  | nil =>
    cases ok
    rfl
  | cons point points ih =>
    obtain ⟨c,row,rest,converted,built,later,eq⟩ := call_rows_cons.mp ok
    obtain ⟨s,-,-,-,-,fields⟩ := ts_row_ok built
    subst eq
    rw [List.map_cons,List.map_cons,ih later,fields]
    rfl

theorem series_rows_reports {fields : JsonObject} {records : Except Exc (List Json)}
    {rows : List TsData} (ok : seriesRows pf n fields records = .ok rows) :
    rows.map reportOfRow = seriesPoints pf n fields records := by
  unfold seriesRows at ok
  unfold seriesPoints
  cases split : splitName (field "name" (.str []) fields) with
  | error e =>
    rw [split] at ok
    cases ok
  | ok parts =>
    rw [split] at ok
    cases parts with
    | none =>
      cases ok
      cases name : field "name" (.str []) fields with
      | str full =>
        rw [name] at split
        have undotted : '.' ∉ full := Split.cut_none_iff.mp (Except.ok.inj split)
        cases records.bind (pointsOf pf) with
        | error e => rfl
        | ok points => exact (if_neg undotted).symm
      | _ => rfl
    | some parts =>
      obtain ⟨deviceName,paramName⟩ := parts
      obtain ⟨full,name,cut⟩ := split_name_text split
      obtain ⟨whole,-⟩ := Split.cut_some cut
      have dotted : '.' ∈ full := by
        rw [whole]
        simp
      rw [name]
      cases records with
      | error e => cases ok
      | ok rs =>
        dsimp only [Except.bind] at ok ⊢
        cases read : pointsOf pf rs with
        | error e =>
          rw [read] at ok
          cases ok
        | ok points =>
          rw [read] at ok
          dsimp only at ok ⊢
          rw [if_pos dotted,call_rows_reports ok]
          simp only [storedName, cut]

theorem entry_rows_reports {entry : Json} {rows : List TsData}
    (ok : entryRows pf n entry = .ok rows) : rows.map reportOfRow = entryPoints pf n entry := by
  cases entry with
  | obj fields => exact series_rows_reports ok
  | _ => cases ok

theorem bulk_rows_reports {entries : List Json} :
    (bulkRows pf n entries).map reportOfRow = bulkPoints pf n entries := by
  induction entries with
  | nil => rfl
  | cons entry rest ih =>
    simp only [bulkRows, bulkPoints]
    cases built : entryRows pf n entry with
    | error e => rfl
    | ok rows =>
      dsimp only
      rw [List.map_append,entry_rows_reports built,ih]

theorem message_rows_reports {value : Json} :
    (messageRows pf n suffix value).map reportOfRow = messagePoints pf n suffix value := by
  cases value with
  | obj fields =>
    simp only [messageRows, messagePoints]
    split
    · cases built : seriesRows pf n fields (.ok [.obj fields]) with
      | error e => rfl
      | ok rows => exact series_rows_reports built
    · cases Dict.get? "ts_data".toList fields with
      | none => rfl
      | some listed =>
        cases listed with
        | arr entries => exact bulk_rows_reports
        | _ => rfl
  | _ => rfl

end

theorem run_reports (pf : Platform) (db : Db) (ds : List Delivery) :
    ∃ rows, (run (deliver pf) db ds).tsdata = db.tsdata ++ rows ∧
      rows.map reportOfRow = reported pf ds ∧ ∀ row ∈ rows, Askable row := by
  induction ds generalizing db with
  | nil => exact ⟨[],by simp [run],rfl,by simp⟩
  | cons d ds ih =>
    obtain ⟨later,table,same,askable⟩ := ih (deliver pf db d)
    refine ⟨payloadRows pf d.nodeId d.suffix d.payload ++ later,?_,?_,?_⟩
    · simp only [run, table]
      simp only [deliver, dispatch_rows d.routed d.kind, withRows, List.append_assoc]
    · rw [List.map_append,same,reported,reported,List.flatMap_cons]
      congr 1
      unfold payloadRows reportedBy
      cases parsePayload pf d.payload with
      | none => rfl
      | some value => exact message_rows_reports
    · intro row member
      rcases List.mem_append.mp member with here | there
      · exact payload_rows_askable row here
      · exact askable row there

/-! The timestamps of an answer. -/

/-- The times at which a series was reported inside the range, oldest first. -/
def timesOf (log : List Reported) (q : Query) : List Int :=
  ((log.filter fun x => x.nodeId == q.nodeId && x.name == q.param && inRange q x.ts).map
    (·.ts)).mergeSort fun a b => decide (a ≤ b)

theorem filter_sorted_times (p : Int → Bool) (times : List Int) :
    (times.mergeSort fun a b => decide (a ≤ b)).filter p =
      (times.filter p).mergeSort fun a b => decide (a ≤ b) := by
  have sorted : ∀ xs : List Int,
      (xs.mergeSort fun a b => decide (a ≤ b)).Pairwise fun a b => decide (a ≤ b) = true := by
    intro xs
    apply List.pairwise_mergeSort
    · intro a b c first second
      simp only [decide_eq_true_eq] at first second ⊢
      omega
    · intro a b
      simp only [Bool.or_eq_true, decide_eq_true_eq]
      omega
  have antisymm : ∀ a b : Int, decide (a ≤ b) = true → decide (b ≤ a) = true → a = b := by
    intro a b first second
    simp only [decide_eq_true_eq] at first second
    omega
  have same : ((times.mergeSort fun a b => decide (a ≤ b)).filter p).Perm
      ((times.filter p).mergeSort fun a b => decide (a ≤ b)) :=
    ((List.mergeSort_perm times _).filter p).trans (List.mergeSort_perm _ _).symm
  exact same.eq_of_pairwise (fun a b _ _ => antisymm a b) ((sorted times).filter p)
    (sorted (times.filter p))

section
variable {rows : List TsData} {q : Query} {deviceName paramName : Text}

theorem series_name (asks : Asks q deviceName paramName) {r : TsData} (askable : Askable r) :
    (r.nodeId == q.nodeId && r.deviceName == deviceName && r.paramName == paramName) =
      ((reportOfRow r).nodeId == q.nodeId && (reportOfRow r).name == q.param) := by
  rw [Bool.eq_iff_iff]
  simp only [Bool.and_eq_true, beq_iff_eq, reportOfRow, and_assoc]
  constructor
  · intro same
    obtain ⟨node,device,param⟩ := same
    rw [(Split.cut_some asks.name).1,device,param]
    exact ⟨node,rfl⟩
  · intro same
    obtain ⟨node,name⟩ := same
    have split := Split.cut_append (b := r.paramName) askable.clean
    rw [name,asks.name] at split
    cases split
    exact ⟨node,rfl,rfl⟩

theorem selected_times (asks : Asks q deviceName paramName) (askable : ∀ r ∈ rows, Askable r) :
    (selected rows q deviceName paramName).map (·.ts) =
      (timesOf (rows.map reportOfRow) q).take q.limit.toNat := by
  have inside : ((rows.filter fun r => r.nodeId == q.nodeId && r.deviceName == deviceName &&
        r.paramName == paramName).map (·.ts)).filter (inRange q) =
      ((rows.map reportOfRow).filter fun x => x.nodeId == q.nodeId && x.name == q.param &&
        inRange q x.ts).map (·.ts) := by
    rw [List.filter_map,List.filter_filter,List.filter_map,List.map_map]
    congr 1
    apply List.filter_congr
    intro r stored
    simp only [Function.comp]
    rw [series_name asks (askable r stored),Bool.and_comm]
    rfl
  unfold selected series timesOf
  rw [← inside,← filter_sorted_times,List.map_take]
  congr 1
  rw [← List.map_mergeSort (r := fun a b => decide (a.ts ≤ b.ts)) (by intro a _ b _; rfl),
    List.filter_map]
  rfl

end

/-- A raw query on a dotted name returns the first times, oldest first, of
    exactly the points that the node reported under that name in the range. -/
theorem raw_query_times (pf : Platform) (ts : Timescale) (db : Db) (ds : List Delivery) (q : Query)
    (fresh : db.tsdata = []) (raw : Raw q) (dotted : '.' ∈ q.param) (within : 0 ≤ q.limit) :
    (∀ records, queryTsdata pf ts (run (deliver pf) db ds).tsdata q = .ok records →
      records.map (·.t) = (timesOf (reported pf ds) q).take q.limit.toNat) ∧
    (bindable q.nodeId = true → bindable q.param = true →
      ∃ records, queryTsdata pf ts (run (deliver pf) db ds).tsdata q = .ok records) := by
  obtain ⟨rows,table,log,askable⟩ := run_reports pf db ds
  rw [fresh,List.nil_append] at table
  rw [table,← log]
  constructor
  · intro records answered
    obtain ⟨deviceName,paramName,asks⟩ := raw_query_asks raw answered
    rw [raw_query_eq raw asks] at answered
    cases answered
    rw [List.map_map,← selected_times asks askable]
    rfl
  · intro node name
    obtain ⟨deviceName,paramName,split⟩ := Split.cut_of_mem dotted
    have whole := (Split.cut_some split).1
    have parts : bindable deviceName = true ∧ bindable paramName = true := by
      rw [whole] at name
      simpa [bindable] using name
    exact ⟨_,raw_query_eq raw ⟨split,node,parts.1,parts.2,within⟩⟩

def powerDelivery (now : Time) : Delivery :=
  ⟨now,30,simpleTopic,powerBody,"n1",Topics.simpleTsdata,by decide,Or.inr rfl⟩

theorem power_times :
    ∃ records, queryTsdata platform Deployment.timescale
        (run (deliver platform) Db.empty [powerDelivery 0,powerDelivery 1]).tsdata rawQuery =
        .ok records ∧ records.map (·.t) = [1700000000,1700000000] := by
  have times := raw_query_times platform Deployment.timescale Db.empty
    [powerDelivery 0,powerDelivery 1] rawQuery rfl (Or.inl rfl) (by decide) (by decide)
  obtain ⟨records,answered⟩ := times.2 (by decide) (by decide)
  have log : reported platform [powerDelivery 0,powerDelivery 1] =
      [⟨"n1","Light.power",1700000000⟩,⟨"n1","Light.power",1700000000⟩] := by decide +kernel
  have sorted : timesOf [⟨"n1","Light.power",1700000000⟩,⟨"n1","Light.power",1700000000⟩]
      rawQuery = [1700000000,1700000000] := List.mergeSort_of_pairwise (by decide)
  refine ⟨records,answered,?_⟩
  rw [times.1 records answered,log,sorted]
  rfl

def wideName : Text := List.replicate 64 'A'

def paddedBody : Bytes := bytesOf "\x7b\"name\":\"" ++ bytesOf (String.ofList wideName) ++
  bytesOf " .b\",\"dt\":\"int\",\"t\":1700000000,\"v\":5\x7d"

def paddedFields : JsonObject :=
  [("name",.str (wideName ++ " .b".toList)),("dt",.str "int"),("t",.int 1700000000),("v",.int 5)]

def paddedPlatform : Platform := {Deployment.platform with
  jsonLoads := fun body => if body = paddedBody then some (.obj paddedFields) else none}

def paddedDelivery : Delivery :=
  ⟨0,30,simpleTopic,paddedBody,"n1",Topics.simpleTsdata,by decide,Or.inr rfl⟩

def wideQuery : Query :=
  ⟨"n1",wideName ++ ".b".toList,1699999000,1700001000,none,none,200⟩

def wideRow : TsData := ⟨1700000000,"n1",wideName,"b","int",some 5,none,none,none⟩

/-- The column cuts the space, and the point is found under the other name. -/
theorem padded_name_is_found : '.' ∈ wideQuery.param ∧
    parsePayload paddedPlatform paddedBody = some (.obj paddedFields) ∧
    field "name" .null paddedFields = .str (wideName ++ " .b".toList) ∧
    wideName ++ " .b".toList ≠ wideQuery.param ∧
    queryTsdata paddedPlatform Deployment.timescale
      (run (deliver paddedPlatform) Db.empty [paddedDelivery]).tsdata wideQuery =
      .ok [⟨1700000000,.int 5⟩] := by
  have table : (run (deliver paddedPlatform) Db.empty [paddedDelivery]).tsdata = [wideRow] := by
    decide +kernel
  have asks : Asks wideQuery wideName "b" := by
    constructor <;> decide +kernel
  have own : [wideRow].filter (fun r => r.nodeId == wideQuery.nodeId &&
      r.deviceName == wideName && r.paramName == "b".toList) = [wideRow] := by
    decide +kernel
  have type : dataType [wideRow] wideQuery.nodeId wideName "b" = "int".toList := by
    unfold dataType
    rw [own,List.mergeSort_singleton]
    rfl
  have read : selected [wideRow] wideQuery wideName "b" = [wideRow] := by
    unfold selected series
    rw [own,List.mergeSort_singleton]
    decide
  refine ⟨by decide +kernel,by simp [parsePayload, paddedPlatform],rfl,by decide +kernel,?_⟩
  rw [raw_query_eq (Or.inl rfl) asks,table,type,read]
  decide

end RainmakerServer.TsdataQueries
