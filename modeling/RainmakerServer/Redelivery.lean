import RainmakerServer.Deployment
import RainmakerServer.Mqtt.Router
import RainmakerServer.Services.Tsdata

/-!
Redelivery of a time-series message. The rows a message stores depend on the
message alone and are appended, and no constraint of the table rejects a row
that is there already. A message delivered again is stored again, so that only
a message that stores nothing is absorbed.
-/
namespace RainmakerServer.Redelivery
open Tables Mqtt Nodes Tsdata

def withRows (db : Db) (rows : List TsData) : Db := {db with tsdata := db.tsdata ++ rows}

theorem with_no_rows (db : Db) : withRows db [] = db := by
  simp [withRows]

theorem with_rows_append (db : Db) (a b : List TsData) :
    withRows (withRows db a) b = withRows db (a ++ b) := by
  simp [withRows]

/-! The rows of one insert. -/

def callRows (pf : Platform) (n deviceName paramName : Text) (dt : Json)
    (points : List (Int × Json)) : Except Exc (List TsData) :=
  match coerceAll pf dt points with
  | .error e => .error e
  | .ok cs => tsRows n deviceName paramName dt cs

theorem insert_tsdata_rows {pf : Platform} {db : Db} {n deviceName paramName : Text} {dt : Json}
    {points : List (Int × Json)} : insertTsdata pf db n deviceName paramName dt points =
      (callRows pf n deviceName paramName dt points).map (withRows db) := by
  cases points with
  | nil => simp [insertTsdata, callRows, coerceAll, tsRows, Except.map, with_no_rows]
  | cons point rest =>
    unfold insertTsdata callRows
    rw [if_neg (by simp)]
    cases coerceAll pf dt (point :: rest) with
    | error e => rfl
    | ok cs =>
      dsimp only
      cases tsRows n deviceName paramName dt cs with
      | error e => rfl
      | ok rows => rfl

theorem call_rows_cons {pf : Platform} {n deviceName paramName : Text} {dt v : Json} {ts : Int}
    {points : List (Int × Json)} {rows : List TsData} :
    callRows pf n deviceName paramName dt ((ts,v) :: points) = .ok rows ↔
      ∃ c row rest, coerce pf dt v = .ok c ∧ tsRow n deviceName paramName dt ts c = .ok row ∧
        callRows pf n deviceName paramName dt points = .ok rest ∧ rows = row :: rest := by
  simp only [callRows, coerceAll]
  cases first : coerce pf dt v with
  | error e => simp
  | ok c =>
    cases later : coerceAll pf dt points with
    | error e => simp
    | ok cs =>
      simp only [tsRows]
      cases built : tsRow n deviceName paramName dt ts c with
      | error e => simp [built]
      | ok row =>
        cases others : tsRows n deviceName paramName dt cs with
        | error e => simp
        | ok rest => simp [built, eq_comm]

def Fits (pf : Platform) (n deviceName paramName : Text) (dt : Json) (point : Int × Json) : Prop :=
  ∃ c row, coerce pf dt point.2 = .ok c ∧ tsRow n deviceName paramName dt point.1 c = .ok row

theorem call_rows_fit {pf : Platform} {n deviceName paramName : Text} {dt : Json}
    {points : List (Int × Json)} {rows : List TsData}
    (ok : callRows pf n deviceName paramName dt points = .ok rows) :
    rows.length = points.length ∧ ∀ point ∈ points, Fits pf n deviceName paramName dt point := by
  induction points generalizing rows with
  | nil =>
    cases ok
    exact ⟨rfl,by simp⟩
  | cons point points ih =>
    obtain ⟨c,row,rest,converted,built,later,eq⟩ := call_rows_cons.mp ok
    obtain ⟨length,fit⟩ := ih later
    subst eq
    refine ⟨by simp [length],?_⟩
    intro p member
    rcases List.mem_cons.mp member with here | there
    · subst here
      exact ⟨c,row,converted,built⟩
    · exact fit p there

theorem call_rows_of_fit {pf : Platform} {n deviceName paramName : Text} {dt : Json}
    {points : List (Int × Json)}
    (fit : ∀ point ∈ points, Fits pf n deviceName paramName dt point) :
    ∃ rows, callRows pf n deviceName paramName dt points = .ok rows := by
  induction points with
  | nil => exact ⟨[],rfl⟩
  | cons point points ih =>
    obtain ⟨c,row,converted,built⟩ := fit point (by simp)
    obtain ⟨rest,later⟩ := ih fun p member => fit p (List.mem_cons_of_mem _ member)
    exact ⟨row :: rest,call_rows_cons.mpr ⟨c,row,rest,converted,built,later,rfl⟩⟩

theorem ts_row_ok {n deviceName paramName : Text} {dt : Json} {ts : Int} {c : Columns}
    {row : TsData} (built : tsRow n deviceName paramName dt ts c = .ok row) :
    ∃ s, dt = .str s ∧ assignable 64 n = true ∧ assignable 64 deviceName = true ∧
      assignable 64 paramName = true ∧
      row = ⟨ts,cut 64 n,cut 64 deviceName,cut 64 paramName,cut 16 s,c.valueInt,c.valueFloat,
        c.valueBool,c.valueStr⟩ := by
  unfold tsRow at built
  split at built
  · rename_i s
    split at built
    · rename_i fits
      simp only [Bool.and_eq_true] at fits
      cases built
      exact ⟨s,rfl,fits.1.1.1.1.1,fits.1.1.1.1.2,fits.1.1.1.2,rfl⟩
    · cases built
  · cases built

theorem call_rows_mem {pf : Platform} {n deviceName paramName : Text} {dt : Json}
    {points : List (Int × Json)} {rows : List TsData}
    (ok : callRows pf n deviceName paramName dt points = .ok rows) :
    ∀ row ∈ rows, ∃ point ∈ points, ∃ c, coerce pf dt point.2 = .ok c ∧
      tsRow n deviceName paramName dt point.1 c = .ok row := by
  induction points generalizing rows with
  | nil =>
    cases ok
    simp
  | cons point points ih =>
    obtain ⟨c,first,rest,converted,built,later,eq⟩ := call_rows_cons.mp ok
    subst eq
    intro row member
    rcases List.mem_cons.mp member with here | there
    · subst here
      exact ⟨point,by simp,c,converted,built⟩
    · obtain ⟨q,stored,found⟩ := ih later row there
      exact ⟨q,by simp [stored],found⟩

/-! The points of a list of records. -/

theorem points_of_cons {pf : Platform} {r : Json} {records : List Json}
    {points : List (Int × Json)} : pointsOf pf (r :: records) = .ok points ↔
      ∃ p? rest, pointOf pf r = .ok p? ∧ pointsOf pf records = .ok rest ∧
        points = p?.toList ++ rest := by
  simp only [pointsOf]
  cases pointOf pf r with
  | error e => simp
  | ok p? =>
    cases pointsOf pf records with
    | error e => simp [Except.map]
    | ok rest => simp [Except.map, eq_comm]

theorem points_of_mem {pf : Platform} {records : List Json} {points : List (Int × Json)}
    (ok : pointsOf pf records = .ok points) (point : Int × Json) :
    point ∈ points ↔ ∃ r ∈ records, pointOf pf r = .ok (some point) := by
  induction records generalizing points with
  | nil =>
    cases ok
    simp
  | cons r records ih =>
    obtain ⟨p?,rest,first,later,eq⟩ := points_of_cons.mp ok
    subst eq
    rw [List.mem_append,Option.mem_toList,ih later,List.exists_mem_cons_iff,first]
    simp

theorem points_of_ok_iff {pf : Platform} {records : List Json} :
    (∃ points, pointsOf pf records = .ok points) ↔ ∀ r ∈ records, ∃ p?, pointOf pf r = .ok p? := by
  induction records with
  | nil => simp [pointsOf]
  | cons r records ih =>
    rw [List.forall_mem_cons,← ih]
    constructor
    · rintro ⟨points,ok⟩
      obtain ⟨p?,rest,first,later,-⟩ := points_of_cons.mp ok
      exact ⟨⟨p?,first⟩,rest,later⟩
    · rintro ⟨⟨p?,first⟩,rest,later⟩
      exact ⟨p?.toList ++ rest,points_of_cons.mpr ⟨p?,rest,first,later,rfl⟩⟩

/-! The rows of a message. -/

def seriesRows (pf : Platform) (n : Text) (fields : JsonObject)
    (records : Except Exc (List Json)) : Except Exc (List TsData) :=
  match splitName (field "name" (.str []) fields) with
  | .error e => .error e
  | .ok none => .ok []
  | .ok (some (deviceName,paramName)) => match records with
    | .error e => .error e
    | .ok rs => match pointsOf pf rs with
      | .error e => .error e
      | .ok points => callRows pf n deviceName paramName (field "dt" (.str "int") fields) points

def entryRows (pf : Platform) (n : Text) : Json → Except Exc (List TsData)
  | .obj entry => seriesRows pf n entry (iterate (field "records" .null entry))
  | _ => .error .attributeError

def bulkRows (pf : Platform) (n : Text) : List Json → List TsData
  | [] => []
  | entry :: rest => match entryRows pf n entry with
    | .error _ => []
    | .ok rows => rows ++ bulkRows pf n rest

theorem tsdata_entry_rows {pf : Platform} {db : Db} {n : Text} {entry : Json} :
    tsdataEntry pf db n entry = (entryRows pf n entry).map (withRows db) := by
  cases entry with
  | obj fields =>
    simp only [tsdataEntry, entryRows, seriesRows]
    cases splitName (field "name" (.str []) fields) with
    | error e => rfl
    | ok name =>
      cases name with
      | none => simp [Except.map, with_no_rows]
      | some p =>
        obtain ⟨deviceName,paramName⟩ := p
        dsimp only
        cases iterate (field "records" .null fields) with
        | error e => rfl
        | ok records =>
          dsimp only
          cases pointsOf pf records with
          | error e => rfl
          | ok points => exact insert_tsdata_rows
  | null => rfl
  | bool b => rfl
  | int i => rfl
  | float f => rfl
  | str s => rfl
  | arr xs => rfl

theorem tsdata_entries_rows {pf : Platform} {db : Db} {n : Text} {entries : List Json} :
    (tsdataEntries pf db n entries).1 = withRows db (bulkRows pf n entries) := by
  induction entries generalizing db with
  | nil => exact (with_no_rows db).symm
  | cons entry rest ih =>
    simp only [tsdataEntries, bulkRows, tsdata_entry_rows]
    cases entryRows pf n entry with
    | error e => exact (with_no_rows db).symm
    | ok rows =>
      simp only [Except.map]
      rw [ih,with_rows_append]

theorem handle_simple_tsdata_rows {pf : Platform} {db : Db} {n : Text} {fields : JsonObject} :
    (handleSimpleTsdata pf db n (.obj fields)).1 =
      withRows db ((seriesRows pf n fields (.ok [.obj fields])).toOption.getD []) := by
  simp only [handleSimpleTsdata, seriesRows]
  cases splitName (field "name" (.str []) fields) with
  | error e => exact (with_no_rows db).symm
  | ok name =>
    cases name with
    | none => exact (with_no_rows db).symm
    | some p =>
      obtain ⟨deviceName,paramName⟩ := p
      simp only [pointsOf]
      cases pointOf pf (.obj fields) with
      | error e => exact (with_no_rows db).symm
      | ok point? =>
        cases point? with
        | none => exact (with_no_rows db).symm
        | some point =>
          simp only [insert_tsdata_rows, Except.map, Option.toList_some, List.append_nil]
          cases callRows pf n deviceName paramName (field "dt" (.str "int") fields) [point] with
          | error e => exact (with_no_rows db).symm
          | ok rows => rfl

/-! Which messages store something. -/

/-- No record raises, one at least has a timestamp, and every value that has
    one is stored as it should be. -/
structure Usable (pf : Platform) (n deviceName paramName : Text) (dt : Json)
    (records : List Json) : Prop where
  read : ∀ r ∈ records, ∃ p?, pointOf pf r = .ok p?
  stamped : ∃ r ∈ records, ∃ point, pointOf pf r = .ok (some point)
  fit : ∀ r ∈ records, ∀ point, pointOf pf r = .ok (some point) →
    Fits pf n deviceName paramName dt point

def Recorded (pf : Platform) (n : Text) (fields : JsonObject)
    (records : Except Exc (List Json)) : Prop :=
  ∃ deviceName paramName rs, splitName (field "name" (.str []) fields) =
      .ok (some (deviceName,paramName)) ∧ records = .ok rs ∧
    Usable pf n deviceName paramName (field "dt" (.str "int") fields) rs

def Blank (pf : Platform) (fields : JsonObject) (records : Except Exc (List Json)) : Prop :=
  splitName (field "name" (.str []) fields) = .ok none ∨
  ∃ deviceName paramName rs, splitName (field "name" (.str []) fields) =
      .ok (some (deviceName,paramName)) ∧ records = .ok rs ∧ ∀ r ∈ rs, pointOf pf r = .ok none

def bulkRecords (entry : JsonObject) : Except Exc (List Json) :=
  iterate (field "records" .null entry)

def BulkRecorded (pf : Platform) (n : Text) (entries : List Json) : Prop :=
  ∃ before entry after, entries = before ++ .obj entry :: after ∧
    (∀ e ∈ before, ∃ fields, e = .obj fields ∧ Blank pf fields (bulkRecords fields)) ∧
    Recorded pf n entry (bulkRecords entry)

/-- What a message on one of the two suffixes has to be to store a row. -/
def MessageRecorded (pf : Platform) (n suffix : Text) (value : Json) : Prop :=
  ∃ fields, value = .obj fields ∧
    (suffix = Topics.simpleTsdata ∧ Recorded pf n fields (.ok [.obj fields]) ∨
     suffix = Topics.tsdata ∧ ∃ entries, Dict.get? "ts_data".toList fields = some (.arr entries) ∧
       BulkRecorded pf n entries)

theorem series_rows_recorded {pf : Platform} {n : Text} {fields : JsonObject}
    {records : Except Exc (List Json)} :
    (∃ row rows, seriesRows pf n fields records = .ok (row :: rows)) ↔
      Recorded pf n fields records := by
  constructor
  · rintro ⟨row,rows,ok⟩
    unfold seriesRows at ok
    split at ok
    · cases ok
    · cases ok
    · rename_i deviceName paramName named
      split at ok
      · cases ok
      · rename_i rs
        split at ok
        · cases ok
        · rename_i points read
          obtain ⟨length,fit⟩ := call_rows_fit ok
          refine ⟨deviceName,paramName,rs,named,rfl,points_of_ok_iff.mp ⟨points,read⟩,?_,?_⟩
          · cases points with
            | nil => cases length
            | cons point points =>
              obtain ⟨r,member,stamped⟩ := (points_of_mem read point).mp (by simp)
              exact ⟨r,member,point,stamped⟩
          · intro r member point stamped
            exact fit point ((points_of_mem read point).mpr ⟨r,member,stamped⟩)
  · rintro ⟨deviceName,paramName,rs,named,eq,usable⟩
    obtain ⟨points,read⟩ := points_of_ok_iff.mpr usable.read
    have fit : ∀ point ∈ points,
        Fits pf n deviceName paramName (field "dt" (.str "int") fields) point := by
      intro point member
      obtain ⟨r,stored,stamped⟩ := (points_of_mem read point).mp member
      exact usable.fit r stored point stamped
    obtain ⟨rows,built⟩ := call_rows_of_fit fit
    have whole : seriesRows pf n fields records = .ok rows := by
      subst eq
      simp only [seriesRows, named, read, built]
    obtain ⟨r,stored,point,stamped⟩ := usable.stamped
    have member : point ∈ points := (points_of_mem read point).mpr ⟨r,stored,stamped⟩
    cases rows with
    | nil =>
      have none := (call_rows_fit built).1
      rw [List.length_nil] at none
      rw [List.eq_nil_of_length_eq_zero none.symm] at member
      cases member
    | cons row rows => exact ⟨row,rows,whole⟩

theorem series_rows_blank {pf : Platform} {n : Text} {fields : JsonObject}
    {records : Except Exc (List Json)} :
    seriesRows pf n fields records = .ok [] ↔ Blank pf fields records := by
  constructor
  · intro ok
    unfold seriesRows at ok
    split at ok
    · cases ok
    · rename_i named
      exact Or.inl named
    · rename_i deviceName paramName named
      split at ok
      · cases ok
      · rename_i rs
        split at ok
        · cases ok
        · rename_i points read
          have none : points = [] := List.eq_nil_of_length_eq_zero (call_rows_fit ok).1.symm
          subst none
          refine Or.inr ⟨deviceName,paramName,rs,named,rfl,?_⟩
          intro r member
          obtain ⟨p?,seen⟩ := points_of_ok_iff.mp ⟨[],read⟩ r member
          cases p? with
          | none => exact seen
          | some point => cases (points_of_mem read point).mpr ⟨r,member,seen⟩
  · rintro (named | ⟨deviceName,paramName,rs,named,eq,unstamped⟩)
    · simp only [seriesRows, named]
    · obtain ⟨points,read⟩ := points_of_ok_iff.mpr fun r member => ⟨none,unstamped r member⟩
      have empty : points = [] := by
        rw [List.eq_nil_iff_forall_not_mem]
        intro point member
        obtain ⟨r,stored,stamped⟩ := (points_of_mem read point).mp member
        rw [unstamped r stored] at stamped
        cases stamped
      subst eq
      subst empty
      simp only [seriesRows, named, read]
      rfl

theorem bulk_rows_recorded {pf : Platform} {n : Text} {entries : List Json} :
    bulkRows pf n entries ≠ [] ↔ BulkRecorded pf n entries := by
  induction entries with
  | nil => simp [bulkRows, BulkRecorded]
  | cons entry rest ih =>
    constructor
    · intro some
      simp only [bulkRows] at some
      split at some
      · exact absurd rfl some
      · rename_i rows built
        cases entry with
        | obj fields =>
          cases rows with
          | nil =>
            rw [List.nil_append] at some
            obtain ⟨before,first,after,eq,skipped,recorded⟩ := ih.mp some
            refine ⟨.obj fields :: before,first,after,by rw [eq]; rfl,?_,recorded⟩
            intro e member
            rcases List.mem_cons.mp member with here | there
            · exact ⟨fields,here,series_rows_blank.mp built⟩
            · exact skipped e there
          | cons row rows =>
            exact ⟨[],fields,rest,rfl,by simp,series_rows_recorded.mp ⟨row,rows,built⟩⟩
        | null => cases built
        | bool b => cases built
        | int i => cases built
        | float f => cases built
        | str s => cases built
        | arr xs => cases built
    · rintro ⟨before,first,after,eq,skipped,recorded⟩
      cases before with
      | nil =>
        cases eq
        obtain ⟨row,rows,built⟩ := series_rows_recorded.mpr recorded
        have here : entryRows pf n (.obj first) = .ok (row :: rows) := built
        simp [bulkRows, here]
      | cons e before =>
        cases eq
        obtain ⟨fields,eq,blank⟩ := skipped entry (by simp)
        have here : entryRows pf n entry = .ok [] := by
          rw [eq]
          exact series_rows_blank.mpr blank
        simp only [bulkRows, here, List.nil_append]
        exact ih.mpr ⟨before,first,after,rfl,
          fun e' member => skipped e' (List.mem_cons_of_mem _ member),recorded⟩

/-! Two deliveries. -/

def messageRows (pf : Platform) (n suffix : Text) : Json → List TsData
  | .obj fields =>
    if suffix = Topics.simpleTsdata then
      (seriesRows pf n fields (.ok [.obj fields])).toOption.getD []
    else match Dict.get? "ts_data".toList fields with
    | some (.arr entries) => bulkRows pf n entries
    | _ => []
  | _ => []

def payloadRows (pf : Platform) (n suffix : Text) (payload : Bytes) : List TsData :=
  match parsePayload pf payload with
  | none => []
  | some value => messageRows pf n suffix value

def OnTsdata (suffix : Text) : Prop := suffix = Topics.tsdata ∨ suffix = Topics.simpleTsdata

theorem handle_tsdata_rows {pf : Platform} {db : Db} {n : Text} {value : Json} :
    (handleTsdata pf db n value).1 = withRows db (messageRows pf n Topics.tsdata value) := by
  have other : Topics.tsdata ≠ Topics.simpleTsdata := by decide
  cases value with
  | obj fields =>
    simp only [handleTsdata, messageRows, if_neg other]
    cases Dict.get? "ts_data".toList fields with
    | none => exact (with_no_rows db).symm
    | some listed =>
      cases listed with
      | arr entries => exact tsdata_entries_rows
      | _ => exact (with_no_rows db).symm
  | _ => exact (with_no_rows db).symm

theorem handle_rows {pf : Platform} {db : Db} {now : Time} {mappingId : Uuid} {n suffix : Text}
    {value : Json} (kind : OnTsdata suffix) :
    (handle pf db now mappingId n suffix value).1 = withRows db (messageRows pf n suffix value) := by
  rcases kind with bulk | simple
  · subst bulk
    have routed : handle pf db now mappingId n Topics.tsdata value = handleTsdata pf db n value := by
      rfl
    rw [routed]
    exact handle_tsdata_rows
  · subst simple
    have routed : handle pf db now mappingId n Topics.simpleTsdata value =
        handleSimpleTsdata pf db n value := by rfl
    rw [routed]
    cases value with
    | obj fields => exact handle_simple_tsdata_rows
    | _ => exact (with_no_rows db).symm

theorem dispatch_rows {pf : Platform} {db : Db} {now : Time} {mappingId : Uuid}
    {topic n suffix : Text} {payload : Bytes} (here : splitTopic topic = some (n,suffix))
    (kind : OnTsdata suffix) : dispatch pf db now mappingId topic payload =
      withRows db (payloadRows pf n suffix payload) := by
  simp only [dispatch, here, payloadRows]
  cases parsePayload pf payload with
  | none => exact (with_no_rows db).symm
  | some value => exact handle_rows kind

theorem message_rows_recorded {pf : Platform} {n suffix : Text} {value : Json}
    (kind : OnTsdata suffix) :
    messageRows pf n suffix value ≠ [] ↔ MessageRecorded pf n suffix value := by
  have other : Topics.tsdata ≠ Topics.simpleTsdata := by decide
  cases value with
  | obj fields =>
    rcases kind with bulk | simple
    · subst bulk
      simp only [messageRows, if_neg other]
      constructor
      · intro some
        split at some
        · rename_i entries found
          exact ⟨fields,rfl,Or.inr ⟨rfl,entries,found,bulk_rows_recorded.mp some⟩⟩
        · exact absurd rfl some
      · rintro ⟨_,eq,⟨same,-⟩ | ⟨-,entries,found,recorded⟩⟩
        · exact absurd same other
        · cases eq
          rw [found]
          exact bulk_rows_recorded.mpr recorded
    · subst simple
      simp only [messageRows, if_true]
      constructor
      · intro some
        cases built : seriesRows pf n fields (.ok [.obj fields]) with
        | error e => simp [built, Except.toOption] at some
        | ok rows =>
          cases rows with
          | nil => simp [built, Except.toOption] at some
          | cons row rows =>
            exact ⟨fields,rfl,Or.inl ⟨rfl,series_rows_recorded.mp ⟨row,rows,built⟩⟩⟩
      · rintro ⟨_,eq,⟨-,recorded⟩ | ⟨same,-⟩⟩
        · cases eq
          obtain ⟨row,rows,built⟩ := series_rows_recorded.mpr recorded
          simp [built, Except.toOption]
        · exact absurd same.symm other
  | _ => simp [messageRows, MessageRecorded]

/-! The series of the stored rows can be asked for. -/

theorem split_name_text {name : Json} {deviceName paramName : Text}
    (split : splitName name = .ok (some (deviceName,paramName))) :
    ∃ full, name = .str full ∧ Split.cut '.' full = some (deviceName,paramName) := by
  unfold splitName at split
  split at split
  · rename_i full
    exact ⟨full,rfl,by simpa using split⟩
  · split at split <;> cases split
  · split at split <;> cases split
  · cases split

structure Askable (row : TsData) : Prop where
  clean : '.' ∉ row.deviceName
  node : bindable row.nodeId = true
  device : bindable row.deviceName = true
  param : bindable row.paramName = true

theorem series_rows_askable {pf : Platform} {n : Text} {fields : JsonObject}
    {records : Except Exc (List Json)} {rows : List TsData}
    (ok : seriesRows pf n fields records = .ok rows) : ∀ row ∈ rows, Askable row := by
  unfold seriesRows at ok
  split at ok
  · cases ok
  · cases ok
    simp
  · rename_i deviceName paramName named
    split at ok
    · cases ok
    · split at ok
      · cases ok
      · intro row member
        obtain ⟨point,-,c,-,built⟩ := call_rows_mem ok row member
        obtain ⟨s,-,node,device,param,eq⟩ := ts_row_ok built
        obtain ⟨full,-,split⟩ := split_name_text named
        subst eq
        exact ⟨fun dotted => (Split.cut_some split).2 (List.mem_of_mem_take dotted),
          bindable_cut (assignable_bindable node),bindable_cut (assignable_bindable device),
          bindable_cut (assignable_bindable param)⟩

theorem bulk_rows_askable {pf : Platform} {n : Text} {entries : List Json} :
    ∀ row ∈ bulkRows pf n entries, Askable row := by
  induction entries with
  | nil => simp [bulkRows]
  | cons entry rest ih =>
    intro row member
    simp only [bulkRows] at member
    split at member
    · cases member
    · rename_i rows built
      rcases List.mem_append.mp member with here | there
      · cases entry with
        | obj fields => exact series_rows_askable built row here
        | _ => cases built
      · exact ih row there

theorem message_rows_askable {pf : Platform} {n suffix : Text} {value : Json} :
    ∀ row ∈ messageRows pf n suffix value, Askable row := by
  intro row member
  unfold messageRows at member
  split at member
  · rename_i fields
    split at member
    · cases built : seriesRows pf n fields (.ok [.obj fields]) with
      | error e => simp [built, Except.toOption] at member
      | ok rows =>
        simp only [built, Except.toOption, Option.getD_some] at member
        exact series_rows_askable built row member
    · split at member
      · exact bulk_rows_askable row member
      · cases member
  · cases member

theorem payload_rows_askable {pf : Platform} {n suffix : Text} {payload : Bytes} :
    ∀ row ∈ payloadRows pf n suffix payload, Askable row := by
  intro row member
  unfold payloadRows at member
  split at member
  · cases member
  · exact message_rows_askable row member

def askFor (row : TsData) (limit : Nat) : Query where
  nodeId := row.nodeId
  param := row.deviceName ++ '.' :: row.paramName
  startTime := row.ts
  endTime := row.ts
  limit := limit

def sameInstant (row r : TsData) : Bool :=
  (decide (row.ts ≤ r.ts) && decide (r.ts ≤ row.ts)) &&
    (r.nodeId == row.nodeId && r.deviceName == row.deviceName && r.paramName == row.paramName)

theorem raw_query_count {pf : Platform} {ts : Timescale} {points : List TsData} {row : TsData}
    {limit : Nat} (askable : Askable row) (room : points.length ≤ limit) :
    ∃ records, queryTsdata pf ts points (askFor row limit) = .ok records ∧
      records.length = points.countP (sameInstant row) := by
  let column := valueColumn (dataType points row.nodeId row.deviceName row.paramName)
  let window := (series points row.nodeId row.deviceName row.paramName).filter fun r =>
    decide (row.ts ≤ r.ts) && decide (r.ts ≤ row.ts)
  have count : window.length = points.countP (sameInstant row) := by
    simp only [window]
    rw [← List.countP_eq_length_filter,series,(List.mergeSort_perm _ _).countP_eq,
      List.countP_filter]
    rfl
  have few : points.countP (sameInstant row) ≤ limit := le_trans List.countP_le_length room
  have name : Split.cut '.' (askFor row limit).param = some (row.deviceName,row.paramName) :=
    Split.cut_append askable.clean
  refine ⟨(window.map fun r => ⟨r.ts,column.read r⟩).take limit,?_,?_⟩
  · unfold queryTsdata
    rw [name]
    simp only [askFor, given, limited, Int.toNat_natCast, askable.node, askable.device,
      askable.param]
    rfl
  · rw [List.length_take,List.length_map,count]
    exact Nat.min_eq_right few

theorem stored_twice_asked {pf : Platform} {ts : Timescale} {points rows : List TsData}
    {row : TsData} (askable : Askable row) (member : row ∈ rows) :
    ∃ q, queryTsdata pf ts (points ++ rows ++ rows) q ≠ queryTsdata pf ts (points ++ rows) q := by
  let limit := (points ++ rows ++ rows).length
  obtain ⟨once,asked,counted⟩ : ∃ records,
      queryTsdata pf ts (points ++ rows) (askFor row limit) = .ok records ∧
        records.length = (points ++ rows).countP (sameInstant row) :=
    raw_query_count askable (by simp [limit])
  obtain ⟨twice,asked',counted'⟩ : ∃ records,
      queryTsdata pf ts (points ++ rows ++ rows) (askFor row limit) = .ok records ∧
        records.length = (points ++ rows ++ rows).countP (sameInstant row) :=
    raw_query_count askable (Nat.le_refl _)
  refine ⟨askFor row limit,?_⟩
  intro same
  rw [asked,asked'] at same
  cases same
  have here : 0 < rows.countP (sameInstant row) :=
    List.countP_pos_iff.mpr ⟨row,member,by simp [sameInstant]⟩
  rw [List.countP_append] at counted'
  omega

/-- A redelivery leaves the contents and every answer as they were exactly when
    the message stores nothing at all. -/
theorem redelivery_absorbed_iff (pf : Platform) (ts : Timescale) (db : Db) (now now' : Time)
    (mappingId mappingId' : Uuid) {topic n suffix : Text} (payload : Bytes)
    (here : splitTopic topic = some (n,suffix))
    (kind : suffix = Topics.tsdata ∨ suffix = Topics.simpleTsdata) :
    let once := dispatch pf db now mappingId topic payload
    let twice := dispatch pf once now' mappingId' topic payload
    let recorded := ∃ value, parsePayload pf payload = some value ∧
      MessageRecorded pf n suffix value
    (twice.tsdata.Perm once.tsdata ↔ ¬ recorded) ∧
    ((∀ q, queryTsdata pf ts twice.tsdata q = queryTsdata pf ts once.tsdata q) ↔ ¬ recorded) := by
  intro once twice recorded
  have stored : once.tsdata = db.tsdata ++ payloadRows pf n suffix payload := by
    simp only [once, dispatch_rows here kind, withRows]
  have again : twice.tsdata = once.tsdata ++ payloadRows pf n suffix payload := by
    simp only [twice, dispatch_rows here kind, withRows]
  have recorded_iff : recorded ↔ payloadRows pf n suffix payload ≠ [] := by
    simp only [recorded, payloadRows]
    cases parsePayload pf payload with
    | none => simp
    | some value => simp [message_rows_recorded kind]
  rw [recorded_iff,not_not]
  constructor
  · constructor
    · intro same
      have length := same.length_eq
      rw [again,List.length_append] at length
      exact List.eq_nil_of_length_eq_zero (by omega)
    · intro none
      rw [again,none,List.append_nil]
  · constructor
    · intro same
      by_contra some
      obtain ⟨row,rest,eq⟩ := List.exists_cons_of_ne_nil some
      have member : row ∈ payloadRows pf n suffix payload := by simp [eq]
      have askable := payload_rows_askable row member
      obtain ⟨q,differ⟩ := @stored_twice_asked pf ts db.tsdata _ row askable member
      rw [again,stored] at same
      exact differ (same q)
    · intro none q
      rw [again,none,List.append_nil]

/-! One message of each kind. -/

def bytesOf (s : String) : Bytes := s.toList.map fun c => UInt8.ofNat c.toNat

def powerBody : Bytes :=
  bytesOf "\x7b\"name\":\"Light.power\",\"dt\":\"int\",\"t\":1700000000,\"v\":5\x7d"

def undottedBody : Bytes := bytesOf "\x7b\"name\":\"power\",\"t\":1700000000,\"v\":5\x7d"

def undottedFields : JsonObject :=
  [("name",.str "power"),("t",.int 1700000000),("v",.int 5)]

def platform : Platform := {Deployment.platform with
  jsonLoads := fun body =>
    if body = powerBody then some (.obj [("name",.str "Light.power"),("dt",.str "int"),
      ("t",.int 1700000000),("v",.int 5)])
    else if body = undottedBody then some (.obj undottedFields)
    else none}

def simpleTopic : Text := Topics.nodeTopic "n1" Topics.simpleTsdata

def once (body : Bytes) : Db := dispatch platform Db.empty 0 30 simpleTopic body
def twice (body : Bytes) : Db := dispatch platform (once body) 1 31 simpleTopic body

def rawQuery : Query := ⟨"n1","Light.power",1699999000,1700001000,none,none,200⟩
def sumQuery : Query := ⟨"n1","Light.power",1699999000,1700001000,some "sum",some "1h",200⟩

theorem redelivery_absorbed_undotted :
    (twice undottedBody).tsdata.Perm (once undottedBody).tsdata ∧
    ∀ q, queryTsdata platform Deployment.timescale (twice undottedBody).tsdata q =
      queryTsdata platform Deployment.timescale (once undottedBody).tsdata q := by
  have absorbed := redelivery_absorbed_iff platform Deployment.timescale Db.empty 0 1 30 31
    undottedBody (by decide : splitTopic simpleTopic = some ("n1".toList,Topics.simpleTsdata))
    (Or.inr rfl)
  have unrecorded : ¬ ∃ value, parsePayload platform undottedBody = some value ∧
      MessageRecorded platform "n1" Topics.simpleTsdata value := by
    rintro ⟨value,parsed,fields,eq,⟨-,deviceName,paramName,rs,named,-⟩ | ⟨other,-⟩⟩
    · have read : parsePayload platform undottedBody = some (.obj undottedFields) := by
        rfl
      rw [read] at parsed
      cases parsed
      cases eq
      cases named
    · exact absurd other (by decide)
  exact ⟨absorbed.1.mpr unrecorded,absorbed.2.mpr unrecorded⟩

def powerRow : TsData :=
  ⟨1700000000,"n1","Light","power","int",some 5,none,none,none⟩

theorem power_once : (once powerBody).tsdata = [powerRow] := by decide +kernel

theorem power_twice : (twice powerBody).tsdata = [powerRow,powerRow] := by decide +kernel

theorem power_series : series [powerRow,powerRow] "n1" "Light" "power" = [powerRow,powerRow] :=
  List.mergeSort_of_pairwise (by decide)

theorem power_type : dataType [powerRow,powerRow] "n1" "Light" "power" = "int".toList := by
  have sorted : [powerRow,powerRow].mergeSort (fun a b => decide (b.ts ≤ a.ts)) =
      [powerRow,powerRow] := List.mergeSort_of_pairwise (by decide)
  have own : [powerRow,powerRow].filter (fun r => r.nodeId == "n1".toList &&
      r.deviceName == "Light".toList && r.paramName == "power".toList) = [powerRow,powerRow] := by
    decide
  rw [dataType,own,sorted]
  rfl

/-- The power reading is stored twice, listed twice and added twice. -/
theorem redelivery_stored_again :
    splitTopic simpleTopic = some ("n1".toList,Topics.simpleTsdata) ∧
    ¬ (twice powerBody).tsdata.Perm (once powerBody).tsdata ∧
    queryTsdata platform Deployment.timescale (once powerBody).tsdata rawQuery =
      .ok [⟨1700000000,.int 5⟩] ∧
    queryTsdata platform Deployment.timescale (twice powerBody).tsdata rawQuery =
      .ok [⟨1700000000,.int 5⟩,⟨1700000000,.int 5⟩] ∧
    queryTsdata platform Deployment.timescale (once powerBody).tsdata sumQuery =
      .ok [⟨1699999200,.float (.fin 5)⟩] ∧
    queryTsdata platform Deployment.timescale (twice powerBody).tsdata sumQuery =
      .ok [⟨1699999200,.float (.fin 10)⟩] := by
  have name : Split.cut '.' "Light.power".toList = some ("Light".toList,"power".toList) := by
    decide
  rw [power_once,power_twice]
  refine ⟨by decide,?_,by decide +kernel,?_,by decide +kernel,?_⟩
  · intro same
    exact absurd same.length_eq (by decide)
  · simp only [queryTsdata, rawQuery, name, power_series, power_type]
    decide +kernel
  · simp only [queryTsdata, sumQuery, name, power_series, power_type]
    decide +kernel

end RainmakerServer.Redelivery
