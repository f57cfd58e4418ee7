import RainmakerServer.Lib.Runs
import RainmakerServer.Redelivery

/-!
The two forms of a time-series message. A bulk message is to store what its
records store when each is sent alone. A record whose timestamp is no number is
skipped in both forms; any other failure ends the bulk message, with the records
of its own entry, which are stored by one commit, and of every later entry.
-/
namespace RainmakerServer.BulkTsdata
open Tables Runs Mqtt Nodes Redelivery

/-- An entry whose records are a list of objects. -/
structure Series where
  fields : JsonObject
  records : List JsonObject
  listed : Dict.get? "records".toList fields = some (.arr (records.map .obj))

def Series.name (s : Series) : Json := field "name" (.str []) s.fields
def Series.dt (s : Series) : Json := field "dt" (.str "int") s.fields

def simpleMessage (s : Series) (r : JsonObject) : JsonObject :=
  Dict.pick "name".toList s.fields ++ Dict.pick "dt".toList s.fields ++
    Dict.pick "t".toList r ++ Dict.pick "v".toList r

def simpleMessages (series : List Series) : List JsonObject :=
  series.flatMap fun s => s.records.map (simpleMessage s)

/-! One record. -/

def Storable (pf : Platform) (n : Text) (s : Series) (r : JsonObject) : Prop :=
  ∃ deviceName paramName point, splitName s.name = .ok (some (deviceName,paramName)) ∧
    pointOf pf (.obj r) = .ok (some point) ∧ Fits pf n deviceName paramName s.dt point

def recordRows (pf : Platform) (n : Text) (s : Series) (r : JsonObject) : List TsData :=
  messageRows pf n Topics.simpleTsdata (.obj (simpleMessage s r))

section
variable {pf : Platform} {n : Text} {s : Series} {r : JsonObject}

theorem message_get (k : Text) : Dict.get? k (simpleMessage s r) =
    (((if "name".toList = k then Dict.get? k s.fields else none).or
      (if "dt".toList = k then Dict.get? k s.fields else none)).or
      (if "t".toList = k then Dict.get? k r else none)).or
      (if "v".toList = k then Dict.get? k r else none) := by
  unfold simpleMessage
  simp only [Dict.get_append, Dict.get_pick]

theorem message_name : field "name" (.str []) (simpleMessage s r) = s.name := by
  unfold Series.name field
  rw [message_get,if_pos rfl,if_neg (by decide),if_neg (by decide),if_neg (by decide)]
  simp only [Option.or_none]

theorem message_dt : field "dt" (.str "int") (simpleMessage s r) = s.dt := by
  unfold Series.dt field
  rw [message_get,if_pos rfl,if_neg (by decide),if_neg (by decide),if_neg (by decide)]
  simp only [Option.or_none, Option.none_or]

theorem message_point : pointOf pf (.obj (simpleMessage s r)) = pointOf pf (.obj r) := by
  have time : Dict.get? "t".toList (simpleMessage s r) = Dict.get? "t".toList r := by
    rw [message_get,if_pos rfl,if_neg (by decide),if_neg (by decide),if_neg (by decide)]
    simp only [Option.or_none, Option.none_or]
  have value : field "v" .null (simpleMessage s r) = field "v" .null r := by
    unfold field
    rw [message_get,if_pos rfl,if_neg (by decide),if_neg (by decide),if_neg (by decide)]
    simp only [Option.none_or]
  simp only [pointOf, time, value]

theorem record_rows_named {deviceName paramName : Text}
    (named : splitName s.name = .ok (some (deviceName,paramName))) :
    recordRows pf n s r = match pointOf pf (.obj r) with
      | .ok (some point) => (callRows pf n deviceName paramName s.dt [point]).toOption.getD []
      | _ => [] := by
  simp only [recordRows, messageRows, if_true, seriesRows, message_name, message_dt, named,
    pointsOf, message_point]
  cases pointOf pf (.obj r) with
  | error e => rfl
  | ok point? =>
    cases point? with
    | none => rfl
    | some point => simp [Except.map]

theorem record_rows_unnamed (unnamed : ∀ parts, splitName s.name ≠ .ok (some parts)) :
    recordRows pf n s r = [] := by
  simp only [recordRows, messageRows, if_true, seriesRows, message_name]
  cases name : splitName s.name with
  | error e => rfl
  | ok parts? =>
    cases parts? with
    | none => rfl
    | some parts => exact absurd name (unnamed parts)

theorem record_rows_nil_iff : recordRows pf n s r = [] ↔ ¬ Storable pf n s r := by
  by_cases named : ∃ parts, splitName s.name = .ok (some parts)
  · obtain ⟨⟨deviceName,paramName⟩,named⟩ := named
    have storable : Storable pf n s r ↔ ∃ point, pointOf pf (.obj r) = .ok (some point) ∧
        Fits pf n deviceName paramName s.dt point := by
      simp [Storable, named]
    rw [record_rows_named named,storable]
    cases stamped : pointOf pf (.obj r) with
    | error e => simp
    | ok point? =>
      cases point? with
      | none => simp
      | some point =>
        dsimp only
        constructor
        · intro none stored
          obtain ⟨same,read,fits⟩ := stored
          cases read
          obtain ⟨rows,built⟩ := @call_rows_of_fit pf n deviceName paramName s.dt [point]
            (by simpa using fits)
          have one := (call_rows_fit built).1
          rw [built] at none
          cases none
          cases one
        · intro unfit
          cases built : callRows pf n deviceName paramName s.dt [point] with
          | error e => rfl
          | ok rows =>
            have fits := (call_rows_fit built).2 point (by simp)
            exact absurd ⟨point,rfl,fits⟩ unfit
  · rw [record_rows_unnamed fun parts same => named ⟨parts,same⟩]
    refine iff_of_true rfl ?_
    intro storable
    obtain ⟨deviceName,paramName,-,same,-⟩ := storable
    exact named ⟨_,same⟩

end

/-! One entry. -/

def Breaks (pf : Platform) (n : Text) (s : Series) : Prop :=
  (∃ e, splitName s.name = .error e) ∨
    ∃ deviceName paramName, splitName s.name = .ok (some (deviceName,paramName)) ∧
      ∃ r ∈ s.records, (∃ e, pointOf pf (.obj r) = .error e) ∨
        ∃ point, pointOf pf (.obj r) = .ok (some point) ∧
          ¬ Fits pf n deviceName paramName s.dt point

def storeRecords (pf : Platform) (n deviceName paramName : Text) (dt : Json)
    (records : List Json) : Except Exc (List TsData) :=
  match pointsOf pf records with
  | .error e => .error e
  | .ok points => callRows pf n deviceName paramName dt points

section
variable {pf : Platform} {n deviceName paramName : Text} {dt : Json}

theorem iterate_list (xs : List Json) : iterate (.arr xs) = .ok xs := by
  cases xs with
  | nil => rfl
  | cons x xs => rfl

theorem entry_rows_series (s : Series) : entryRows pf n (.obj s.fields) =
    match splitName s.name with
    | .error e => .error e
    | .ok none => .ok []
    | .ok (some (deviceName,paramName)) =>
      storeRecords pf n deviceName paramName s.dt (s.records.map .obj) := by
  have records : field "records" .null s.fields = .arr (s.records.map .obj) := by
    unfold field
    rw [s.listed]
    rfl
  simp only [entryRows, seriesRows]
  rw [records,iterate_list]
  rfl

theorem store_records_ok {records : List Json} {rows : List TsData} :
    storeRecords pf n deviceName paramName dt records = .ok rows ↔
      ∃ points, pointsOf pf records = .ok points ∧
        callRows pf n deviceName paramName dt points = .ok rows := by
  unfold storeRecords
  cases pointsOf pf records with
  | error e => simp
  | ok points => simp

theorem store_records_flat {s : Series}
    (named : splitName s.name = .ok (some (deviceName,paramName))) {records : List JsonObject}
    {rows : List TsData}
    (ok : storeRecords pf n deviceName paramName s.dt (records.map .obj) = .ok rows) :
    rows = records.flatMap (recordRows pf n s) := by
  induction records generalizing rows with
  | nil =>
    cases ok
    rfl
  | cons r records ih =>
    obtain ⟨points,read,stored⟩ := store_records_ok.mp ok
    obtain ⟨point?,rest,first,later,eq⟩ := points_of_cons.mp read
    subst eq
    rw [List.flatMap_cons,record_rows_named named,first]
    cases point? with
    | none => exact ih (store_records_ok.mpr ⟨rest,later,stored⟩)
    | some point =>
      obtain ⟨c,row,others,converted,built,more,eq⟩ := call_rows_cons.mp stored
      have alone : callRows pf n deviceName paramName s.dt [point] = .ok [row] :=
        call_rows_cons.mpr ⟨c,row,[],converted,built,rfl,rfl⟩
      rw [eq,ih (store_records_ok.mpr ⟨rest,later,more⟩)]
      dsimp only
      rw [alone]
      rfl

theorem store_records_ok_iff {records : List Json} :
    (∃ rows, storeRecords pf n deviceName paramName dt records = .ok rows) ↔
      ∀ r ∈ records, (∃ point?, pointOf pf r = .ok point?) ∧
        ∀ point, pointOf pf r = .ok (some point) → Fits pf n deviceName paramName dt point := by
  constructor
  · intro stored r member
    obtain ⟨rows,ok⟩ := stored
    obtain ⟨points,read,stored⟩ := store_records_ok.mp ok
    refine ⟨points_of_ok_iff.mp ⟨points,read⟩ r member,?_⟩
    intro point stamped
    exact (call_rows_fit stored).2 point ((points_of_mem read point).mpr ⟨r,member,stamped⟩)
  · intro sound
    obtain ⟨points,read⟩ := points_of_ok_iff.mpr fun r member => (sound r member).1
    have fit : ∀ point ∈ points, Fits pf n deviceName paramName dt point := by
      intro point member
      obtain ⟨r,there,stamped⟩ := (points_of_mem read point).mp member
      exact (sound r there).2 point stamped
    obtain ⟨rows,stored⟩ := call_rows_of_fit fit
    exact ⟨rows,store_records_ok.mpr ⟨points,read,stored⟩⟩

theorem entry_rows_cases (s : Series) :
    (¬ Breaks pf n s ∧
      entryRows pf n (.obj s.fields) = .ok (s.records.flatMap (recordRows pf n s))) ∨
    Breaks pf n s ∧ ∃ e, entryRows pf n (.obj s.fields) = .error e := by
  rw [entry_rows_series]
  cases name : splitName s.name with
  | error e => exact Or.inr ⟨Or.inl ⟨e,name⟩,e,rfl⟩
  | ok parts? =>
    cases parts? with
    | none =>
      have skipped : s.records.flatMap (recordRows pf n s) = [] := by
        rw [List.flatMap_eq_nil_iff]
        intro r _
        apply record_rows_unnamed
        intro parts same
        rw [name] at same
        cases same
      rw [skipped]
      exact Or.inl ⟨by simp [Breaks, name],rfl⟩
    | some parts =>
      obtain ⟨deviceName,paramName⟩ := parts
      dsimp only
      cases stored : storeRecords pf n deviceName paramName s.dt (s.records.map .obj) with
      | ok rows =>
        rw [store_records_flat name stored]
        refine Or.inl ⟨?_,rfl⟩
        have sound := store_records_ok_iff.mp ⟨rows,stored⟩
        intro breaks
        rcases breaks with ⟨e,raised⟩ | ⟨_,_,same,r,member,bad⟩
        · rw [name] at raised
          cases raised
        · rw [name] at same
          cases same
          obtain ⟨⟨point?,read⟩,fits⟩ := sound _ (List.mem_map_of_mem member)
          rcases bad with ⟨e,raised⟩ | ⟨point,stamped,unfit⟩
          · rw [read] at raised
            cases raised
          · exact unfit (fits point stamped)
      | error e =>
        refine Or.inr ⟨Or.inr ⟨deviceName,paramName,name,?_⟩,e,rfl⟩
        by_contra sound
        simp only [not_exists, not_and, not_or] at sound
        have fine : ∃ rows,
            storeRecords pf n deviceName paramName s.dt (s.records.map .obj) = .ok rows := by
          apply store_records_ok_iff.mpr
          intro r member
          obtain ⟨fields,there,eq⟩ := List.mem_map.mp member
          subst eq
          obtain ⟨read,fits⟩ := sound fields there
          refine ⟨?_,?_⟩
          · cases seen : pointOf pf (.obj fields) with
            | error e => exact absurd seen (read e)
            | ok point? => exact ⟨point?,rfl⟩
          · intro point stamped
            exact not_not.mp (fits point stamped)
        obtain ⟨rows,ok⟩ := fine
        rw [stored] at ok
        cases ok

end

/-! The whole message. -/

/-- Nothing is lost: no record of an entry that raises, or of an entry after
    it, would be stored alone. -/
def NothingLost (pf : Platform) (n : Text) (series : List Series) : Prop :=
  ∀ before s after, series = before ++ s :: after → Breaks pf n s →
    ∀ t ∈ s :: after, ∀ r ∈ t.records, ¬ Storable pf n t r

def entriesOf (series : List Series) : List Json := series.map fun s => .obj s.fields

def aloneRows (pf : Platform) (n : Text) (series : List Series) : List TsData :=
  series.flatMap fun s => s.records.flatMap (recordRows pf n s)

section
variable {pf : Platform} {n : Text} {s : Series} {series : List Series}

theorem alone_rows_nil_iff : aloneRows pf n series = [] ↔
    ∀ t ∈ series, ∀ r ∈ t.records, ¬ Storable pf n t r := by
  simp only [aloneRows, List.flatMap_eq_nil_iff, record_rows_nil_iff]

theorem nothing_lost_cons (sound : ¬ Breaks pf n s) :
    NothingLost pf n (s :: series) ↔ NothingLost pf n series := by
  constructor
  · intro kept before t after split
    exact kept (s :: before) t after (by rw [split]; rfl)
  · intro kept before t after split breaks
    cases before with
    | nil =>
      cases split
      exact absurd breaks sound
    | cons first before =>
      cases split
      exact kept before t after rfl breaks

theorem nothing_lost_breaks (breaks : Breaks pf n s) :
    NothingLost pf n (s :: series) ↔ aloneRows pf n (s :: series) = [] := by
  rw [alone_rows_nil_iff]
  constructor
  · intro kept
    exact kept [] s series rfl breaks
  · intro empty before t after split _ u member
    apply empty
    rw [split]
    exact List.mem_append_right before member

theorem bulk_rows_alone (pf : Platform) (n : Text) (series : List Series) :
    ∃ lost, aloneRows pf n series = bulkRows pf n (entriesOf series) ++ lost ∧
      (lost = [] ↔ NothingLost pf n series) := by
  induction series with
  | nil =>
    refine ⟨[],rfl,iff_of_true rfl ?_⟩
    intro before s after split
    cases before <;> cases split
  | cons s series ih =>
    obtain ⟨lost,rest,kept⟩ := ih
    rcases @entry_rows_cases pf n s with ⟨sound,stored⟩ | ⟨breaks,e,raised⟩
    · refine ⟨lost,?_,kept.trans (nothing_lost_cons sound).symm⟩
      have first : bulkRows pf n (entriesOf (s :: series)) =
          s.records.flatMap (recordRows pf n s) ++ bulkRows pf n (entriesOf series) := by
        simp only [entriesOf, List.map_cons, bulkRows, stored]
      rw [first,List.append_assoc,← rest]
      rfl
    · refine ⟨aloneRows pf n (s :: series),?_,(nothing_lost_breaks breaks).symm⟩
      have none : bulkRows pf n (entriesOf (s :: series)) = [] := by
        simp only [entriesOf, List.map_cons, bulkRows, raised]
      rw [none]
      rfl

end

/-! Topics. -/

def Unroutable (n : Text) : Prop := n = [] ∨ '/' ∈ n

section
variable {pf : Platform} {db : Db} {now : Time} {mappingId : Uuid} {n suffix : Text} {body : Bytes}

theorem routed (named : ¬ Unroutable n) (kind : OnTsdata suffix) :
    splitTopic (Topics.nodeTopic n suffix) = some (n,suffix) := by
  unfold Unroutable at named
  rw [not_or] at named
  refine split_topic_iff.mpr ⟨rfl,named.1,named.2,?_⟩
  rcases kind with bulk | simple
  · rw [bulk]
    decide
  · rw [simple]
    decide

theorem nested_suffix_ignored {head : Text} {value : Json} (kind : OnTsdata suffix) :
    handle pf db now mappingId n (head ++ '/' :: suffix) value = done db () := by
  have last : (head ++ '/' :: suffix).getLast? = some 'a' := by
    rw [List.getLast?_append]
    rcases kind with bulk | simple
    · rw [bulk]
      rfl
    · rw [simple]
      rfl
  have slash : '/' ∈ head ++ '/' :: suffix := by simp
  generalize head ++ '/' :: suffix = topic at last slash
  unfold handle
  rw [if_neg,if_neg,if_neg,if_neg,if_neg]
  · intro same
    rw [same] at slash
    exact absurd slash (by decide)
  · intro same
    rw [same] at slash
    exact absurd slash (by decide)
  · intro same
    rw [same] at last
    exact absurd last (by decide)
  · intro params
    rcases params with same | same
    · rw [same] at last
      exact absurd last (by decide)
    · rw [same] at last
      exact absurd last (by decide)
  · intro same
    rw [same] at last
    exact absurd last (by decide)

theorem unroutable_ignored (unroutable : Unroutable n) (kind : OnTsdata suffix) :
    dispatch pf db now mappingId (Topics.nodeTopic n suffix) body = db := by
  cases topical : splitTopic (Topics.nodeTopic n suffix) with
  | none => simp only [dispatch, topical]
  | some parts =>
    obtain ⟨m,rest⟩ := parts
    obtain ⟨eq,named,clean,-⟩ := split_topic_iff.mp topical
    rw [node_topic_levels,node_topic_levels,List.append_cancel_left_eq,List.cons.injEq] at eq
    have first : Split.cut '/' (n ++ '/' :: suffix) = some (m,rest) := by
      rw [eq.2]
      exact Split.cut_append clean
    have nested : ∃ head, rest = head ++ '/' :: suffix := by
      rcases unroutable with empty | slash
      · rw [empty] at first
        cases first
        exact absurd rfl named
      · obtain ⟨a,b,cut⟩ := Split.cut_of_mem slash
        obtain ⟨levels,short⟩ := Split.cut_some cut
        rw [levels,List.append_assoc,List.cons_append,Split.cut_append short] at first
        cases first
        exact ⟨b,rfl⟩
    obtain ⟨head,eq⟩ := nested
    subst eq
    simp only [dispatch, topical]
    cases parsePayload pf body with
    | none => rfl
    | some value => simp only [nested_suffix_ignored kind, done]

end

/-! The two forms, delivered. -/

/-- A message with the instant of its delivery and the key drawn for it. -/
structure Delivery where
  now : Time
  mappingId : Uuid
  body : Bytes

def deliver (pf : Platform) (n suffix : Text) (db : Db) (d : Delivery) : Db :=
  dispatch pf db d.now d.mappingId (Topics.nodeTopic n suffix) d.body

def Carries (pf : Platform) (d : Delivery) (message : JsonObject) : Prop :=
  parsePayload pf d.body = some (.obj message)

section
variable {pf : Platform} {n : Text} {db : Db} {ds : List Delivery}

theorem deliver_rows {suffix : Text} {d : Delivery} {message : JsonObject} (named : ¬ Unroutable n)
    (kind : OnTsdata suffix) (carries : Carries pf d message) :
    deliver pf n suffix db d = withRows db (messageRows pf n suffix (.obj message)) := by
  unfold Carries at carries
  unfold deliver
  rw [dispatch_rows (routed named kind) kind]
  simp only [payloadRows, carries]

theorem run_deliver_rows {messages : List JsonObject} (named : ¬ Unroutable n)
    (carried : List.Forall₂ (Carries pf) ds messages) :
    run (deliver pf n Topics.simpleTsdata) db ds =
      withRows db (messages.flatMap fun m => messageRows pf n Topics.simpleTsdata (.obj m)) := by
  induction carried generalizing db with
  | nil => exact (with_no_rows db).symm
  | cons carries rest ih =>
    rw [run,ih,deliver_rows named (Or.inr rfl) carries,with_rows_append]
    rfl

theorem run_unroutable (unroutable : Unroutable n) :
    run (deliver pf n Topics.simpleTsdata) db ds = db := by
  induction ds with
  | nil => rfl
  | cons d ds ih =>
    have ignored : deliver pf n Topics.simpleTsdata db d = db :=
      unroutable_ignored unroutable (Or.inr rfl)
    rw [run,ignored,ih]

theorem simple_messages_rows (series : List Series) :
    ((simpleMessages series).flatMap fun m => messageRows pf n Topics.simpleTsdata (.obj m)) =
      aloneRows pf n series := by
  simp only [simpleMessages, aloneRows, List.flatMap_assoc, List.flatMap_map]
  rfl

end

/-- The rows of a bulk message are those of its records, each sent alone,
    exactly when no entry raises before or at a record that would be stored. -/
theorem bulk_agrees_iff (pf : Platform) (db : Db) (n : Text) (bulk : Delivery)
    (payload : JsonObject) (series : List Series) (simple : List Delivery)
    (carries : Carries pf bulk payload)
    (listed : Dict.get? "ts_data".toList payload = some (.arr (entriesOf series)))
    (carried : List.Forall₂ (Carries pf) simple (simpleMessages series)) :
    (deliver pf n Topics.tsdata db bulk).tsdata.Perm
        (run (deliver pf n Topics.simpleTsdata) db simple).tsdata ↔
      Unroutable n ∨ NothingLost pf n series := by
  by_cases named : Unroutable n
  · have ignored : deliver pf n Topics.tsdata db bulk = db :=
      unroutable_ignored named (Or.inl rfl)
    rw [ignored,run_unroutable named]
    exact iff_of_true (List.Perm.refl _) (Or.inl named)
  · have other : Topics.tsdata ≠ Topics.simpleTsdata := by decide
    obtain ⟨lost,alone,kept⟩ := bulk_rows_alone pf n series
    have stored : (deliver pf n Topics.tsdata db bulk).tsdata =
        db.tsdata ++ bulkRows pf n (entriesOf series) := by
      rw [deliver_rows named (Or.inl rfl) carries]
      simp only [withRows, messageRows, if_neg other, listed]
    have singly : (run (deliver pf n Topics.simpleTsdata) db simple).tsdata =
        db.tsdata ++ (bulkRows pf n (entriesOf series) ++ lost) := by
      rw [run_deliver_rows named carried,simple_messages_rows,alone]
      rfl
    rw [stored,singly,List.perm_append_left_iff,← kept]
    constructor
    · intro same
      have length := same.length_eq
      rw [List.length_append] at length
      exact Or.inr (List.eq_nil_of_length_eq_zero (by omega))
    · intro condition
      rcases condition with bad | none
      · exact absurd bad named
      · rw [none,List.append_nil]

/-! A reading after a record that has no usable time, and after one that has no
    usable value. -/

def goodRecord : JsonObject := [("t",.int 1700000060),("v",.int 5)]
def timeless : JsonObject := [("t",.null),("v",.int 4)]
def valueless : JsonObject := [("t",.int 1700000000),("v",.null)]

def powerSeries (bad : JsonObject) : Series where
  fields := [("name",.str "Light.power"),("dt",.str "int"),
    ("records",.arr [.obj bad,.obj goodRecord])]
  records := [bad,goodRecord]
  listed := rfl

def bulkPayload (bad : JsonObject) : JsonObject :=
  [("ts_data",.arr (entriesOf [powerSeries bad]))]

def asBytes (s : Text) : Bytes := s.map fun c => UInt8.ofNat c.toNat

def bulkBody (bad : Text) : Bytes := asBytes
  (("\x7b\"ts_data\":[\x7b" : Text) ++ "\"name\":\"Light.power\"," ++ "\"dt\":\"int\",\"records\":[" ++
    "\x7b" ++ bad ++ "\x7d,\x7b" ++ "\"t\":1700000060,\"v\":5" ++ "\x7d]\x7d]\x7d")

def simpleBody (record : Text) : Bytes := asBytes
  (("\x7b\"name\":\"Light.power\"," : Text) ++ "\"dt\":\"int\"," ++ record ++ "\x7d")

def goodText : Text := "\"t\":1700000060,\"v\":5"
def timelessText : Text := "\"t\":null,\"v\":4"
def valuelessText : Text := "\"t\":1700000000,\"v\":null"

def platform : Platform := {Deployment.platform with
  jsonLoads := fun body =>
    if body = bulkBody timelessText then some (.obj (bulkPayload timeless))
    else if body = bulkBody valuelessText then some (.obj (bulkPayload valueless))
    else if body = simpleBody timelessText then
      some (.obj (simpleMessage (powerSeries timeless) timeless))
    else if body = simpleBody valuelessText then
      some (.obj (simpleMessage (powerSeries valueless) valueless))
    else if body = simpleBody goodText then
      some (.obj (simpleMessage (powerSeries valueless) goodRecord))
    else none}

def goodRow : TsData := ⟨1700000060,"lamp","Light","power","int",some 5,none,none,none⟩

def singly (bad : Text) : List Delivery := [⟨1,31,simpleBody bad⟩,⟨2,32,simpleBody goodText⟩]

theorem timeless_record_is_skipped :
    (deliver platform "lamp" Topics.tsdata Db.empty ⟨0,30,bulkBody timelessText⟩).tsdata.Perm
      (run (deliver platform "lamp" Topics.simpleTsdata) Db.empty (singly timelessText)).tsdata := by
  apply (bulk_agrees_iff platform Db.empty "lamp" ⟨0,30,bulkBody timelessText⟩
    (bulkPayload timeless) [powerSeries timeless] (singly timelessText) rfl rfl
    (.cons rfl (.cons rfl .nil))).mpr
  right
  intro before s after split breaks
  have sound : ¬ Breaks platform "lamp" (powerSeries timeless) := by
    rcases @entry_rows_cases platform "lamp" (powerSeries timeless) with
      ⟨sound,-⟩ | ⟨-,e,raised⟩
    · exact sound
    · have stored : entryRows platform "lamp" (.obj (powerSeries timeless).fields) =
          .ok [goodRow] := by rfl
      rw [stored] at raised
      cases raised
  cases before with
  | nil =>
    cases split
    exact absurd breaks sound
  | cons first before =>
    cases before <;> cases split

/-- The record without a value takes the reading after it with it. -/
theorem valueless_record_loses_the_next :
    Carries platform ⟨0,30,bulkBody valuelessText⟩ (bulkPayload valueless) ∧
    List.Forall₂ (Carries platform) (singly valuelessText)
      (simpleMessages [powerSeries valueless]) ∧
    (deliver platform "lamp" Topics.tsdata Db.empty ⟨0,30,bulkBody valuelessText⟩).tsdata = [] ∧
    (run (deliver platform "lamp" Topics.simpleTsdata) Db.empty (singly valuelessText)).tsdata =
      [goodRow] ∧
    ¬ (deliver platform "lamp" Topics.tsdata Db.empty ⟨0,30,bulkBody valuelessText⟩).tsdata.Perm
      (run (deliver platform "lamp" Topics.simpleTsdata) Db.empty (singly valuelessText)).tsdata := by
  have none : (deliver platform "lamp" Topics.tsdata Db.empty
      ⟨0,30,bulkBody valuelessText⟩).tsdata = [] := by decide +kernel
  have one : (run (deliver platform "lamp" Topics.simpleTsdata) Db.empty
      (singly valuelessText)).tsdata = [goodRow] := by decide +kernel
  refine ⟨rfl,.cons rfl (.cons rfl .nil),none,one,?_⟩
  rw [none,one]
  intro same
  exact absurd same.length_eq (by decide)

end RainmakerServer.BulkTsdata
