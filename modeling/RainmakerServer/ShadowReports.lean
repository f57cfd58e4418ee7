import RainmakerServer.Api
import RainmakerServer.Lib.Interleaving

/-!
Parameter reports that overlap. Every upsert reads the whole shadow and later
writes the whole merged document back, without a lock or a version, so a commit
that does not find the row it has read overwrites what was reported meanwhile.
A merged document that compares equal to the stored one is not written at all,
so a value that differs from the stored one and compares equal to it is lost.
-/
namespace RainmakerServer.ShadowReports
open Tables Runs Interleaving

/-- A payload that maps devices to objects. The keys of a dict are distinct. -/
structure Report where
  payload : JsonObject
  distinct : (Dict.keys payload).Nodup
  devices : ∀ entry ∈ payload, ∃ params, entry.2 = .obj params ∧ (Dict.keys params).Nodup

def Mentions (payload : JsonObject) (device param : Text) (value : Json) : Prop :=
  ∃ params, Dict.get? device payload = some (.obj params) ∧ Dict.get? param params = some value

/-! The merge, key by key. -/

def mergedValue (value : Json) : Option Json → Json
  | some (.obj current) => match value with
    | .obj params => .obj (Dict.update current params)
    | other => other
  | _ => value

theorem merge_entry_set (merged : JsonObject) (device : Text) (value : Json) :
    Nodes.mergeEntry merged (device,value) =
      Dict.set device (mergedValue value (Dict.get? device merged)) merged := by
  unfold Nodes.mergeEntry
  split
  · rename_i params current object present
    dsimp only at object present
    rw [present,object]
    rfl
  · rename_i plain
    have whole : mergedValue value (Dict.get? device merged) = value := by
      unfold mergedValue
      split
      · rename_i current present
        split
        · exact absurd present (plain _ _ rfl)
        · rfl
      · rfl
    rw [whole]

theorem merge_entry_get (merged : JsonObject) (device other : Text) (value : Json) :
    Dict.get? other (Nodes.mergeEntry merged (device,value)) =
      if device = other then some (mergedValue value (Dict.get? device merged))
      else Dict.get? other merged := by
  rw [merge_entry_set,Dict.get_set]

theorem merge_get_of_not_mem {update : JsonObject} {device : Text}
    (absent : device ∉ Dict.keys update) (current : JsonObject) :
    Dict.get? device (Nodes.mergeParams current update) = Dict.get? device current := by
  induction update generalizing current with
  | nil => rfl
  | cons entry update ih =>
    obtain ⟨name,value⟩ := entry
    simp only [Dict.keys, List.map_cons, List.mem_cons, not_or] at absent
    have rest := ih absent.2 (Nodes.mergeEntry current (name,value))
    rw [merge_entry_get,if_neg (Ne.symm absent.1)] at rest
    exact rest

theorem merge_get_of_mem {update : JsonObject} {device : Text} {value : Json}
    (distinct : (Dict.keys update).Nodup) (member : (device,value) ∈ update)
    (current : JsonObject) : Dict.get? device (Nodes.mergeParams current update) =
      some (mergedValue value (Dict.get? device current)) := by
  induction update generalizing current with
  | nil => cases member
  | cons entry update ih =>
    obtain ⟨name,first⟩ := entry
    simp only [Dict.keys, List.map_cons, List.nodup_cons] at distinct
    rcases List.mem_cons.mp member with here | later
    · cases here
      have rest := merge_get_of_not_mem distinct.1 (Nodes.mergeEntry current (device,value))
      rw [merge_entry_get,if_pos rfl] at rest
      exact rest
    · have other : name ≠ device := by
        intro same
        subst name
        exact distinct.1 (List.mem_map.mpr ⟨(device,value),later,rfl⟩)
      have rest := ih distinct.2 later (Nodes.mergeEntry current (name,first))
      rw [merge_entry_get,if_neg other] at rest
      exact rest

theorem merge_mentions (report : Report) (current : JsonObject) {device param : Text} {value : Json}
    (mentioned : Mentions report.payload device param value) :
    Mentions (Nodes.mergeParams current report.payload) device param value := by
  obtain ⟨params,present,found⟩ := mentioned
  have member : (device,Json.obj params) ∈ report.payload := Dict.mem_of_get present
  have merged := merge_get_of_mem report.distinct member current
  obtain ⟨own,same,distinct⟩ := report.devices _ member
  cases same
  cases held : Dict.get? device current with
  | none =>
    rw [held] at merged
    exact ⟨params,merged,found⟩
  | some before =>
    rw [held] at merged
    cases before with
    | obj before =>
      exact ⟨_,merged,Dict.get_update_of_mem distinct (Dict.mem_of_get found) before⟩
    | _ => exact ⟨params,merged,found⟩

theorem merge_keeps (report : Report) {current : JsonObject} {device param : Text} {value : Json}
    (held : Mentions current device param value)
    (unmentioned : ∀ other, ¬ Mentions report.payload device param other) :
    Mentions (Nodes.mergeParams current report.payload) device param value := by
  obtain ⟨before,present,found⟩ := held
  cases reported : Dict.get? device report.payload with
  | none =>
    have absent : device ∉ Dict.keys report.payload := by
      intro key
      obtain ⟨entry,member,same⟩ := List.mem_map.mp key
      subst same
      rw [Dict.get_of_mem report.distinct member] at reported
      cases reported
    refine ⟨before,?_,found⟩
    rw [merge_get_of_not_mem absent]
    exact present
  | some fresh =>
    have member : (device,fresh) ∈ report.payload := Dict.mem_of_get reported
    obtain ⟨params,object,distinct⟩ := report.devices _ member
    dsimp only at object
    subst object
    have absent : param ∉ Dict.keys params := by
      intro key
      obtain ⟨entry,inside,same⟩ := List.mem_map.mp key
      subst same
      exact unmentioned entry.2 ⟨params,reported,Dict.get_of_mem distinct inside⟩
    refine ⟨Dict.update before params,?_,?_⟩
    · rw [merge_get_of_mem report.distinct member,present]
      rfl
    · rw [Dict.get_update_of_not_mem absent]
      exact found

theorem merge_closed {key : Text → Prop} {whole : Json → Prop} {inner : Text × Json → Prop}
    (object : ∀ fields, whole (.obj fields) ↔ ∀ p ∈ fields, inner p) {current update : JsonObject}
    (left : ∀ p ∈ current, key p.1 ∧ whole p.2) (right : ∀ p ∈ update, key p.1 ∧ whole p.2) :
    ∀ p ∈ Nodes.mergeParams current update, key p.1 ∧ whole p.2 := by
  induction update generalizing current with
  | nil => exact left
  | cons entry update ih =>
    obtain ⟨device,value⟩ := entry
    obtain ⟨⟨named,fine⟩,rest⟩ := List.forall_mem_cons.mp right
    have written : ∀ v, whole v → ∀ p ∈ Dict.set device v current, key p.1 ∧ whole p.2 := by
      intro v fits p member
      rcases Dict.mem_set member with new | old
      · rw [new]
        exact ⟨named,fits⟩
      · exact left p old
    refine ih ?_ rest
    unfold Nodes.mergeEntry
    split
    · rename_i params before same present
      dsimp only at same present fine
      subst same
      refine written _ ((object _).mpr ?_)
      intro p member
      rcases Dict.mem_update member with old | new
      · exact (object before).mp (left _ (Dict.mem_of_get present)).2 p old
      · exact (object params).mp fine p new
    · exact written value fine

theorem merge_storable {current update : JsonObject} (left : Json.storableFields current = true)
    (right : Json.storableFields update = true) :
    Json.storableFields (Nodes.mergeParams current update) = true := by
  rw [Json.storableFields_iff] at left right ⊢
  exact @merge_closed (fun k => k.contains '\x00' = false) (fun v => v.storable = true)
    (fun p => p.1.contains '\x00' = false ∧ p.2.storable = true)
    (fun _ => Json.storableFields_iff) current update left right

section
variable {db : Db} {n : Text}

theorem read_shadow_named {row : NodeParamsShadow} (found : Nodes.readShadow db n = some row) :
    row ∈ db.nodeParamsShadow ∧ row.nodeId = n := by
  have hit := List.find?_some found
  exact ⟨List.mem_of_find?_eq_some found,by simpa using hit⟩

theorem read_shadow_width {row : NodeParamsShadow} (found : Nodes.readShadow db n = some row) :
    varchar 64 n = true := by
  obtain ⟨stored,named⟩ := read_shadow_named found
  rw [← named]
  exact Table.holds_of_mem stored

theorem stored_shadow (payload : JsonObject) (width : varchar 64 n = true) :
    Schema.stored (⟨n,payload⟩ : NodeParamsShadow) = ⟨n,payload⟩ := by
  simp only [Schema.stored, cut_of_varchar width]

theorem read_after_insert {payload : JsonObject} {t : Table NodeParamsShadow}
    (absent : Nodes.readShadow db n = none) (width : varchar 64 n = true)
    (inserted : db.nodeParamsShadow.insert ⟨n,payload⟩ = .ok t) :
    Nodes.readShadow {db with nodeParamsShadow := t} n = some ⟨n,payload⟩ := by
  unfold Nodes.readShadow at absent ⊢
  dsimp only
  rw [(Table.insert_ok inserted).1,stored_shadow payload width,List.find?_append,absent]
  simp

theorem read_after_update {existing : NodeParamsShadow} (payload : JsonObject)
    (found : Nodes.readShadow db n = some existing) :
    Nodes.readShadow (Nodes.setShadow db n payload) n = some {existing with payload := payload} := by
  unfold Nodes.readShadow at found ⊢
  simp only [Nodes.setShadow]
  rw [Table.find_update (by intro r here; exact here),found]
  rfl

/-- The node is stored, and its shadow is a document that the column has taken. -/
structure Registered (db : Db) (n : Text) : Prop where
  node : db.hasNode n = true
  shadow : ∀ row, Nodes.readShadow db n = some row → Json.storableFields row.payload = true

theorem upsert_shadow {payload : JsonObject} (registered : Registered db n)
    (storable : Json.storableFields payload = true) :
    ∃ db' row, Nodes.upsertParamsShadow db n payload = .ok db' ∧ Registered db' n ∧
      Nodes.readShadow db' n = some row ∧
      ((Nodes.readShadow db n = none ∧ row.payload = payload) ∨
        ∃ existing, Nodes.readShadow db n = some existing ∧
          (row.payload = Nodes.mergeParams existing.payload payload ∨ row = existing ∧
            Json.pyEq (.obj (Nodes.mergeParams existing.payload payload))
              (.obj existing.payload) = true)) := by
  have width : varchar 64 n = true := Db.hasNode_varchar registered.node
  unfold Nodes.upsertParamsShadow
  cases found : Nodes.readShadow db n with
  | none =>
    have whole := stored_shadow payload width
    have fits : Schema.fits (⟨n,payload⟩ : NodeParamsShadow) = true := by
      simp [Schema.fits, assignable_of_varchar width, storable]
    have free : ∀ r ∈ db.nodeParamsShadow,
        Schema.conflict r (Schema.stored (⟨n,payload⟩ : NodeParamsShadow)) = false := by
      intro r member
      have other := List.find?_eq_none.mp found r member
      rw [whole]
      simpa [Schema.conflict] using other
    obtain ⟨t,inserted⟩ := Table.insert_succeeds fits free
    have read := read_after_insert found width inserted
    have present : db.hasNode n = true := registered.node
    refine ⟨{db with nodeParamsShadow := t},⟨n,payload⟩,?_,⟨present,?_⟩,read,Or.inl ⟨rfl,rfl⟩⟩
    · simp only [Nodes.commitShadow, commitInsert, inserted, whole, present, ↓reduceIte]
    · intro row again
      rw [read] at again
      cases again
      exact storable
  | some existing =>
    have before : Json.storableFields existing.payload = true := registered.shadow existing found
    by_cases equal : Json.pyEq (.obj (Nodes.mergeParams existing.payload payload))
        (.obj existing.payload) = true
    · refine ⟨db,existing,?_,registered,found,Or.inr ⟨existing,rfl,Or.inr ⟨rfl,equal⟩⟩⟩
      simp only [Nodes.commitShadow, equal, ↓reduceIte]
    · have fine : Json.storableFields (Nodes.mergeParams existing.payload payload) = true :=
        merge_storable before storable
      have read := read_after_update (Nodes.mergeParams existing.payload payload) found
      refine ⟨Nodes.setShadow db n (Nodes.mergeParams existing.payload payload),_,?_,
        ⟨registered.node,?_⟩,read,Or.inr ⟨existing,rfl,Or.inl rfl⟩⟩
      · simp [Nodes.commitShadow, equal, fine]
      · intro row again
        rw [read] at again
        cases again
        exact fine

end

/-! Overlapping calls. -/

def Shows (db : Db) (n device param : Text) (value : Json) : Prop :=
  ∃ row, Nodes.readShadow db n = some row ∧ Mentions row.payload device param value

/-- The report does not merge to a document that compares equal to the stored
    one and differs from it. -/
def Literal (n : Text) (payload : JsonObject) (db : Db) : Prop :=
  ∀ row, Nodes.readShadow db n = some row →
    Json.pyEq (.obj (Nodes.mergeParams row.payload payload)) (.obj row.payload) = true →
      Nodes.mergeParams row.payload payload = row.payload

/-- `upsert_params_shadow` as its two database steps. A commit that fails keeps
    what is stored; the ingestor drops the exception. -/
def upsertCall (n : Text) (report : Report) : Interleaving.Call Db (Option NodeParamsShadow) where
  read db := Nodes.readShadow db n
  commit seen db := (Mqtt.commitLast db (Nodes.commitShadow db n seen report.payload)).1

variable {ι : Type}

def calls (n : Text) (reports : ι → Report) (i : ι) :
    Interleaving.Call Db (Option NodeParamsShadow) := upsertCall n (reports i)

theorem atomic_upsert {n : Text} {report : Report} {db : Db} (registered : Registered db n)
    (storable : Json.storableFields report.payload = true) :
    ∃ row, Registered ((upsertCall n report).atomic db) n ∧
      Nodes.readShadow ((upsertCall n report).atomic db) n = some row ∧
      ((Nodes.readShadow db n = none ∧ row.payload = report.payload) ∨
        ∃ existing, Nodes.readShadow db n = some existing ∧
          (row.payload = Nodes.mergeParams existing.payload report.payload ∨ row = existing ∧
            Json.pyEq (.obj (Nodes.mergeParams existing.payload report.payload))
              (.obj existing.payload) = true)) := by
  obtain ⟨db',row,ok,kept,read,how⟩ := upsert_shadow registered storable
  have after : (upsertCall n report).atomic db = db' := by
    have unfolded : Nodes.commitShadow db n (Nodes.readShadow db n) report.payload = .ok db' := ok
    simp only [Interleaving.Call.atomic, upsertCall, unfolded, Mqtt.commitLast, done]
  rw [after]
  exact ⟨row,kept,read,how⟩

theorem atomic_written {n : Text} {report : Report} {db : Db} (registered : Registered db n)
    (storable : Json.storableFields report.payload = true) (literal : Literal n report.payload db) :
    ∃ row, Nodes.readShadow ((upsertCall n report).atomic db) n = some row ∧
      (row.payload = report.payload ∨ ∃ existing, Nodes.readShadow db n = some existing ∧
        row.payload = Nodes.mergeParams existing.payload report.payload) := by
  obtain ⟨row,-,read,⟨-,whole⟩ | ⟨existing,present,merged | ⟨same,equal⟩⟩⟩ :=
    atomic_upsert registered storable
  · exact ⟨row,read,Or.inl whole⟩
  · exact ⟨row,read,Or.inr ⟨existing,present,merged⟩⟩
  · refine ⟨row,read,Or.inr ⟨existing,present,?_⟩⟩
    rw [same]
    exact (literal existing present equal).symm

theorem atomic_shows {n : Text} {report : Report} {db : Db} (registered : Registered db n)
    (storable : Json.storableFields report.payload = true) (literal : Literal n report.payload db)
    {device param : Text} {value : Json} (mentioned : Mentions report.payload device param value) :
    Shows ((upsertCall n report).atomic db) n device param value := by
  obtain ⟨row,read,whole | ⟨existing,-,merged⟩⟩ := atomic_written registered storable literal
  · refine ⟨row,read,?_⟩
    rw [whole]
    exact mentioned
  · refine ⟨row,read,?_⟩
    rw [merged]
    exact merge_mentions report existing.payload mentioned

theorem atomic_keeps {n : Text} {report : Report} {db : Db} (registered : Registered db n)
    (storable : Json.storableFields report.payload = true) {device param : Text} {value : Json}
    (shown : Shows db n device param value)
    (unmentioned : ∀ other, ¬ Mentions report.payload device param other) :
    Shows ((upsertCall n report).atomic db) n device param value := by
  obtain ⟨before,found,mentioned⟩ := shown
  obtain ⟨row,-,read,⟨absent,-⟩ | ⟨existing,present,how⟩⟩ := atomic_upsert registered storable
  · rw [found] at absent
    cases absent
  · rw [found] at present
    cases present
    rcases how with merged | ⟨same,-⟩
    · refine ⟨row,read,?_⟩
      rw [merged]
      exact merge_keeps report mentioned unmentioned
    · refine ⟨row,read,?_⟩
      rw [same]
      exact mentioned

/-- No two reports mention the same parameter of the same device. -/
def Disjoint (reports : ι → Report) : Prop :=
  ∀ i j, i ≠ j → ∀ device param value, Mentions (reports i).payload device param value →
    ∀ other, ¬ Mentions (reports j).payload device param other

variable [DecidableEq ι]

/-- When every commit finds the row it has read, or its absence, and merges to no
    document that only compares equal to it, the shadow shows every parameter of
    every finished report. -/
theorem no_report_lost (n : Text) (db : Db) (reports : ι → Report) (acts : List (Action ι))
    (registered : Registered db n) (disjoint : Disjoint reports)
    (storable : ∀ i, Json.storableFields (reports i).payload = true)
    (isolated : Along (act (calls n reports)) (Isolated (calls n reports)) (Config.start db) acts)
    (literal : Along (act (calls n reports)) (Meets fun i s => Literal n (reports i).payload s)
      (Config.start db) acts) :
    ∀ i, (run (act (calls n reports)) (Config.start db) acts).phase i = .finished →
      ∀ device param value, Mentions (reports i).payload device param value →
        Shows (run (act (calls n reports)) (Config.start db) acts).shared n device param value := by
  let effect : ι → Db → Prop := fun i s => ∀ device param value,
    Mentions (reports i).payload device param value → Shows s n device param value
  refine isolated_keeps_effects (calls n reports) (fun i s => Literal n (reports i).payload s)
    (fun s => Registered s n) effect ?_ ?_ ?_ registered isolated literal
  · intro i s known
    obtain ⟨_,kept,-⟩ := atomic_upsert known (storable i)
    exact kept
  · intro i s known literal device param value mentioned
    exact atomic_shows known (storable i) literal mentioned
  · intro i j s known different shown device param value mentioned
    exact atomic_keeps known (storable i) (shown device param value mentioned)
      (disjoint j i different device param value mentioned)

def single (device param : Text) (value : Json) : Report where
  payload := [(device,.obj [(param,value)])]
  distinct := List.nodup_singleton _
  devices entry member := by
    rw [List.mem_singleton.mp member]
    exact ⟨_,rfl,List.nodup_singleton _⟩

theorem single_mentions {device param d p : Text} {value v : Json}
    (mentioned : Mentions (single device param value).payload d p v) :
    device = d ∧ param = p ∧ value = v := by
  obtain ⟨params,present,found⟩ := mentioned
  have outer := Dict.mem_of_get present
  simp only [single, List.mem_singleton, Prod.mk.injEq, Json.obj.injEq] at outer
  rw [outer.2] at found
  have inner := Dict.mem_of_get found
  simp only [List.mem_singleton, Prod.mk.injEq] at inner
  exact ⟨outer.1.symm,inner.1.symm,inner.2.symm⟩

def lampId : Text := "aabbccddeeff"

def lampReports : Bool → Report
  | false => single "Light" "power" (.bool true)
  | true => single "Light" "level" (.int 3)

theorem lamp_reports_disjoint : Disjoint lampReports := by
  have apart : "power".toList ≠ "level".toList := by decide
  intro i j different device param value first other second
  cases i with
  | false =>
    cases j with
    | false => exact different rfl
    | true =>
      obtain ⟨-,left,-⟩ := single_mentions first
      obtain ⟨-,right,-⟩ := single_mentions second
      exact apart (left.trans right.symm)
  | true =>
    cases j with
    | false =>
      obtain ⟨-,left,-⟩ := single_mentions first
      obtain ⟨-,right,-⟩ := single_mentions second
      exact apart (right.trans left.symm)
    | true => exact different rfl

def lamp : Db where
  nodes := .one {nodeId := lampId}
  nodeParamsShadow := .one ⟨lampId,[]⟩

theorem lamp_registered : Registered lamp lampId := by
  refine ⟨by decide +kernel,?_⟩
  intro row found
  have member := (read_shadow_named found).1
  rw [List.mem_singleton.mp member]
  decide

theorem reports_in_turn_are_shown :
    let shared := (run (act (calls lampId lampReports)) (Config.start lamp)
      [.read false,.commit false,.read true,.commit true]).shared
    Shows shared lampId "Light" "power" (.bool true) ∧
      Shows shared lampId "Light" "level" (.int 3) := by
  have shown := no_report_lost lampId lamp lampReports
    [.read false,.commit false,.read true,.commit true] lamp_registered lamp_reports_disjoint
    (by intro j; cases j <;> decide) ?_ ?_
  · exact ⟨shown false rfl _ _ _ ⟨_,rfl,rfl⟩,shown true rfl _ _ _ ⟨_,rfl,rfl⟩⟩
  · refine ⟨trivial,?_,trivial,?_,trivial⟩
    · intro seen held
      cases held
      rfl
    · intro seen held
      cases held
      rfl
  · refine ⟨trivial,?_,trivial,?_,trivial⟩
    · intro seen held row stored equal
      cases stored
      cases equal
    · intro seen held row stored equal
      cases stored
      cases equal

/-- Both calls read the shadow before either writes it back: the second write
    takes the first report away. -/
theorem overlapping_reports_lose_one :
    Registered lamp lampId ∧ Disjoint lampReports ∧
      (∀ i, (run (act (calls lampId lampReports)) (Config.start lamp)
        [.read false,.read true,.commit false,.commit true]).phase i = .finished) ∧
      Mentions (lampReports false).payload "Light" "power" (.bool true) ∧
      ¬ Shows (run (act (calls lampId lampReports)) (Config.start lamp)
        [.read false,.read true,.commit false,.commit true]).shared lampId "Light" "power"
          (.bool true) := by
  refine ⟨lamp_registered,lamp_reports_disjoint,?_,⟨_,rfl,rfl⟩,?_⟩
  · intro i
    cases i <;> rfl
  · rintro ⟨row,found,mentioned⟩
    have final : Nodes.readShadow (run (act (calls lampId lampReports)) (Config.start lamp)
        [.read false,.read true,.commit false,.commit true]).shared lampId =
          some ⟨lampId,(lampReports true).payload⟩ := rfl
    rw [final] at found
    cases found
    obtain ⟨-,named,-⟩ := single_mentions mentioned
    exact absurd named (by decide)

end RainmakerServer.ShadowReports
