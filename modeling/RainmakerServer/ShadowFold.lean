import RainmakerServer.Deployment
import RainmakerServer.ShadowReports

/-!
The shadow as a fold of the reports that were accepted. The closed form speaks
of what the reports say about one device, newest first: a device whose newest
value is no object holds that value, and otherwise it holds the parameters of
the objects reported since the last value that was none.
-/
namespace RainmakerServer.ShadowFold
open Tables Runs Api

/-- A payload as parsed: its keys and the keys of its objects are distinct. -/
structure Update where
  payload : JsonObject
  distinct : (Dict.keys payload).Nodup
  objects : ∀ device params, (device,Json.obj params) ∈ payload → (Dict.keys params).Nodup

def isObject : Json → Bool
  | .obj _ => true
  | _ => false

def mentions (device : Text) (us : List Update) : List Json :=
  us.reverse.filterMap fun u => Dict.get? device u.payload

def objectRun : List Json → List JsonObject
  | .obj params :: older => params :: objectRun older
  | _ => []

def newest (param : Text) (run : List JsonObject) : Option Json := run.findSome? (Dict.get? param)

/-- The document `s` is the fold of the updates, with values compared by `R`. -/
structure ClosedForm (R : Json → Json → Prop) (us : List Update) (s : JsonObject) : Prop where
  keys : ∀ d, d ∈ Dict.keys s ↔ ∃ u ∈ us, d ∈ Dict.keys u.payload
  plain : ∀ d v older, mentions d us = v :: older → isObject v = false →
    ∃ held, Dict.get? d s = some held ∧ R v held
  object : ∀ d params older, mentions d us = .obj params :: older →
    ∃ fields, Dict.get? d s = some (.obj fields) ∧
      (∀ p, p ∈ Dict.keys fields ↔ ∃ q ∈ objectRun (mentions d us), p ∈ Dict.keys q) ∧
      ∀ p v, newest p (objectRun (mentions d us)) = some v →
        ∃ held, Dict.get? p fields = some held ∧ R v held

def Like (v held : Json) : Prop := held = v ∨ Json.pyEq v held = true

/-! One device. -/

def Folded (R : Json → Json → Prop) : List Json → Option Json → Prop
  | [], held => held = none
  | .obj params :: older, held => ∃ fields, held = some (.obj fields) ∧
      ∀ p, Option.Rel R (newest p (params :: objectRun older)) (Dict.get? p fields)
  | v :: _, held => ∃ h, held = some h ∧ R v h

section
variable {R : Json → Json → Prop} {ms : List Json} {held : Option Json}

theorem rel_refl (refl : ∀ v, R v v) (v : Option Json) : Option.Rel R v v := by
  cases v with
  | none => exact .none
  | some v => exact .some (refl v)

theorem rel_none_iff {a b : Option Json} (rel : Option.Rel R a b) : a = none ↔ b = none := by
  cases rel with
  | some like => simp
  | none => exact Iff.rfl

theorem rel_some {v : Json} {b : Option Json} (rel : Option.Rel R (some v) b) :
    ∃ h, b = some h ∧ R v h := by
  cases rel with
  | some like => exact ⟨_,rfl,like⟩

theorem newest_none_iff {p : Text} {run : List JsonObject} :
    newest p run = none ↔ ∀ q ∈ run, p ∉ Dict.keys q := by
  unfold newest
  simp only [List.findSome?_eq_none_iff, Dict.get_none_iff]

theorem newest_singleton (p : Text) (params : JsonObject) :
    newest p [params] = Dict.get? p params := by
  unfold newest
  rw [List.findSome?_cons]
  cases Dict.get? p params with
  | none => rfl
  | some value => rfl

theorem merged_plain {v : Json} (plain : isObject v = false) :
    ShadowReports.mergedValue v held = v := by
  cases held with
  | none => rfl
  | some h =>
    cases h with
    | obj current =>
      cases v with
      | obj params => cases plain
      | _ => rfl
    | _ => rfl

theorem folded_plain {v : Json} (plain : isObject v = false) :
    Folded R (v :: ms) held ↔ ∃ h, held = some h ∧ R v h := by
  cases v with
  | obj params => cases plain
  | _ => exact Iff.rfl

theorem folded_none_iff (folded : Folded R ms held) : ms = [] ↔ held = none := by
  cases ms with
  | nil => exact iff_of_true rfl folded
  | cons v older =>
    have present : held ≠ none := by
      intro absent
      subst absent
      cases v with
      | obj params =>
        obtain ⟨fields,same,-⟩ := folded
        cases same
      | _ =>
        obtain ⟨h,same,-⟩ := folded
        cases same
    exact iff_of_false (List.cons_ne_nil v older) present

theorem folded_object (object : ∀ v fields, R v (.obj fields) → isObject v = true)
    {fields : JsonObject} (folded : Folded R ms (some (.obj fields))) :
    ∀ p, Option.Rel R (newest p (objectRun ms)) (Dict.get? p fields) := by
  cases ms with
  | nil => cases folded
  | cons v older =>
    by_cases plain : isObject v = true
    · cases v with
      | obj params =>
        obtain ⟨own,same,rel⟩ := folded
        cases same
        exact rel
      | _ => cases plain
    · rw [Bool.not_eq_true] at plain
      obtain ⟨h,same,rel⟩ := (folded_plain plain).mp folded
      cases same
      rw [object v fields rel] at plain
      cases plain

theorem folded_no_object (folded : Folded R ms held) (other : ∀ fields, held ≠ some (.obj fields)) :
    objectRun ms = [] := by
  cases ms with
  | nil => rfl
  | cons v older =>
    cases v with
    | obj params =>
      obtain ⟨fields,same,-⟩ := folded
      exact absurd same (other fields)
    | _ => rfl

theorem folded_merge (refl : ∀ v, R v v)
    (object : ∀ v fields, R v (.obj fields) → isObject v = true) {v : Json}
    (distinct : ∀ params, v = .obj params → (Dict.keys params).Nodup) (folded : Folded R ms held) :
    Folded R (v :: ms) (some (ShadowReports.mergedValue v held)) := by
  by_cases plain : isObject v = true
  · cases v with
    | obj params =>
      by_cases merges : ∃ current, held = some (.obj current)
      · obtain ⟨current,eq⟩ := merges
        subst eq
        have before := folded_object object folded
        refine ⟨Dict.update current params,rfl,?_⟩
        intro p
        unfold newest
        rw [List.findSome?_cons]
        cases found : Dict.get? p params with
        | none =>
          rw [Dict.get_update_of_not_mem (Dict.get_none_iff.mp found)]
          exact before p
        | some value =>
          rw [Dict.get_update_of_mem (distinct params rfl) (Dict.mem_of_get found)]
          exact .some (refl value)
      · -- the object replaces what is there, and starts a new run
        have fresh : objectRun ms = [] :=
          folded_no_object folded fun fields same => merges ⟨fields,same⟩
        have whole : ShadowReports.mergedValue (.obj params) held = .obj params := by
          cases held with
          | none => rfl
          | some h =>
            cases h with
            | obj current => exact absurd ⟨current,rfl⟩ merges
            | _ => rfl
        rw [whole]
        refine ⟨params,rfl,?_⟩
        intro p
        rw [fresh,newest_singleton]
        exact rel_refl refl _
    | _ => cases plain
  · rw [Bool.not_eq_true] at plain
    rw [folded_plain plain]
    refine ⟨_,rfl,?_⟩
    rw [merged_plain plain]
    exact refl v

theorem like_refl (v : Json) : Like v v := Or.inl rfl

theorem like_object (v : Json) (fields : JsonObject) (like : Like v (.obj fields)) :
    isObject v = true := by
  rcases like with same | equal
  · rw [← same]
    rfl
  · cases v with
    | obj params => rfl
    | _ => simp [Json.pyEq, Json.numEq, Json.number?] at equal

theorem folded_skip {v h : Json}
    (distinct : ∀ params, v = .obj params → (Dict.keys params).Nodup)
    (folded : Folded Like ms (some h))
    (equal : Json.pyEq (ShadowReports.mergedValue v (some h)) h = true) :
    Folded Like (v :: ms) (some h) := by
  have merged := folded_merge like_refl like_object distinct folded
  by_cases plain : isObject v = true
  · cases v with
    | obj params =>
      obtain ⟨fields,object,rel⟩ := merged
      rw [Option.some.injEq] at object
      rw [object] at equal
      obtain ⟨current,same,inner⟩ := Json.pyEq_obj_left equal
      subst same
      have update : fields = Dict.update current params := by
        cases object
        rfl
      refine ⟨current,rfl,?_⟩
      intro p
      cases found : Dict.get? p params with
      | some value =>
        have first : newest p (params :: objectRun ms) = some value := by
          unfold newest
          rw [List.findSome?_cons,found]
        have written : Dict.get? p fields = some value := by
          rw [update]
          exact Dict.get_update_of_mem (distinct params rfl) (Dict.mem_of_get found) current
        obtain ⟨kept,there,like⟩ := Json.pyEqFields_get inner written
        rw [first,there]
        exact .some (Or.inr like)
      | none =>
        have untouched : Dict.get? p fields = Dict.get? p current := by
          rw [update]
          exact Dict.get_update_of_not_mem (Dict.get_none_iff.mp found) current
        rw [← untouched]
        exact rel p
    | _ => cases plain
  · rw [Bool.not_eq_true] at plain
    rw [folded_plain plain] at merged ⊢
    obtain ⟨whole,same,-⟩ := merged
    refine ⟨h,rfl,Or.inr ?_⟩
    rw [merged_plain plain] at equal
    exact equal

end

/-! The document. -/

def FoldOf (R : Json → Json → Prop) (us : List Update) (s : JsonObject) : Prop :=
  ∀ d, Folded R (mentions d us) (Dict.get? d s)

theorem mentions_append (d : Text) (us : List Update) (u : Update) : mentions d (us ++ [u]) =
    (Dict.get? d u.payload).toList ++ mentions d us := by
  unfold mentions
  rw [List.reverse_append,List.reverse_singleton,List.singleton_append,List.filterMap_cons]
  cases Dict.get? d u.payload with
  | none => rfl
  | some v => rfl

theorem update_object (u : Update) {d : Text} {v : Json} (found : Dict.get? d u.payload = some v) :
    ∀ params, v = .obj params → (Dict.keys params).Nodup := by
  intro params object
  subst object
  exact u.objects d params (Dict.mem_of_get found)

theorem merge_get (u : Update) (s : JsonObject) (d : Text) :
    Dict.get? d (Nodes.mergeParams s u.payload) = match Dict.get? d u.payload with
      | none => Dict.get? d s
      | some v => some (ShadowReports.mergedValue v (Dict.get? d s)) := by
  cases found : Dict.get? d u.payload with
  | none => exact ShadowReports.merge_get_of_not_mem (Dict.get_none_iff.mp found) s
  | some v => exact ShadowReports.merge_get_of_mem u.distinct (Dict.mem_of_get found) s

section
variable {R : Json → Json → Prop} {us : List Update} {s : JsonObject}

theorem fold_merge (refl : ∀ v, R v v)
    (object : ∀ v fields, R v (.obj fields) → isObject v = true) (u : Update)
    (fold : FoldOf R us s) : FoldOf R (us ++ [u]) (Nodes.mergeParams s u.payload) := by
  intro d
  rw [mentions_append,merge_get]
  cases found : Dict.get? d u.payload with
  | none => exact fold d
  | some v => exact folded_merge refl object (update_object u found) (fold d)

theorem fold_first (refl : ∀ v, R v v)
    (object : ∀ v fields, R v (.obj fields) → isObject v = true) (u : Update) :
    FoldOf R [u] u.payload := by
  intro d
  have said : mentions d [u] = (Dict.get? d u.payload).toList := by
    rw [← List.nil_append [u],mentions_append]
    exact List.append_nil _
  rw [said]
  cases found : Dict.get? d u.payload with
  | none => rfl
  | some v =>
    have empty : Folded R [] none := rfl
    exact folded_merge refl object (update_object u found) empty

theorem fold_skip (u : Update) (fold : FoldOf Like us s)
    (equal : Json.pyEq (.obj (Nodes.mergeParams s u.payload)) (.obj s) = true) :
    FoldOf Like (us ++ [u]) s := by
  intro d
  rw [mentions_append]
  cases found : Dict.get? d u.payload with
  | none => exact fold d
  | some v =>
    obtain ⟨_,same,fields⟩ := Json.pyEq_obj_left equal
    cases same
    have written : Dict.get? d (Nodes.mergeParams s u.payload) =
        some (ShadowReports.mergedValue v (Dict.get? d s)) := by
      rw [merge_get,found]
    obtain ⟨h,held,like⟩ := Json.pyEqFields_get fields written
    have before := fold d
    rw [held] at like before ⊢
    exact folded_skip (update_object u found) before like

theorem mentions_nil_iff {d : Text} : mentions d us = [] ↔ ∀ u ∈ us, d ∉ Dict.keys u.payload := by
  unfold mentions
  simp only [List.filterMap_eq_nil_iff, List.mem_reverse, Dict.get_none_iff]

theorem fold_closed_form (fold : FoldOf R us s) : ClosedForm R us s where
  keys := by
    intro d
    have silent := (folded_none_iff (fold d)).symm.trans mentions_nil_iff
    rw [Dict.get_none_iff] at silent
    apply not_iff_not.mp
    simpa using silent
  plain := by
    intro d v older said plain
    have device := fold d
    rw [said,folded_plain plain] at device
    exact device
  object := by
    intro d params older said
    have device := fold d
    rw [said] at device ⊢
    obtain ⟨fields,held,rel⟩ := device
    refine ⟨fields,held,?_,?_⟩
    · intro p
      have silent := (rel_none_iff (rel p)).symm.trans newest_none_iff
      rw [Dict.get_none_iff] at silent
      apply not_iff_not.mp
      simpa [objectRun] using silent
    · intro p v said
      have same := rel p
      have said' : newest p (params :: objectRun older) = some v := said
      rw [said'] at same
      exact rel_some same

end

/-! Reports as they arrive. -/

/-- A call that delivers the update for node `n`, over MQTT or over HTTPS, and
    is not refused. -/
inductive Accepts (pf : Platform) (n : Text) (w : World) : Call × Update → Prop where
  | mqtt {mappingId : Uuid} {topic suffix : Text} {body : Bytes} {u : Update}
      (topical : Mqtt.splitTopic topic = some (n,suffix))
      (params : suffix = Mqtt.Topics.paramsLocal ∨ suffix = Mqtt.Topics.paramsLocalInit)
      (parsed : Mqtt.parsePayload pf body = some (.obj u.payload))
      (ok : (Mqtt.handleParamsLocal w.db w.now n (.obj u.payload)).2 = .ok ()) :
      Accepts pf n w (.dispatch mappingId topic body,u)
  | https {cn : Option Text} {node : Node} {u : Update}
      (auth : Claim.getNodeFromMtls w.db cn = .ok node) (named : node.nodeId = n)
      (ok : (Mqtt.commitLast w.db (Nodes.upsertParamsShadow w.db n u.payload)).2 = .ok ()) :
      Accepts pf n w (.node cn (.postNodeParamsLocal u.payload),u)

def reportStep (pf : Platform) (w : World) (report : Call × Update) : World := step pf w report.1

/-- The report does not merge to a document that compares equal to the stored
    one and differs from it. -/
def LiteralReport (n : Text) (w : World) (report : Call × Update) : Prop :=
  ShadowReports.Literal n report.2.payload w.db

section
variable {pf : Platform} {n : Text}

theorem commit_last_ok {db : Db} {last : Except Exc Db}
    (ok : (Mqtt.commitLast db last).2 = .ok ()) : last = .ok (Mqtt.commitLast db last).1 := by
  unfold Mqtt.commitLast at ok ⊢
  split
  · cases ok
  · rfl

theorem accepts_upsert {w : World} {report : Call × Update} (accepts : Accepts pf n w report) :
    varchar 64 n = true ∧ ∃ base, base.nodeParamsShadow = w.db.nodeParamsShadow ∧
      Nodes.Reports n w.db (reportStep pf w report).db ∧
      Nodes.upsertParamsShadow base n report.2.payload = .ok (reportStep pf w report).db := by
  cases accepts with
  | @mqtt mappingId topic suffix body u topical params parsed ok =>
    have config : suffix ≠ Mqtt.Topics.config := by
      rcases params with eq | eq <;> subst eq <;> decide
    have served : (reportStep pf w (.dispatch mappingId topic body,u)).db =
        (Mqtt.handleParamsLocal w.db w.now n (.obj u.payload)).1 := by
      simp only [reportStep, step, serve, Mqtt.dispatch, topical, parsed, Mqtt.handle,
        if_neg config, if_pos params]
    rw [served]
    have report : Nodes.Reports (cut 64 n) w.db
        (Mqtt.handleParamsLocal w.db w.now n (.obj u.payload)).1 := Mqtt.handle_params_local_reports
    simp only [Mqtt.handleParamsLocal] at ok report ⊢
    cases ready : Mqtt.ensureNode w.db w.now n with
    | error e =>
      simp only [ready] at ok
      cases ok
    | ok base =>
      simp only [ready] at ok report ⊢
      -- the refreshed row has the name the handler was given, so it was not cut
      obtain ⟨committed,found⟩ := Nodes.refreshed_ok ok
      obtain ⟨row,read⟩ := Option.isSome_iff_exists.mp found
      have width : varchar 64 n = true := ShadowReports.read_shadow_width read
      rw [cut_of_varchar width] at report
      rw [Nodes.refreshed_db] at report ⊢
      refine ⟨width,base,?_,report,commit_last_ok committed⟩
      obtain ⟨_,eq⟩ := Mqtt.ensure_node_frame ready
      rw [eq]
  | @https cn node u auth named ok =>
    have served : (reportStep pf w (.node cn (.postNodeParamsLocal u.payload),u)).db =
        (Mqtt.commitLast w.db (Nodes.upsertParamsShadow w.db n u.payload)).1 := by
      simp only [reportStep, step, serve, auth, serveNode, named]
    rw [served]
    have width : varchar 64 n = true := by
      rw [← named]
      exact Table.holds_of_mem (Claim.get_node_from_mtls_ok auth).1
    refine ⟨width,w.db,rfl,?_,commit_last_ok ok⟩
    apply Mqtt.commit_last_reports (Nodes.Reports.refl n w.db)
    intro after written
    have report := Nodes.commit_shadow_reports written
    rwa [cut_of_varchar width] at report

theorem upsert_ok {db db' : Db} {payload : JsonObject} (width : varchar 64 n = true)
    (ok : Nodes.upsertParamsShadow db n payload = .ok db') :
    (Nodes.readShadow db n = none ∧ Nodes.readShadow db' n = some ⟨n,payload⟩) ∨
      ∃ row, Nodes.readShadow db n = some row ∧
        (Nodes.readShadow db' n =
            some {row with payload := Nodes.mergeParams row.payload payload} ∨
          Nodes.readShadow db' n = some row ∧
            Json.pyEq (.obj (Nodes.mergeParams row.payload payload)) (.obj row.payload) = true) := by
  unfold Nodes.upsertParamsShadow at ok
  cases found : Nodes.readShadow db n with
  | none =>
    rw [found] at ok
    simp only [Nodes.commitShadow] at ok
    obtain ⟨t,inserted,-,eq⟩ := commitInsert_ok ok
    subst eq
    exact Or.inl ⟨rfl,ShadowReports.read_after_insert found width inserted⟩
  | some row =>
    rw [found] at ok
    refine Or.inr ⟨row,rfl,?_⟩
    simp only [Nodes.commitShadow] at ok
    split at ok
    · rename_i equal
      cases ok
      exact Or.inr ⟨found,equal⟩
    · split at ok
      · cases ok
      · cases ok
        exact Or.inl (ShadowReports.read_after_update _ found)

def ShadowForm (R : Json → Json → Prop) (n : Text) (us : List Update) (db : Db) : Prop :=
  (us = [] ∧ Nodes.readShadow db n = none) ∨
    ∃ row, Nodes.readShadow db n = some row ∧ FoldOf R us row.payload

theorem step_form {R : Json → Json → Prop} (refl : ∀ v, R v v)
    (object : ∀ v fields, R v (.obj fields) → isObject v = true) {w : World}
    {report : Call × Update} {us : List Update} (accepts : Accepts pf n w report)
    (skip : ∀ row, Nodes.readShadow w.db n = some row → FoldOf R us row.payload →
      Json.pyEq (.obj (Nodes.mergeParams row.payload report.2.payload)) (.obj row.payload) = true →
        FoldOf R (us ++ [report.2]) row.payload)
    (form : ShadowForm R n us w.db) :
    ShadowForm R n (us ++ [report.2]) (reportStep pf w report).db := by
  obtain ⟨width,base,shadows,-,ok⟩ := accepts_upsert accepts
  have read : Nodes.readShadow base n = Nodes.readShadow w.db n := by
    unfold Nodes.readShadow
    rw [shadows]
  right
  rcases upsert_ok width ok with ⟨absent,after⟩ | ⟨row,present,after⟩
  · rw [read] at absent
    rcases form with ⟨none,-⟩ | ⟨row,present,-⟩
    · rw [none]
      exact ⟨_,after,fold_first refl object report.2⟩
    · rw [absent] at present
      cases present
  · rw [read] at present
    rcases form with ⟨-,absent⟩ | ⟨own,stored,fold⟩
    · rw [absent] at present
      cases present
    · have same : own = row := Option.some.inj (stored.symm.trans present)
      subst same
      rcases after with merged | ⟨kept,equal⟩
      · exact ⟨_,merged,fold_merge refl object report.2 fold⟩
      · exact ⟨own,kept,skip own present fold equal⟩

end

/-- After every sequence of accepted reports the shadow is their fold, with
    values compared as the ORM compares them, and literally if no report merges
    to an equal document that differs. Other nodes keep their rows. -/
theorem shadow_is_fold (pf : Platform) (w : World) (n : Text) (reports : List (Call × Update))
    (start : Nodes.readShadow w.db n = none)
    (accepted : Along (reportStep pf) (Accepts pf n) w reports) :
    (reports = [] ∨ ∃ row,
      Nodes.readShadow (run (reportStep pf) w reports).db n = some row ∧
        ClosedForm Like (reports.map (·.2)) row.payload) ∧
    (Along (reportStep pf) (LiteralReport n) w reports → reports = [] ∨ ∃ row,
      Nodes.readShadow (run (reportStep pf) w reports).db n = some row ∧
        ClosedForm Eq (reports.map (·.2)) row.payload) ∧
    (run (reportStep pf) w reports).db.nodeParamsShadow.rows.filter (·.nodeId != n) =
      w.db.nodeParamsShadow.rows.filter (·.nodeId != n) ∧
    (run (reportStep pf) w reports).db.nodeConfigs.rows.filter (·.nodeId != n) =
      w.db.nodeConfigs.rows.filter (·.nodeId != n) := by
  have closed : ∀ R : Json → Json → Prop,
      ShadowForm R n (reports.map (·.2)) (run (reportStep pf) w reports).db →
      reports = [] ∨ ∃ row, Nodes.readShadow (run (reportStep pf) w reports).db n = some row ∧
        ClosedForm R (reports.map (·.2)) row.payload := by
    intro R form
    rcases form with ⟨none,-⟩ | ⟨row,stored,fold⟩
    · exact Or.inl (List.map_eq_nil_iff.mp none)
    · exact Or.inr ⟨row,stored,fold_closed_form fold⟩
  have frame : Nodes.Reports n w.db (run (reportStep pf) w reports).db := by
    apply run_invariant (reportStep pf) (I := fun v => Nodes.Reports n w.db v.db) _
      (Nodes.Reports.refl n w.db) accepted
    intro v report earlier accepts
    obtain ⟨-,base,-,last,-⟩ := accepts_upsert accepts
    exact earlier.trans last
  refine ⟨closed Like ?_,?_,frame.shadows,frame.configs⟩
  · apply run_history (reportStep pf)
      (I := fun cs v => ShadowForm Like n (cs.map (·.2)) v.db) (Or.inl ⟨rfl,start⟩) _ accepted
    intro cs report form accepts
    rw [List.map_append,List.map_singleton]
    apply step_form like_refl like_object accepts _ form
    intro row _ fold equal
    exact fold_skip report.2 fold equal
  · intro literal
    apply closed
    apply run_history (reportStep pf)
      (I := fun cs v => ShadowForm Eq n (cs.map (·.2)) v.db)
      (Or.inl ⟨rfl,start⟩) _ (along_and (reportStep pf) accepted literal)
    intro cs report form conditions
    have object : ∀ (v : Json) (fields : JsonObject), v = .obj fields → isObject v = true := by
      intro v fields same
      rw [same]
      rfl
    rw [List.map_append,List.map_singleton]
    apply step_form (fun _ => rfl) object conditions.1 _ form
    intro row stored fold equal
    have merged := fold_merge (fun _ => rfl) object report.2 fold
    rw [conditions.2 row stored equal] at merged
    exact merged

/-! Two reports of one parameter, `1` and then `true`. -/

def lightReport (value : Json) : Update where
  payload := [("Light",.obj [("power",value)])]
  distinct := by simp [Dict.keys]
  objects := by
    intro device params member
    rw [List.mem_singleton,Prod.mk.injEq,Json.obj.injEq] at member
    rw [member.2]
    simp [Dict.keys]

def lightBody (value : Text) : Bytes :=
  (("\x7b\"Light\":\x7b\"power\":" : Text) ++ value ++ "\x7d\x7d").map fun c =>
    UInt8.ofNat c.toNat

def platform : Platform := {Deployment.platform with
  jsonLoads := fun body => if body = lightBody "1" then some (.obj (lightReport (.int 1)).payload)
    else if body = lightBody "true" then some (.obj (lightReport (.bool true)).payload) else none}

def lightReports : List (Call × Update) :=
  [(.dispatch 10 "node/aabbccddeeff/params/local/init" (lightBody "1"),lightReport (.int 1)),
   (.dispatch 11 "node/aabbccddeeff/params/local" (lightBody "true"),lightReport (.bool true))]

theorem light_reports_accepted :
    Along (reportStep platform) (Accepts platform "aabbccddeeff") ⟨Db.empty,0⟩ lightReports := by
  have parsed : Mqtt.parsePayload platform (lightBody "1") =
      some (.obj (lightReport (.int 1)).payload) := rfl
  have parsed' : Mqtt.parsePayload platform (lightBody "true") =
      some (.obj (lightReport (.bool true)).payload) := rfl
  exact ⟨.mqtt (by decide +kernel) (Or.inr rfl) parsed (by decide +kernel),
    .mqtt (by decide +kernel) (Or.inl rfl) parsed' (by decide +kernel),trivial⟩

theorem light_is_folded :
    ∃ row, Nodes.readShadow (run (reportStep platform) ⟨Db.empty,0⟩ lightReports).db
        "aabbccddeeff" = some row ∧
      ClosedForm Like [lightReport (.int 1),lightReport (.bool true)] row.payload := by
  obtain ⟨folded,-⟩ := shadow_is_fold platform ⟨Db.empty,0⟩ "aabbccddeeff" lightReports rfl
    light_reports_accepted
  rcases folded with empty | form
  · cases empty
  · exact form

def showsBoolean (row : NodeParamsShadow) : Bool :=
  match Dict.get? "Light".toList row.payload with
  | some (.obj fields) => match Dict.get? "power".toList fields with
    | some (.bool _) => true
    | _ => false
  | _ => false

/-- The stored parameter is still `1`: `true` compares equal to it. -/
theorem equal_value_is_not_written :
    Nodes.readShadow Db.empty "aabbccddeeff" = none ∧
      Along (reportStep platform) (Accepts platform "aabbccddeeff") ⟨Db.empty,0⟩ lightReports ∧
      ¬ ∃ row, Nodes.readShadow (run (reportStep platform) ⟨Db.empty,0⟩ lightReports).db
          "aabbccddeeff" = some row ∧
        ClosedForm Eq [lightReport (.int 1),lightReport (.bool true)] row.payload := by
  refine ⟨rfl,light_reports_accepted,?_⟩
  rintro ⟨row,stored,form⟩
  have still : (Nodes.readShadow (run (reportStep platform) ⟨Db.empty,0⟩ lightReports).db
      "aabbccddeeff").map showsBoolean = some false := by decide +kernel
  obtain ⟨fields,device,-,last⟩ := form.object "Light" [("power",.bool true)] _ rfl
  obtain ⟨value,param,same⟩ := last "power" (.bool true) rfl
  have shown : showsBoolean row = true := by
    simp only [showsBoolean, device, param, ← same]
  rw [stored,Option.map_some,shown] at still
  cases still

end RainmakerServer.ShadowFold
