import RainmakerServer.DeviceReports
import RainmakerServer.Lib.Mirror
import RainmakerServer.Redelivery
import RainmakerServer.ShadowFold
import RainmakerServer.StateRedelivery
import RainmakerServer.UserNodes

/-!
The simulated firmware and the loop it closes. An app asks for parameters, the
server publishes them, the firmware merges them into its state and reports the
whole state, and the ingestor merges the report into the shadow that the apps
read. Commands and reports are delivered in any order, repeatedly or never.
-/
namespace RainmakerServer.FakeNode
open Tables Runs ShadowReports ShadowFold

/-! The firmware. -/

structure DeviceState where
  devices : List (Text × JsonObject)
  distinct : (Dict.keys devices).Nodup
  params : ∀ entry ∈ devices, (Dict.keys entry.2).Nodup

def applyParams (devices : List (Text × JsonObject)) (entry : Text × Json) :
    List (Text × JsonObject) :=
  match entry.2 with
  | .obj params =>
    Dict.set entry.1 (Dict.update ((Dict.get? entry.1 devices).getD []) params) devices
  | _ => devices

theorem apply_distinct {devices : List (Text × JsonObject)} {entry : Text × Json}
    (distinct : (Dict.keys devices).Nodup) : (Dict.keys (applyParams devices entry)).Nodup := by
  unfold applyParams
  split
  · exact Dict.set_nodup distinct
  · exact distinct

theorem apply_params {devices : List (Text × JsonObject)} {entry : Text × Json}
    (params : ∀ e ∈ devices, (Dict.keys e.2).Nodup) :
    ∀ e ∈ applyParams devices entry, (Dict.keys e.2).Nodup := by
  unfold applyParams
  split
  · intro e member
    rcases Dict.mem_set member with new | old
    · subst new
      apply Dict.update_nodup
      cases found : Dict.get? entry.1 devices with
      | none => exact List.nodup_nil
      | some held => exact params _ (Dict.mem_of_get found)
    · exact params e old
  · exact params

def DeviceState.update (s : DeviceState) (payload : JsonObject) : DeviceState where
  devices := payload.foldl applyParams s.devices
  distinct := by
    induction payload generalizing s with
    | nil => exact s.distinct
    | cons entry payload ih =>
      exact ih ⟨applyParams s.devices entry,apply_distinct s.distinct,apply_params s.params⟩
  params := by
    induction payload generalizing s with
    | nil => exact s.params
    | cons entry payload ih =>
      exact ih ⟨applyParams s.devices entry,apply_distinct s.distinct,apply_params s.params⟩

def DeviceState.payload (s : DeviceState) : JsonObject := s.devices.map fun e => (e.1,.obj e.2)

def initialState : DeviceState where
  devices := [("Light",[("power",.bool false),("brightness",.int 50)])]
  distinct := by decide
  params := by decide

/-- An exception in the message loop ends the program. -/
structure Firmware where
  state : DeviceState
  running : Bool

/-- The loop on a message of `params/remote`, and whether it answers with a
    report: text that is no JSON cannot be loaded, and only a dict has items. -/
def onParamsRemote (pf : Platform) (firmware : Firmware) (body : Bytes) : Firmware × Bool :=
  if firmware.running = false then (firmware,false)
  else match pf.jsonLoads body with
  | some (.obj payload) => ({firmware with state := firmware.state.update payload},true)
  | _ => ({firmware with running := false},false)

/-! The loop. -/

structure Server where
  world : World
  commands : List Bytes

inductive Other where
  | put (user : Uuid) (payload : JsonObject)
  | call (c : Call)

section
variable (pf : Platform) (ts : Tsdata.Timescale) (dumps : JsonObject → Bytes) (n : Text)

def hear (server : Server) (firmware : Firmware) (i : Nat) : Firmware × Bool :=
  match server.commands[i]? with
  | none => (firmware,false)
  | some body => onParamsRemote pf firmware body

def ingest (server : Server) (body : Bytes) (mappingId : Uuid) : Server :=
  let report : Call := .dispatch mappingId (Mqtt.Topics.nodeTopic n Mqtt.Topics.paramsLocal) body
  {server with world := Api.step pf server.world report}

def serveOther (server : Server) : Other → Server
  | .put user payload =>
    let outcome := UserNodes.serve pf ts server.world.db user (.putUserNodeParams n payload)
    {server with commands := server.commands ++ outcome.published.map fun p => dumps p.payload}
  | .call c => {server with world := Api.step pf server.world c}

theorem hear_honest (server : Server) (firmware : Firmware) (i : Nat)
    (silent : (hear pf server firmware i).2 = false) :
    (hear pf server firmware i).1.state = firmware.state := by
  unfold hear at silent ⊢
  split at silent
  · rfl
  · unfold onParamsRemote at silent ⊢
    split at silent
    · rename_i stopped
      rw [if_pos stopped]
    · rename_i running
      rw [if_neg running]
      split at silent
      · cases silent
      · rfl

def pattern : Mirror.Pattern Firmware Bytes Server Nat Uuid Other where
  say firmware := dumps firmware.state.payload
  hear := hear pf
  read := ingest pf n
  other := serveOther pf ts dumps n
  honest server firmware i silent := by rw [hear_honest pf server firmware i silent]

abbrev Loop := Mirror.Pair Firmware Bytes Server
abbrev Event := Mirror.Event Nat Uuid Other

def boot (w : World) : Loop where
  source := ⟨initialState,true⟩
  said := [dumps initialState.payload]
  mirror := ⟨w,[]⟩

abbrev loopStep : Loop → Event → Loop := Mirror.step (pattern pf ts dumps n)

end

/-! The state of the firmware. -/

theorem payload_mentions {s : DeviceState} {device param : Text} {value : Json} :
    Mentions s.payload device param value ↔ ∃ params,
      Dict.get? device s.devices = some params ∧ Dict.get? param params = some value := by
  unfold Mentions DeviceState.payload
  rw [Dict.get_map]
  simp

def DeviceState.report (s : DeviceState) : Report where
  payload := s.payload
  distinct := by
    have keys : Dict.keys s.payload = Dict.keys s.devices := by
      simp [DeviceState.payload, Dict.keys, Function.comp_def]
    rw [keys]
    exact s.distinct
  devices := by
    intro entry member
    obtain ⟨e,held,eq⟩ := List.mem_map.mp member
    subst eq
    exact ⟨e.2,rfl,s.params e held⟩

theorem apply_get {devices : List (Text × JsonObject)} {name other : Text} {value : Json}
    (apart : ∀ params, value = .obj params → name ≠ other) :
    Dict.get? other (applyParams devices (name,value)) = Dict.get? other devices := by
  unfold applyParams
  split
  · rename_i params object
    rw [Dict.get_set,if_neg (apart params object)]
  · rfl

def LeavesOut (payload : JsonObject) (device param : Text) : Prop :=
  ∀ params, (device,Json.obj params) ∈ payload → param ∉ Dict.keys params

theorem update_keeps (s : DeviceState) {payload : JsonObject} {device param : Text} {value : Json}
    (held : Mentions s.payload device param value) (unmentioned : LeavesOut payload device param) :
    Mentions (s.update payload).payload device param value := by
  rw [payload_mentions] at held ⊢
  change ∃ params, Dict.get? device (payload.foldl applyParams s.devices) = some params ∧ _
  generalize s.devices = devices at held ⊢
  induction payload generalizing devices with
  | nil => exact held
  | cons entry payload ih =>
    obtain ⟨name,given⟩ := entry
    rw [List.foldl_cons]
    apply ih (fun params member => unmentioned params (List.mem_cons_of_mem _ member))
    obtain ⟨params,present,found⟩ := held
    by_cases same : name = device
    · subst same
      cases given with
      | obj update =>
        refine ⟨Dict.update params update,?_,?_⟩
        · simp only [applyParams, Dict.get_set, if_true, present, Option.getD_some]
        · rw [Dict.get_update_of_not_mem (unmentioned update List.mem_cons_self)]
          exact found
      | _ => exact ⟨params,present,found⟩
    · exact ⟨params,by rw [apply_get fun _ _ => same]; exact present,found⟩

/-! The shadow. -/

inductive ReportsParams (db : Db) (n : Text) : Call → Prop where
  | message {mappingId : Uuid} {topic m suffix : Text} {payload : Bytes}
      (topical : Mqtt.splitTopic topic = some (m,suffix)) (column : cut 64 m = n)
      (params : suffix = Mqtt.Topics.paramsLocal ∨ suffix = Mqtt.Topics.paramsLocalInit) :
      ReportsParams db n (.dispatch mappingId topic payload)
  | request {cn : Option Text} {payload : JsonObject} {node : Node}
      (certified : Claim.getNodeFromMtls db cn = .ok node) (named : node.nodeId = n) :
      ReportsParams db n (.node cn (.postNodeParamsLocal payload))

def ShadowFits (n : Text) (db : Db) : Prop :=
  ∀ row, Nodes.readShadow db n = some row → Json.storableFields row.payload = true

section
variable {pf : Platform} {n : Text} {db db' : Db} {now : Time}

theorem read_shadow_same (same : db'.nodeParamsShadow = db.nodeParamsShadow) :
    Nodes.readShadow db' n = Nodes.readShadow db n := by
  unfold Nodes.readShadow
  rw [same]

theorem read_shadow_kept (kept : DeviceReports.KeptFor n db db') :
    Nodes.readShadow db' n = Nodes.readShadow db n := by
  unfold Nodes.readShadow
  rw [← List.head?_filter,← List.head?_filter,kept.shadows]

theorem last_shadow {last : Except Exc Db}
    (same : ∀ db', last = .ok db' → db'.nodeParamsShadow = db.nodeParamsShadow) :
    (Mqtt.commitLast db last).1.nodeParamsShadow = db.nodeParamsShadow := by
  unfold Mqtt.commitLast
  split
  · rfl
  · exact same _ rfl

theorem config_shadow {payload : JsonObject}
    (ok : Nodes.upsertNodeConfig db n payload = .ok db') :
    db'.nodeParamsShadow = db.nodeParamsShadow := by
  unfold Nodes.upsertNodeConfig Nodes.commitConfig at ok
  split at ok
  · cases ok
  · dsimp only at ok
    split at ok
    · obtain ⟨_,-,-,eq⟩ := commitInsert_ok ok
      rw [eq]
    · split at ok
      · cases ok
      · cases ok
        rfl

theorem ensured_shadow (ready : Mqtt.ensureNode db now n = .ok db') :
    db'.nodeParamsShadow = db.nodeParamsShadow := by
  obtain ⟨_,eq⟩ := Mqtt.ensure_node_frame ready
  rw [eq]

theorem handle_shadow {mappingId : Uuid} {m suffix : Text} {value : Json}
    (other : ¬ (suffix = Mqtt.Topics.paramsLocal ∨ suffix = Mqtt.Topics.paramsLocalInit)) :
    (Mqtt.handle pf db now mappingId m suffix value).1.nodeParamsShadow = db.nodeParamsShadow := by
  unfold Mqtt.handle
  split
  · unfold Mqtt.handleConfig
    split
    · split
      · rfl
      · rename_i ready
        rw [Nodes.refreshed_db,last_shadow fun _ => config_shadow]
        exact ensured_shadow ready
    · rfl
  · split
    · rw [StateRedelivery.handle_user_mapping_secret]
      split
      · rfl
      · unfold Mqtt.matchChallenge
        split
        · rfl
        · rfl
        · split
          · rfl
          · exact last_shadow fun _ ok => (Footprint.only_finalised ok .reports (by simp)).2.1
    · split
      · rw [Redelivery.handle_tsdata_rows]
        rfl
      · split
        · cases value with
          | obj fields =>
            rw [Redelivery.handle_simple_tsdata_rows]
            rfl
          | _ => rfl
        · rfl

theorem serve_keeps_shadow {c : Call} (silent : ¬ ReportsParams db n c) :
    Nodes.readShadow (Api.serve pf db now c) n = Nodes.readShadow db n := by
  by_cases speaks : DeviceReports.Speaks db n c
  · apply read_shadow_same
    cases speaks with
    | message topical column =>
      simp only [Api.serve, Mqtt.dispatch, topical]
      split
      · rfl
      · exact handle_shadow fun params => silent (.message topical column params)
    | @request cn request node certified named =>
      simp only [Api.serve, certified]
      cases request with
      | putNodeConfig payload => exact last_shadow fun _ => config_shadow
      | postNodeParamsLocal payload => exact absurd (.request certified named) silent
      | postNodeOtastatus jobId status info =>
        have only := @Footprint.serve_node_only pf db now node (.postNodeOtastatus jobId status info)
        exact (only .reports (by simp)).2.1
  · exact read_shadow_kept (DeviceReports.serve_keeps_reports speaks)

theorem fits_iff : ShadowFits n db ↔
    ∀ row ∈ db.nodeParamsShadow, row.nodeId = n → Json.storableFields row.payload = true := by
  constructor
  · intro fits row stored named
    apply fits row
    apply Table.find_by_key stored
    · simpa using named
    · intro a here
      rw [beq_iff_eq] at here
      simp [Schema.conflict, named, here]
  · intro all row found
    obtain ⟨stored,named⟩ := read_shadow_named found
    exact all row stored named

theorem upsert_fits {m : Text} {payload : JsonObject} (fits : ShadowFits n db)
    (ok : Nodes.upsertParamsShadow db m payload = .ok db') : ShadowFits n db' := by
  unfold Nodes.upsertParamsShadow at ok
  cases found : Nodes.readShadow db m with
  | none =>
    rw [found] at ok
    simp only [Nodes.commitShadow] at ok
    obtain ⟨t,inserted,-,eq⟩ := commitInsert_ok ok
    have wide := (Table.insert_ok inserted).2.1
    simp only [Schema.fits, Bool.and_eq_true] at wide
    rw [eq,fits_iff]
    intro row stored named
    rcases (Table.mem_insert inserted).mp stored with old | new
    · exact fits_iff.mp fits row old named
    · rw [new]
      exact wide.2
  | some existing =>
    rw [found] at ok
    simp only [Nodes.commitShadow] at ok
    split at ok
    · cases ok
      exact fits
    · split at ok
      · cases ok
      · rename_i fine
        cases ok
        rw [fits_iff]
        intro row stored named
        simp only [Nodes.setShadow, Table.mem_update] at stored
        obtain ⟨old,there,eq⟩ := stored
        split at eq
        · rw [← eq]
          simpa using fine
        · rw [← eq] at named ⊢
          exact fits_iff.mp fits old there named

theorem last_fits {m : Text} {payload : JsonObject} (fits : ShadowFits n db) :
    ShadowFits n (Mqtt.commitLast db (Nodes.upsertParamsShadow db m payload)).1 := by
  unfold Mqtt.commitLast
  split
  · exact fits
  · rename_i ok
    exact upsert_fits fits ok

theorem fits_of_read (same : Nodes.readShadow db' n = Nodes.readShadow db n)
    (fits : ShadowFits n db) : ShadowFits n db' := by
  unfold ShadowFits
  rw [same]
  exact fits

theorem params_fits {m : Text} {value : Json} (fits : ShadowFits n db) :
    ShadowFits n (Mqtt.handleParamsLocal db now m value).1 := by
  unfold Mqtt.handleParamsLocal
  split
  · split
    · exact fits
    · rename_i ready
      rw [Nodes.refreshed_db]
      exact last_fits (fits_of_read (read_shadow_same (ensured_shadow ready)) fits)
  · exact fits

theorem handle_params {mappingId : Uuid} {suffix : Text} {value : Json}
    (params : suffix = Mqtt.Topics.paramsLocal ∨ suffix = Mqtt.Topics.paramsLocalInit) :
    Mqtt.handle pf db now mappingId n suffix value = Mqtt.handleParamsLocal db now n value := by
  rcases params with same | same
  · rw [same]
    rfl
  · rw [same]
    rfl

theorem serve_fits {c : Call} (fits : ShadowFits n db) : ShadowFits n (Api.serve pf db now c) := by
  by_cases reports : ReportsParams db n c
  · cases reports with
    | message topical column params =>
      simp only [Api.serve, Mqtt.dispatch, topical]
      split
      · exact fits
      · rw [handle_params params]
        exact params_fits fits
    | request certified named =>
      simp only [Api.serve, certified, Api.serveNode, named]
      exact last_fits fits
  · exact fits_of_read (serve_keeps_shadow reports) fits

end

/-! One report. -/

/-- A node identifier that a topic can carry and the columns can hold. -/
structure Named (n : Text) : Prop where
  present : n ≠ []
  clean : '/' ∉ n
  width : varchar 64 n = true

section
variable {pf : Platform} {n : Text} {db : Db} {now : Time} {mappingId : Uuid} {body : Bytes}
variable {report : Report}

def reportCall (n : Text) (mappingId : Uuid) (body : Bytes) : Call :=
  .dispatch mappingId (Mqtt.Topics.nodeTopic n Mqtt.Topics.paramsLocal) body

theorem ensure_node_named (width : varchar 64 n = true) :
    ∃ base, Mqtt.ensureNode db now n = .ok base := by
  unfold Mqtt.ensureNode
  split
  · exact ⟨db,rfl⟩
  · rename_i absent
    let row : Node := {nodeId := n, registrationTs := some now}
    have free : ∀ a ∈ db.nodes, Schema.conflict a (Schema.stored row) = false := by
      intro a stored
      by_contra taken
      apply absent
      refine Db.hasNode_iff.mpr ⟨a,stored,?_⟩
      simpa [row, Schema.conflict, Schema.stored, cut_of_varchar width] using taken
    obtain ⟨t,inserted⟩ := Table.insert_succeeds (assignable_of_varchar width) free
    exact ⟨{db with nodes := t},by simp only [Mqtt.createNode, commitInsert, inserted, row, if_true]⟩

theorem report_ingested (named : Named n) (parsed : pf.jsonLoads body = some (.obj report.payload)) :
    ∃ base, Mqtt.ensureNode db now n = .ok base ∧
      Api.serve pf db now (reportCall n mappingId body) = (upsertCall n report).atomic base := by
  have topical : Mqtt.splitTopic (Mqtt.Topics.nodeTopic n Mqtt.Topics.paramsLocal) =
      some (n,Mqtt.Topics.paramsLocal) :=
    Mqtt.split_topic_iff.mpr ⟨rfl,named.present,named.clean,by decide⟩
  have read : Mqtt.parsePayload pf body = some (.obj report.payload) := by
    unfold Mqtt.parsePayload
    rw [parsed]
  have served : Api.serve pf db now (reportCall n mappingId body) =
      (Mqtt.handleParamsLocal db now n (.obj report.payload)).1 := by
    simp only [reportCall, Api.serve, Mqtt.dispatch, topical, read, handle_params (Or.inl rfl)]
  obtain ⟨base,ready⟩ := @ensure_node_named n db now named.width
  refine ⟨base,ready,?_⟩
  rw [served]
  simp only [Mqtt.handleParamsLocal, ready, Nodes.refreshed_db]
  rfl

theorem report_storable {current : JsonObject}
    (merged : Json.storableFields (Nodes.mergeParams current report.payload) = true) :
    Json.storableFields report.payload = true := by
  rw [Json.storableFields_iff] at merged ⊢
  intro entry member
  obtain ⟨params,object,distinct⟩ := report.devices entry member
  obtain ⟨device,value⟩ := entry
  dsimp only at object
  subst object
  have found := Dict.mem_of_get (merge_get_of_mem report.distinct member current)
  obtain ⟨key,fine⟩ := merged _ found
  refine ⟨key,?_⟩
  dsimp only at fine ⊢
  cases held : Dict.get? device current with
  | none =>
    rw [held] at fine
    exact fine
  | some before =>
    rw [held] at fine
    cases before with
    | obj before =>
      simp only [mergedValue, Json.storable] at fine ⊢
      rw [Json.storableFields_iff] at fine ⊢
      intro own inside
      exact fine own (Dict.mem_of_get (Dict.get_update_of_mem distinct inside before))
    | _ => exact fine

theorem merge_origin {current : JsonObject} {device param : Text} {value : Json}
    (held : Mentions (Nodes.mergeParams current report.payload) device param value) :
    Mentions current device param value ∨ Mentions report.payload device param value := by
  obtain ⟨params,present,found⟩ := held
  cases reported : Dict.get? device report.payload with
  | none =>
    left
    rw [merge_get_of_not_mem (Dict.get_none_iff.mp reported)] at present
    exact ⟨params,present,found⟩
  | some fresh =>
    have member : (device,fresh) ∈ report.payload := Dict.mem_of_get reported
    obtain ⟨update,object,distinct⟩ := report.devices _ member
    dsimp only at object
    subst object
    rw [merge_get_of_mem report.distinct member,Option.some_inj] at present
    have whole : Json.obj update = .obj params →
        Mentions current device param value ∨ Mentions report.payload device param value := by
      intro same
      rw [Json.obj.inj same] at reported
      exact Or.inr ⟨params,reported,found⟩
    cases before : Dict.get? device current with
    | none =>
      rw [before] at present
      exact whole present
    | some old =>
      rw [before] at present
      cases old with
      | obj fields =>
        have joined : Dict.update fields update = params := Json.obj.inj present
        rw [← joined,Dict.get_update distinct,Option.or_eq_some_iff] at found
        rcases found with new | ⟨-,kept⟩
        · exact Or.inr ⟨update,reported,new⟩
        · exact Or.inl ⟨fields,before,kept⟩
      | _ => exact whole present

theorem report_cases (named : Named n) (fits : ShadowFits n db)
    (parsed : pf.jsonLoads body = some (.obj report.payload)) :
    Nodes.readShadow (Api.serve pf db now (reportCall n mappingId body)) n =
        Nodes.readShadow db n ∨
      Json.storableFields report.payload = true ∧ ∃ row,
        Nodes.readShadow (Api.serve pf db now (reportCall n mappingId body)) n = some row ∧
          (row.payload = report.payload ∨ ∃ before, Nodes.readShadow db n = some before ∧
            row.payload = Nodes.mergeParams before.payload report.payload) := by
  obtain ⟨base,ready,served⟩ := @report_ingested pf n db now mappingId body report
    named parsed
  have same : Nodes.readShadow base n = Nodes.readShadow db n :=
    read_shadow_same (ensured_shadow ready)
  have after : Api.serve pf db now (reportCall n mappingId body) =
      (Mqtt.commitLast base (Nodes.upsertParamsShadow base n report.payload)).1 := served
  rw [after]
  cases upsert : Nodes.upsertParamsShadow base n report.payload with
  | error e => exact Or.inl same
  | ok db' =>
    have kept : ShadowFits n db' := upsert_fits (fits_of_read same fits) upsert
    simp only [Mqtt.commitLast, done]
    rcases upsert_ok named.width upsert with ⟨-,stored⟩ | ⟨row,found,stored | ⟨stored,-⟩⟩
    · exact Or.inr ⟨kept _ stored,_,stored,Or.inl rfl⟩
    · rw [same] at found
      exact Or.inr ⟨report_storable (kept _ stored),_,stored,Or.inr ⟨row,found,rfl⟩⟩
    · left
      rw [stored,← found,same]

end

end RainmakerServer.FakeNode
