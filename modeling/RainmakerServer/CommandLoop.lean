import RainmakerServer.FakeNode

/-!
The loop of commands and reports over whole runs. Every report carries the whole
state of the firmware, so the shadow follows it as soon as the newest report is
the last one ingested, and shows nothing the firmware has not held. One value
that its column refuses holds up every report until a command replaces it.
-/
namespace RainmakerServer.CommandLoop
open Tables Runs ShadowReports ShadowFold FakeNode

abbrev reached (pf : Platform) (ts : Tsdata.Timescale) (dumps : JsonObject → Bytes) (n : Text)
    (start : Loop) (es : List Event) : Loop := run (loopStep pf ts dumps n) start es

/-! The light of Ana. -/

mutual
def dumpText : Json → Text
  | .null => "null"
  | .bool b => if b then "true" else "false"
  | .int i => if i < 0 then '-' :: decimal i.natAbs else decimal i.natAbs
  | .float _ => "NaN"
  | .str s => ("\"" : Text) ++ s ++ "\""
  | .arr items => ("[" : Text) ++ dumpItems items ++ "]"
  | .obj fields => ("\x7b" : Text) ++ dumpFields fields ++ "\x7d"
def dumpItems : List Json → Text
  | [] => []
  | [v] => dumpText v
  | v :: rest => dumpText v ++ ", " ++ dumpItems rest
def dumpFields : List (Text × Json) → Text
  | [] => []
  | [(k,v)] => ("\"" : Text) ++ k ++ "\": " ++ dumpText v
  | (k,v) :: rest => ("\"" : Text) ++ k ++ "\": " ++ dumpText v ++ ", " ++ dumpFields rest
end

def dumpBody (payload : JsonObject) : Bytes :=
  (dumpText (.obj payload)).map fun c => UInt8.ofNat c.toNat

def lightState (power brightness : Json) : DeviceState where
  devices := [("Light",[("power",power),("brightness",brightness)])]
  distinct := initialState.distinct
  params := by
    intro entry member
    rw [List.mem_singleton.mp member]
    change (["power".toList,"brightness".toList] : List Text).Nodup
    decide

def switchOn : Update where
  payload := [("Light",.obj [("power",.bool true)])]
  distinct := by decide
  objects := by
    intro device params member
    rw [List.mem_singleton,Prod.mk.injEq,Json.obj.injEq] at member
    rw [member.2]
    decide

def lightPlatform : Platform := {Deployment.platform with
  jsonLoads := fun body =>
    ([switchOn.payload,initialState.payload,(lightState (.bool true) (.int 50)).payload,
      (lightState (.bool true) (.float .nan)).payload,
      (lightState (.bool false) (.float .nan)).payload].find? fun d => dumpBody d == body).map
        Json.obj}

def lightWorld : World where
  db := {
    users := Deployment.anaAndBob
    nodes := .one {nodeId := "aabbccddeeff"}
    userNodeMappings := .one {id := 3, userId := 1, nodeId := "aabbccddeeff"}
    nodeParamsShadow := .one ⟨"aabbccddeeff",initialState.payload⟩}
  now := 0

def lightLoop (start : Loop) (es : List Event) : Loop :=
  reached lightPlatform Deployment.timescale dumpBody "aabbccddeeff" start es

def lightBoot : Loop := boot dumpBody lightWorld

def switching : List Event := [.other (.put 1 switchOn.payload),.hear 0]

theorem light_named : Named "aabbccddeeff" := ⟨by decide,by decide,by decide⟩

theorem light_fits : ShadowFits "aabbccddeeff" lightWorld.db := by
  intro row stored
  cases stored
  rfl

theorem switched_read : lightPlatform.jsonLoads (dumpBody switchOn.payload) =
    some (.obj switchOn.payload) := rfl

/-! The shadow follows the device. -/

section
variable {pf : Platform} {ts : Tsdata.Timescale} {dumps : JsonObject → Bytes} {n : Text}

/-- What `json.dumps` writes of the state, `json.loads` reads back. -/
def Legible (pf : Platform) (dumps : JsonObject → Bytes) (s : DeviceState) : Prop :=
  pf.jsonLoads (dumps s.payload) = some (.obj s.payload)

def Told (n : Text) (s : DeviceState) (db : Db) : Prop :=
  ∃ row, Nodes.readShadow db n = some row ∧ Json.renderedObject row.payload = true ∧
    ∀ device param value, Mentions s.payload device param value →
      Mentions row.payload device param value

theorem reached_append (start : Loop) (es fs : List Event) : reached pf ts dumps n start (es ++ fs) =
    run (loopStep pf ts dumps n) (reached pf ts dumps n start es) fs := run_append _ start es fs

theorem step_fits {q : Loop} (e : Event) (fits : ShadowFits n q.mirror.world.db) :
    ShadowFits n (loopStep pf ts dumps n q e).mirror.world.db := by
  cases e with
  | hear i => exact fits
  | read j mappingId =>
    simp only [loopStep, Mirror.step]
    split
    · exact fits
    · exact serve_fits fits
  | other o =>
    cases o with
    | put u payload => exact fits
    | call c => exact serve_fits fits

theorem run_fits {start : Loop} (fits : ShadowFits n start.mirror.world.db) (es : List Event) :
    ShadowFits n (reached pf ts dumps n start es).mirror.world.db :=
  run_preserves (loopStep pf ts dumps n) (I := fun q => ShadowFits n q.mirror.world.db)
    (fun _ e held => step_fits e held) es fits

/-- The report of `s` merges to no document that only compares equal to the
    stored shadow, and no answer has to be rendered of more than its limits. -/
structure Tellable (n : Text) (s : DeviceState) (db : Db) : Prop where
  literal : Literal n s.payload db
  rendered : Json.renderedObject s.payload = true
  shadow : ∀ row, Nodes.readShadow db n = some row → Json.renderedObject row.payload = true

structure Follows (n : Text) (s : DeviceState) (before db : Db) : Prop where
  shown : Json.storableFields s.payload = true → Tellable n s before → Told n s db
  refused : Json.storableFields s.payload = false →
    Nodes.readShadow db n = Nodes.readShadow before n

def Spares (pf : Platform) (device param : Text) (q : Loop) : Event → Prop
  | .hear i => ∀ body payload, q.mirror.commands[i]? = some body →
      pf.jsonLoads body = some (.obj payload) → LeavesOut payload device param
  | _ => True

theorem step_spares {q : Loop} {e : Event} {device param : Text} {value : Json}
    (held : Mentions q.source.state.payload device param value) (spares : Spares pf device param q e) :
    Mentions (loopStep pf ts dumps n q e).source.state.payload device param value := by
  cases e with
  | hear i =>
    simp only [loopStep, Mirror.step, pattern, hear]
    split
    · exact held
    · rename_i body listed
      unfold onParamsRemote
      split
      · exact held
      · split
        · rename_i payload parsed
          exact update_keeps _ held (spares body payload listed parsed)
        · exact held
  | read j mappingId =>
    simp only [loopStep, Mirror.step]
    split
    · exact held
    · exact held
  | other o => exact held

theorem unstorable_state {s : DeviceState} {device param : Text} {value : Json}
    (held : Mentions s.payload device param value) (bad : value.storable = false) :
    Json.storableFields s.payload = false := by
  by_contra storable
  rw [Bool.not_eq_false,Json.storableFields_iff] at storable
  obtain ⟨params,present,found⟩ := held
  have inner := (storable _ (Dict.mem_of_get present)).2
  simp only [Json.storable] at inner
  rw [Json.storableFields_iff] at inner
  have fine := (inner _ (Dict.mem_of_get found)).2
  rw [bad] at fine
  cases fine

/-- No command that is heard replaces the value, no report older than the `k`-th
    is ingested, and nobody else reports parameters of the node. -/
inductive Stuck (pf : Platform) (ts : Tsdata.Timescale) (dumps : JsonObject → Bytes) (n : Text)
    (device param : Text) (k : Nat) (q : Loop) : Event → Prop where
  | hear {i : Nat} (spares : Spares pf device param q (.hear i))
      (legible : Legible pf dumps (loopStep pf ts dumps n q (.hear i)).source.state) :
      Stuck pf ts dumps n device param k q (.hear i)
  | read {j : Nat} {mappingId : Uuid} (late : k ≤ j) :
      Stuck pf ts dumps n device param k q (.read j mappingId)
  | put {u : Uuid} {payload : JsonObject} :
      Stuck pf ts dumps n device param k q (.other (.put u payload))
  | call {c : Call} (silent : ¬ ReportsParams q.mirror.world.db n c) :
      Stuck pf ts dumps n device param k q (.other (.call c))

def Refused (pf : Platform) (body : Bytes) : Prop :=
  ∃ report : Report, pf.jsonLoads body = some (.obj report.payload) ∧
    Json.storableFields report.payload = false

/-- The firmware holds the value, and every report from the `k`-th on is refused. -/
structure Holds (pf : Platform) (n : Text) (device param : Text) (value : Json) (k : Nat)
    (shadow : Option NodeParamsShadow) (q : Loop) : Prop where
  held : Mentions q.source.state.payload device param value
  refused : ∀ j body, k ≤ j → q.said[j]? = some body → Refused pf body
  fits : ShadowFits n q.mirror.world.db
  kept : Nodes.readShadow q.mirror.world.db n = shadow

theorem refused_state {s : DeviceState} {device param : Text} {value : Json}
    (held : Mentions s.payload device param value) (bad : value.storable = false)
    (legible : Legible pf dumps s) : Refused pf (dumps s.payload) :=
  ⟨s.report,legible,unstorable_state held bad⟩

theorem step_holds (named : Named n) {device param : Text} {value : Json} {k : Nat}
    {shadow : Option NodeParamsShadow} {q : Loop} {e : Event} (bad : value.storable = false)
    (holds : Holds pf n device param value k shadow q)
    (stuck : Stuck pf ts dumps n device param k q e) :
    Holds pf n device param value k shadow (loopStep pf ts dumps n q e) := by
  cases stuck with
  | @hear i spares legible =>
    have held := @step_spares pf ts dumps n _ _ _ _ _ holds.held spares
    refine ⟨held,?_,holds.fits,holds.kept⟩
    intro j body late listed
    simp only [loopStep, Mirror.step] at listed
    split at listed
    · rw [List.getElem?_append] at listed
      split at listed
      · exact holds.refused j body late listed
      · have new : body = dumps (loopStep pf ts dumps n q (.hear i)).source.state.payload := by
          have member := List.mem_of_getElem? listed
          exact List.mem_singleton.mp member
        rw [new]
        exact refused_state held bad legible
    · exact holds.refused j body late listed
  | @read j mappingId late =>
    simp only [loopStep, Mirror.step]
    split
    · exact holds
    · rename_i body listed
      obtain ⟨report,parsed,unfit⟩ := holds.refused j body late listed
      refine ⟨holds.held,holds.refused,serve_fits holds.fits,?_⟩
      rcases @report_cases pf n q.mirror.world.db q.mirror.world.now mappingId body report named
        holds.fits parsed with same | ⟨storable,-⟩
      · exact same.trans holds.kept
      · exact absurd (unfit.symm.trans storable) Bool.false_ne_true
  | put => exact ⟨holds.held,holds.refused,holds.fits,holds.kept⟩
  | call silent =>
    exact ⟨holds.held,holds.refused,serve_fits holds.fits,
      (serve_keeps_shadow silent).trans holds.kept⟩

/-- From a command with such a value on, the shadow stays as it is over every
    further run until a command replaces that value. -/
theorem unstorable_value_freezes_shadow (named : Named n) {start : Loop}
    (current : Mirror.Current (pattern pf ts dumps n) start)
    (fits : ShadowFits n start.mirror.world.db) {device param : Text} {value : Json}
    (held : Mentions start.source.state.payload device param value) (bad : value.storable = false)
    (legible : Legible pf dumps start.source.state) {k : Nat} (newest : k + 1 = start.said.length)
    {es : List Event}
    (stuck : Along (loopStep pf ts dumps n) (Stuck pf ts dumps n device param k) start es) :
    Nodes.readShadow (reached pf ts dumps n start es).mirror.world.db n =
      Nodes.readShadow start.mirror.world.db n := by
  have holds : Holds pf n device param value k (Nodes.readShadow start.mirror.world.db n) start := by
    refine ⟨held,?_,fits,rfl⟩
    intro j body late listed
    have bound : j < start.said.length := (List.getElem?_eq_some_iff.mp listed).1
    have last : j = k := by omega
    rw [last,Mirror.newest_word current newest] at listed
    cases listed
    exact refused_state held bad legible
  exact (run_invariant (loopStep pf ts dumps n)
    (I := Holds pf n device param value k (Nodes.readShadow start.mirror.world.db n))
    (fun _ _ before stuck => step_holds named bad before stuck) holds stuck).kept

def dimmed : Loop where
  source := ⟨lightState (.bool false) (.float .nan),true⟩
  said := [dumpBody (lightState (.bool false) (.float .nan)).payload]
  mirror := ⟨lightWorld,[]⟩

theorem dimmed_light_is_frozen :
    Nodes.readShadow (lightLoop dimmed (switching ++ [.read 1 9])).mirror.world.db "aabbccddeeff" =
      some ⟨"aabbccddeeff",initialState.payload⟩ := by
  have spares : Spares lightPlatform "Light" "brightness"
      (lightLoop dimmed [.other (.put 1 switchOn.payload)]) (.hear 0) := by
    intro body payload listed parsed
    have same : dumpBody switchOn.payload = body := Option.some.inj listed
    rw [← same,switched_read] at parsed
    cases parsed
    intro params member
    cases List.mem_singleton.mp member
    decide
  exact @unstorable_value_freezes_shadow lightPlatform Deployment.timescale dumpBody "aabbccddeeff"
    light_named dimmed rfl light_fits "Light" "brightness" (.float .nan) ⟨_,rfl,rfl⟩ rfl rfl 0 rfl
    [.other (.put 1 switchOn.payload),.hear 0,.read 1 9]
    ⟨.put,.hear spares rfl,.read (Nat.zero_le 1),trivial⟩

/-! Where the values of the shadow come from. -/

/-- What the firmware holds can be read back, and nobody else reports
    parameters of the node. -/
inductive Honest (pf : Platform) (ts : Tsdata.Timescale) (dumps : JsonObject → Bytes) (n : Text)
    (q : Loop) : Event → Prop where
  | hear {i : Nat}
      (legible : Legible pf dumps (loopStep pf ts dumps n q (.hear i)).source.state) :
      Honest pf ts dumps n q (.hear i)
  | read {j : Nat} {mappingId : Uuid} : Honest pf ts dumps n q (.read j mappingId)
  | put {u : Uuid} {payload : JsonObject} : Honest pf ts dumps n q (.other (.put u payload))
  | call {c : Call} (silent : ¬ ReportsParams q.mirror.world.db n c) :
      Honest pf ts dumps n q (.other (.call c))

theorem step_legible {q : Loop} {e : Event} (legible : Legible pf dumps q.source.state)
    (honest : Honest pf ts dumps n q e) :
    Legible pf dumps (loopStep pf ts dumps n q e).source.state := by
  cases honest with
  | hear later => exact later
  | read =>
    simp only [loopStep, Mirror.step]
    split
    · exact legible
    · exact legible
  | put => exact legible
  | call silent => exact legible

theorem said_state {start : Loop} (booted : start.said = [dumps start.source.state.payload])
    (legible : Legible pf dumps start.source.state) {es : List Event}
    (honest : Along (loopStep pf ts dumps n) (Honest pf ts dumps n) start es) {body : Bytes}
    (said : body ∈ (reached pf ts dumps n start es).said) : ∃ pre post, es = pre ++ post ∧
      pf.jsonLoads body =
        some (.obj (reached pf ts dumps n start pre).source.state.report.payload) := by
  have held : ∃ pre post, es = pre ++ post ∧
      body = dumps (reached pf ts dumps n start pre).source.state.payload := by
    rcases Mirror.said_held said with first | later
    · rw [booted] at first
      exact ⟨[],es,rfl,List.mem_singleton.mp first⟩
    · exact later
  obtain ⟨pre,post,split,same⟩ := held
  refine ⟨pre,post,split,?_⟩
  rw [split] at honest
  rw [same]
  exact run_invariant (loopStep pf ts dumps n) (I := fun q => Legible pf dumps q.source.state)
    (fun _ _ => step_legible) legible ((along_append _).mp honest).1

/-- Every value the shadow shows, it showed at the start or the device has held:
    an app that asks for a value does not make it appear. -/
theorem shadow_invents_nothing (named : Named n) {start : Loop}
    (booted : start.said = [dumps start.source.state.payload])
    (fits : ShadowFits n start.mirror.world.db) (legible : Legible pf dumps start.source.state)
    {es : List Event} (honest : Along (loopStep pf ts dumps n) (Honest pf ts dumps n) start es)
    {row : NodeParamsShadow} {device param : Text} {value : Json}
    (stored : Nodes.readShadow (reached pf ts dumps n start es).mirror.world.db n = some row)
    (shown : Mentions row.payload device param value) :
    (∃ first, Nodes.readShadow start.mirror.world.db n = some first ∧
        Mentions first.payload device param value) ∨
      ∃ pre post, es = pre ++ post ∧
        Mentions (reached pf ts dumps n start pre).source.state.payload device param value := by
  induction es using List.reverseRecOn generalizing row with
  | nil => exact Or.inl ⟨row,stored,shown⟩
  | append_singleton es e ih =>
    obtain ⟨earlier,last,-⟩ := (along_append _).mp honest
    have before : ∀ old, Nodes.readShadow (reached pf ts dumps n start es).mirror.world.db n =
        some old → Mentions old.payload device param value →
          (∃ first, Nodes.readShadow start.mirror.world.db n = some first ∧
              Mentions first.payload device param value) ∨
            ∃ pre post, es ++ [e] = pre ++ post ∧
              Mentions (reached pf ts dumps n start pre).source.state.payload device param value := by
      intro old there held
      rcases ih earlier there held with first | ⟨pre,post,split,known⟩
      · exact Or.inl first
      · exact Or.inr ⟨pre,post ++ [e],by rw [split,List.append_assoc],known⟩
    rw [reached_append] at stored
    change Nodes.readShadow (loopStep pf ts dumps n (reached pf ts dumps n start es) e).mirror.world.db
      n = some row at stored
    have step : Honest pf ts dumps n (reached pf ts dumps n start es) e := last
    generalize at_es : reached pf ts dumps n start es = q at step stored before
    cases step with
    | hear later => exact before row stored shown
    | put => exact before row stored shown
    | call silent => exact before row ((serve_keeps_shadow silent).symm.trans stored) shown
    | @read j mappingId =>
      simp only [loopStep, Mirror.step] at stored
      split at stored
      · exact before row stored shown
      · rename_i body listed
        rw [← at_es] at listed
        obtain ⟨pre,post,split,parsed⟩ :=
          said_state booted legible earlier (List.mem_of_getElem? listed)
        have here : Mentions (reached pf ts dumps n start pre).source.state.report.payload device
            param value → ∃ pre post, es ++ [.read j mappingId] = pre ++ post ∧
              Mentions (reached pf ts dumps n start pre).source.state.payload device param value :=
          fun held => ⟨pre,post ++ [.read j mappingId],by rw [split,List.append_assoc],held⟩
        have fine : ShadowFits n q.mirror.world.db := by
          rw [← at_es]
          exact run_fits fits es
        rcases @report_cases pf n q.mirror.world.db q.mirror.world.now mappingId body _ named fine
          parsed with same | ⟨-,new,written,merged⟩
        · exact before row (same.symm.trans stored) shown
        · have eq : new = row := Option.some.inj (written.symm.trans stored)
          subst eq
          rcases merged with whole | ⟨old,there,merged⟩
          · rw [whole] at shown
            exact Or.inr (here shown)
          · rw [merged] at shown
            rcases merge_origin shown with kept | reported
            · exact before old there kept
            · exact Or.inr (here reported)

theorem switch_was_held : ∃ pre post, switching ++ [.read 1 9] = pre ++ post ∧
    Mentions (lightLoop lightBoot pre).source.state.payload "Light" "power" (.bool true) := by
  have found := @shadow_invents_nothing lightPlatform Deployment.timescale dumpBody "aabbccddeeff"
    light_named lightBoot rfl light_fits rfl [.other (.put 1 switchOn.payload),.hear 0,.read 1 9]
    ⟨.put,.hear rfl,.read,trivial⟩
    ⟨"aabbccddeeff",(lightState (.bool true) (.int 50)).payload⟩ "Light" "power" (.bool true) rfl
    ⟨_,rfl,rfl⟩
  rcases found with ⟨first,stored,params,device,held⟩ | later
  · cases stored
    cases device
    cases held
  · exact later

end

end RainmakerServer.CommandLoop
