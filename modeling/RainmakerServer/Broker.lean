import RainmakerServer.DeviceReports
import RainmakerServer.Lib.Delivery
import RainmakerServer.TopicAuthority
import RainmakerServer.UserNodes

/-!
The server behind its MQTT broker. A device or anyone else who presents a name
opens a session through `on_register`; what it publishes and subscribes to
passes the other hooks, and the ingestor gets what is in flight in any order,
with repetitions and losses. The server itself publishes the commands of the
users. Every call of such a run is a call of the server, so what holds of every
run of the server holds behind the broker too.
-/
namespace RainmakerServer.Broker
open Tables Runs Delivery Api ClaimIdentity TopicAuthority DeviceReports

structure Message where
  topic : Text
  payload : Bytes

def ingestorFilter : Text := "node/+/#"

section
variable (pf : Platform) (ts : Tsdata.Timescale) (dumps : JsonObject → Bytes)

/-- Names are what a session presents as user name, the requests are those of
    the app about its nodes. -/
def service : Service World Text Message Text (Uuid × UserNodes.Request) Uuid Call where
  serve := step pf
  admits w name := VmqAuthz.authoriseRegister pf w.db (some name) == .ok
  permits name m := VmqAuthz.authorisePublish pf (some name) m.topic == .ok
  grants name filters := VmqAuthz.authoriseSubscribe pf (some name) (some (filters.map some)) == .ok
  covers filter m := filterMatches filter m.topic
  hears m := filterMatches ingestorFilter m.topic
  receive m mappingId := .dispatch mappingId m.topic m.payload
  sends w r := (UserNodes.serve pf ts w.db r.1 r.2).published.map fun p => ⟨p.topic,dumps p.payload⟩

abbrev Network := Net World Text Message Text
abbrev Step := Event Text Message Text (Uuid × UserNodes.Request) Uuid Call

def reached (w : World) (es : List Step) : Network :=
  run (Delivery.step (service pf ts dumps)) {state := w} es

def calls (w : World) (es : List Step) : List Call :=
  gather (Delivery.step (service pf ts dumps)) (yields (service pf ts dumps)) {state := w} es

end

/-- Every call but the ingestor's; the hooks that tell of a client are late or
    lost as it happens. -/
def Direct : Call → Prop
  | .dispatch _ _ _ => False
  | _ => True

section
variable {pf : Platform} {ts : Tsdata.Timescale} {dumps : JsonObject → Bytes}

theorem reached_world (w : World) (es : List Step) :
    (reached pf ts dumps w es).state = run (step pf) w (calls pf ts dumps w es) :=
  run_state (service pf ts dumps) _ es

theorem admits_iff {w : World} {name : Text} : (service pf ts dumps).admits w name = true ↔
    VmqAuthz.authoriseRegister pf w.db (some name) = .ok := by
  simp [service]

theorem permits_iff {name : Text} {m : Message} : (service pf ts dumps).permits name m = true ↔
    VmqAuthz.authorisePublish pf (some name) m.topic = .ok := by
  simp [service]

theorem sends_command {w : World} {r : Uuid × UserNodes.Request} {m : Message}
    (sent : m ∈ (service pf ts dumps).sends w r) :
    ∃ n params, r.2 = .putUserNodeParams n params ∧ Access.hasAccess w.db r.1 n = .ok true ∧
      m = ⟨Mqtt.Topics.nodeTopic n Mqtt.Topics.paramsRemote,dumps params⟩ := by
  simp only [service, List.mem_map] at sent
  obtain ⟨p,published,eq⟩ := sent
  unfold UserNodes.serve at published
  split at published
  · cases published
  · rename_i user auth
    obtain ⟨n,params,asked,granted,command⟩ := UserNodes.answer_publishes published
    rw [(Accounts.current_user_ok auth).2.1] at granted
    rw [command] at eq
    exact ⟨n,params,asked,granted,eq.symm⟩

/-! Where an ingested message comes from. -/

/-- The message was published in a session of `x`, which `on_register` had let in
    before, and `on_publish` passed it. -/
def PublishedAs (pf : Platform) (ts : Tsdata.Timescale) (dumps : JsonObject → Bytes) (w : World)
    (es : List Step) (x : Text) (m : Message) : Prop :=
  ∃ pre i s post, es = pre ++ .publish i m :: post ∧
    (reached pf ts dumps w pre).sessions[i]? = some s ∧ s.name = x ∧
    VmqAuthz.authorisePublish pf (some x) m.topic = .ok ∧
    ∃ before after, pre = before ++ .connect x :: after ∧
      VmqAuthz.authoriseRegister pf (reached pf ts dumps w before).state.db (some x) = .ok

/-- The message is the command for node `n` of a user who asked for it with
    access to the node. -/
def Commanded (pf : Platform) (ts : Tsdata.Timescale) (dumps : JsonObject → Bytes) (w : World)
    (es : List Step) (n : Text) (m : Message) : Prop :=
  ∃ pre u params post, es = pre ++ .request (u,.putUserNodeParams n params) :: post ∧
    Access.hasAccess (reached pf ts dumps w pre).state.db u n = .ok true ∧
    m = ⟨Mqtt.Topics.nodeTopic n Mqtt.Topics.paramsRemote,dumps params⟩

theorem published_as {w : World} {es : List Step} {x : Text} {m : Message}
    (published : Published (service pf ts dumps) {state := w} es x m) :
    PublishedAs pf ts dumps w es x m := by
  obtain ⟨pre,i,s,post,split,found,named,permitted,before,after,earlier,admitted⟩ := published
  exact ⟨pre,i,s,post,split,found,named,permits_iff.mp permitted,before,after,earlier,
    admits_iff.mp admitted⟩

theorem commanded_of_requested {w : World} {es : List Step} {m : Message}
    (requested : Requested (service pf ts dumps) {state := w} es m) :
    ∃ n, Commanded pf ts dumps w es n m := by
  obtain ⟨pre,⟨u,request⟩,post,split,listed⟩ := requested
  obtain ⟨n,params,asked,granted,command⟩ := sends_command listed
  cases asked
  exact ⟨n,pre,u,params,post,split,granted,command⟩

/-- Whatever the order of delivery, the server behind the broker makes a run of
    its own calls, and each message it ingests was published in a session that
    `on_register` had let in and `on_publish` had passed, or is a command. -/
theorem ingested_provenance {w : World} {es : List Step} (direct : ∀ c, .call c ∈ es → Direct c) :
    (reached pf ts dumps w es).state = run (step pf) w (calls pf ts dumps w es) ∧
      ∀ mappingId topic payload, .dispatch mappingId topic payload ∈ calls pf ts dumps w es →
        (∃ x, PublishedAs pf ts dumps w es x ⟨topic,payload⟩) ∨
          ∃ n, Commanded pf ts dumps w es n ⟨topic,payload⟩ := by
  refine ⟨reached_world w es,?_⟩
  intro mappingId topic payload ingested
  obtain ⟨pre,e,post,split,made⟩ := (mem_gather _).mp ingested
  cases made_of_yields _ made with
  | direct =>
    have through : Direct (.dispatch mappingId topic payload) := direct _ (by rw [split]; simp)
    exact through.elim
  | @received j draw sent flying =>
    have vouched := (run_origins (σ := service pf ts dumps) w pre).1.inFlight sent flying
    rw [split]
    cases known : sent.sender with
    | some x =>
      simp only [Vouched, known] at vouched
      exact Or.inl ⟨x,published_as (published_later _ vouched)⟩
    | none =>
      simp only [Vouched, known] at vouched
      exact Or.inr (commanded_of_requested (requested_later _ vouched))

/-! The server does not listen to itself. -/

theorem command_suffix {n m suffix : Text} (clean : '/' ∉ m)
    (same : Mqtt.Topics.nodeTopic n Mqtt.Topics.paramsRemote = Mqtt.Topics.nodeTopic m suffix) :
    Mqtt.Topics.paramsRemote <:+ suffix := by
  rw [Mqtt.node_topic_levels,Mqtt.node_topic_levels,List.append_cancel_left_eq,
    List.cons.injEq] at same
  have first : Split.cut '/' (n ++ '/' :: Mqtt.Topics.paramsRemote) = some (m,suffix) := by
    rw [same.2]
    exact Split.cut_append clean
  by_cases inner : '/' ∈ n
  · obtain ⟨a,b,cutting⟩ := Split.cut_of_mem inner
    obtain ⟨eq,front⟩ := Split.cut_some cutting
    rw [eq,List.append_assoc,List.cons_append,Split.cut_append front] at first
    cases first
    exact ⟨b ++ ['/'],by simp⟩
  · rw [Split.cut_append inner] at first
    cases first
    exact List.suffix_refl _

theorem command_ignored {db : Db} {now : Time} {mappingId : Uuid} {n : Text} {payload : Bytes} :
    Mqtt.dispatch pf db now mappingId (Mqtt.Topics.nodeTopic n Mqtt.Topics.paramsRemote) payload =
      db := by
  unfold Mqtt.dispatch
  split
  · rfl
  · rename_i m suffix found
    obtain ⟨built,-,clean,-⟩ := Mqtt.split_topic_iff.mp found
    have tail := command_suffix clean built
    have unlike : ∀ known : Text, ¬ Mqtt.Topics.paramsRemote <:+ known → suffix ≠ known := by
      intro known other same
      rw [same] at tail
      exact other tail
    split
    · rfl
    · unfold Mqtt.handle
      rw [if_neg (unlike _ (by decide)),if_neg (not_or.mpr ⟨unlike _ (by decide),unlike _ (by decide)⟩),
        if_neg (unlike _ (by decide)),if_neg (unlike _ (by decide)),if_neg (unlike _ (by decide))]
      rfl

/-! A retired node. -/

/-- Every certificate of `n` is revoked and no claim for it is open. -/
structure Retired (n : Text) (db : Db) : Prop where
  certificates : ∀ cert ∈ db.nodeCertificates, cert.nodeId = n → cert.revoked = true
  challenges : ∀ r ∈ db.claimChallenges, r.nodeId = n → r.status ≠ .pending

theorem retired_of_concluded {n : Text} {db db' : Db} {now : Time} {randbits : Nat} {csr : Bytes}
    {verdict : Claim.Verdict} (retired : Retired n db)
    (checked : ∀ row, verdict = .accept row → row ∈ db.claimChallenges ∧ row.status = .pending)
    (concluded : Claim.Concluded pf db now randbits csr verdict db') : Retired n db' := by
  have marked : ∀ id, ∀ r ∈ (Claim.markVerified db now id).claimChallenges,
      r.nodeId = n → r.status ≠ .pending := by
    intro id r stored named
    simp only [Claim.markVerified, Table.mem_update] at stored
    obtain ⟨old,earlier,eq⟩ := stored
    rw [← eq] at named ⊢
    split at named
    · rename_i hit
      rw [if_pos hit]
      intro same
      cases same
    · rename_i miss
      rw [if_neg miss]
      exact retired.challenges old earlier named
  cases concluded with
  | refused => exact retired
  | counted =>
    refine ⟨retired.certificates,?_⟩
    intro r stored named
    simp only [Claim.setAttempts, Table.mem_update] at stored
    obtain ⟨old,earlier,eq⟩ := stored
    rw [← eq] at named ⊢
    split at named
    · rename_i hit
      rw [if_pos hit]
      exact retired.challenges old earlier named
    · rename_i miss
      rw [if_neg miss]
      exact retired.challenges old earlier named
  | consumed failed => exact ⟨retired.certificates,marked _⟩
  | @issued row s _ signed stored =>
    obtain ⟨nodes,certs,eq,inserted,-⟩ := Claim.insert_certificate_ok stored
    subst eq
    refine ⟨?_,marked _⟩
    intro cert member named
    rcases (Table.mem_insert inserted).mp member with old | new
    · exact retired.certificates cert old named
    · obtain ⟨there,pending⟩ := checked row rfl
      have whole : cut 64 row.nodeId = row.nodeId := cut_of_varchar (Claim.claim_node_varchar there)
      have own : row.nodeId = n := by
        rw [← whole,← named,new]
        rfl
      exact absurd pending (retired.challenges row there own)

theorem step_keeps_retired {n : Text} {w : World} {c : Call} (retired : Retired n w.db)
    (elsewhere : ∀ macAddr, mints c = some macAddr → Claim.storedNodeId pf macAddr ≠ n) :
    Retired n (step pf w c).db := by
  rcases effect_claims (step_effect pf w c) with same | effect
  · exact ⟨by rw [same.certificates]; exact retired.certificates,
      by rw [same.challenges]; exact retired.challenges⟩
  · generalize (step pf w c).db = db' at effect
    cases effect with
    | @initiatedSelf id authId challenge macAddr platform t provisioned inserted =>
      refine ⟨retired.certificates,?_⟩
      intro r stored named
      rcases (Table.mem_insert inserted).mp stored with old | new
      · exact retired.challenges r old named
      · have own : Claim.storedNodeId pf macAddr = n := by
          rw [← named,new]
          rfl
        exact absurd own (elsewhere _ rfl)
    | @initiatedAssisted userId id macAddr platform t inserted =>
      refine ⟨retired.certificates,?_⟩
      intro r stored named
      rcases (Table.mem_insert inserted).mp stored with old | new
      · exact retired.challenges r old named
      · have own : Claim.storedNodeId pf macAddr = n := by
          rw [← named,new]
          rfl
        exact absurd own (elsewhere _ rfl)
    | verifiedSelf present concluded =>
      apply retired_of_concluded retired _ concluded
      intro row accepted
      have usable := (Claim.self_claim_check_row (Or.inl accepted)).1
      exact ⟨usable.stored,usable.pending⟩
    | verifiedAssisted auth present concluded =>
      apply retired_of_concluded retired _ concluded
      intro row accepted
      have usable := (Claim.assisted_claim_check_iff.mp accepted).usable
      exact ⟨usable.stored,usable.pending⟩
    | revoked =>
      refine ⟨?_,retired.challenges⟩
      intro cert stored named
      simp only [Claim.revokeCertificate, Table.mem_update] at stored
      obtain ⟨old,earlier,eq⟩ := stored
      rw [← eq] at named ⊢
      split at named
      · rename_i hit
        rw [if_pos hit]
      · rename_i miss
        rw [if_neg miss]
        exact retired.certificates old earlier named

/-- No one claims `n` again or takes a name that speaks for another node, and
    nobody but the server presents the internal name. -/
def Permitted (pf : Platform) (n : Text) : Step → Prop
  | .call c => Direct c ∧ ∀ macAddr, mints c = some macAddr →
      Claim.storedNodeId pf macAddr ≠ n ∧ Addressable (Claim.storedNodeId pf macAddr)
  | .connect x => VmqAuthz.isBackend pf (some x) = false
  | _ => True

/-- A name under which nothing is said about `n`. -/
structure Foreign (pf : Platform) (n x : Text) : Prop where
  device : VmqAuthz.isBackend pf (some x) = false
  addressable : Addressable x
  other : cut 64 x ≠ n

def LoopsBack (m : Message) : Prop := ∃ k, m.topic = Mqtt.Topics.nodeTopic k Mqtt.Topics.paramsRemote

theorem sends_loops_back {w : World} {r : Uuid × UserNodes.Request} {m : Message}
    (sent : m ∈ (service pf ts dumps).sends w r) : LoopsBack m := by
  obtain ⟨n,params,-,-,command⟩ := sends_command sent
  exact ⟨n,by rw [command]⟩

/-- The invariant: `n` is retired, nothing in flight speaks for it, and its
    reports are those of the start. -/
structure Silent (pf : Platform) (ts : Tsdata.Timescale) (dumps : JsonObject → Bytes) (n : Text)
    (db : Db) (net : Network) : Prop where
  sound : Sound (service pf ts dumps) (Foreign pf n)
    (Passed (service pf ts dumps) (Foreign pf n)) LoopsBack net
  minted : Minted Addressable net.state.db
  retired : Retired n net.state.db
  kept : KeptFor n db net.state.db

theorem made_mints {net : Network} {e : Step} {c : Call} {macAddr : Text}
    (made : Made (service pf ts dumps) net e c) (minting : mints c = some macAddr) :
    e = .call c := by
  cases made with
  | direct => rfl
  | received flying => cases minting

theorem admitted_certificate {w : World} {x : Text} (device : VmqAuthz.isBackend pf (some x) = false)
    (admitted : VmqAuthz.authoriseRegister pf w.db (some x) = .ok) :
    ∃ cert ∈ w.db.nodeCertificates, cert.cn = x ∧ cert.revoked = false := by
  have active := (treated_as_device device).register w.db admitted
  obtain ⟨cert,found⟩ := Option.isSome_iff_exists.mp active
  obtain ⟨stored,hit⟩ := Table.mem_select.mp (List.mem_of_head? found)
  simp only [Bool.and_eq_true, beq_iff_eq, Bool.not_eq_true'] at hit
  exact ⟨cert,stored,hit⟩

theorem permitted_mints {n : Text} {net : Network} {e : Step} {c : Call}
    (permitted : Permitted pf n e) (made : Made (service pf ts dumps) net e c) :
    ∀ macAddr, mints c = some macAddr →
      Claim.storedNodeId pf macAddr ≠ n ∧ Addressable (Claim.storedNodeId pf macAddr) := by
  intro macAddr minting
  have called := made_mints made minting
  subst called
  exact permitted.2 macAddr minting

theorem admitted_foreign {n : Text} {w : World} {x : Text} (minted : Minted Addressable w.db)
    (retired : Retired n w.db) (device : VmqAuthz.isBackend pf (some x) = false)
    (admitted : VmqAuthz.authoriseRegister pf w.db (some x) = .ok) : Foreign pf n x := by
  obtain ⟨cert,stored,named,active⟩ := admitted_certificate device admitted
  obtain ⟨same,address⟩ := minted.certificates cert stored
  refine ⟨device,by rw [← named]; exact address,?_⟩
  intro own
  have whole : cut 64 x = x := by
    have held := Table.holds_of_mem stored
    simp only [Schema.holds, Bool.and_eq_true] at held
    rw [← named,same]
    exact cut_of_varchar held.1.2
  have revoked := retired.certificates cert stored (by rw [← same,named,← whole,own])
  rw [active] at revoked
  cases revoked

theorem made_keeps_reports {n : Text} {db : Db} {net : Network} {e : Step} {c : Call}
    (silent : Silent pf ts dumps n db net) (permitted : Permitted pf n e)
    (made : Made (service pf ts dumps) net e c) :
    KeptFor n net.state.db (step pf net.state c).db := by
  by_cases speaks : Speaks net.state.db n c
  · cases speaks with
    | @request cn request node certified named =>
      -- behind the request there would be an active certificate of `n`
      obtain ⟨-,cert,stored,active,own⟩ := Claim.get_node_from_mtls_ok certified
      have revoked := silent.retired.certificates cert stored (own.trans named)
      rw [active] at revoked
      cases revoked
    | @message mappingId topic m suffix payload topical column =>
      cases made with
      | direct => exact permitted.1.elim
      | @received j draw sent flying =>
        have vouched := silent.sound.inFlight sent flying
        cases known : sent.sender with
        | some x =>
          simp only [Vouched, known] at vouched
          obtain ⟨foreign,passed⟩ := vouched
          rcases attributed_of_addressable foreign.device foreign.addressable _
            (permits_iff.mp passed) with dropped | ⟨suffix',own⟩
          · rw [dropped] at topical
            cases topical
          · rw [own] at topical
            cases topical
            exact absurd column foreign.other
        | none =>
          simp only [Vouched, known] at vouched
          obtain ⟨k,command⟩ := vouched
          simp only [Api.step, serve, command, command_ignored]
          exact kept_refl n _
  · exact serve_keeps_reports speaks

theorem step_keeps_silent {n : Text} {db : Db} {net : Network} {e : Step}
    (silent : Silent pf ts dumps n db net) (permitted : Permitted pf n e) :
    Silent pf ts dumps n db (Delivery.step (service pf ts dumps) net e) where
  sound := by
    apply step_sound silent.sound
    cases e with
    | connect x =>
      intro admitted
      exact admitted_foreign silent.minted silent.retired permitted (admits_iff.mp admitted)
    | publish i m => exact fun s _ foreign passed => ⟨foreign,passed⟩
    | request r => exact fun m listed => sends_loops_back listed
    | _ => trivial
  minted := step_state (service pf ts dumps) (I := fun w => Minted Addressable w.db) silent.minted
    fun c made => step_keeps_minted silent.minted fun macAddr opened =>
      (permitted_mints permitted made macAddr opened).2
  retired := step_state (service pf ts dumps) (I := fun w => Retired n w.db) silent.retired
    fun c made => step_keeps_retired silent.retired fun macAddr opened =>
      (permitted_mints permitted made macAddr opened).1
  kept := step_state (service pf ts dumps) (I := fun w => KeptFor n db w.db) silent.kept
    fun c made => kept_trans silent.kept (made_keeps_reports silent permitted made)

/-- Once the certificates of a node are revoked and its sessions and messages
    are gone, nothing that reaches the server changes what it reported, in
    whatever order messages and requests come. -/
theorem retired_node_is_silent {n : Text} {net : Network} {es : List Step}
    (sound : Sound (service pf ts dumps) (Foreign pf n)
      (Passed (service pf ts dumps) (Foreign pf n)) LoopsBack net)
    (retired : Retired n net.state.db) (minted : Minted Addressable net.state.db)
    (permitted : ∀ e ∈ es, Permitted pf n e) :
    KeptFor n net.state.db (run (Delivery.step (service pf ts dumps)) net es).state.db := by
  have start : Silent pf ts dumps n net.state.db net := ⟨sound,minted,retired,kept_refl n _⟩
  have last : Silent pf ts dumps n net.state.db
      (run (Delivery.step (service pf ts dumps)) net es) := by
    apply run_invariant (Delivery.step (service pf ts dumps))
      (I := Silent pf ts dumps n net.state.db) _ start (along_of_forall _ permitted)
    intro net e silent condition
    exact step_keeps_silent silent condition
  exact last.kept

/-! Conversations. -/

/-- The names the claim flows are meant to mint: one level, no wildcard. -/
def PlainName (x : Text) : Prop := '/' ∉ x ∧ '+' ∉ x ∧ '#' ∉ x

instance (x : Text) : Decidable (PlainName x) :=
  inferInstanceAs (Decidable ('/' ∉ x ∧ '+' ∉ x ∧ '#' ∉ x))

theorem plain_unambiguous {x : Text} (plain : PlainName x) : Unambiguous x := by
  left
  intro wild
  exact plain.2.1 (Levels.mem_of_level wild (by decide))

/-- Every claim is for a plain name, and nobody but the server presents the
    internal name. -/
def Orderly (pf : Platform) : Step → Prop
  | .call c => Direct c ∧ ∀ macAddr, mints c = some macAddr → PlainName (Claim.storedNodeId pf macAddr)
  | .connect x => VmqAuthz.isBackend pf (some x) = false
  | _ => True

structure Device (pf : Platform) (x : Text) : Prop where
  device : VmqAuthz.isBackend pf (some x) = false
  plain : PlainName x

theorem orderly_mints {net : Network} {e : Step} {c : Call} (orderly : Orderly pf e)
    (made : Made (service pf ts dumps) net e c) :
    ∀ macAddr, mints c = some macAddr → PlainName (Claim.storedNodeId pf macAddr) := by
  intro macAddr minting
  have called := made_mints made minting
  subst called
  exact orderly.2 macAddr minting

theorem admitted_device {w : World} {x : Text} (minted : Minted PlainName w.db)
    (device : VmqAuthz.isBackend pf (some x) = false)
    (admitted : VmqAuthz.authoriseRegister pf w.db (some x) = .ok) : Device pf x := by
  obtain ⟨cert,stored,named,-⟩ := admitted_certificate device admitted
  refine ⟨device,?_⟩
  rw [← named]
  exact (minted.certificates cert stored).2

structure Conversing (pf : Platform) (ts : Tsdata.Timescale) (dumps : JsonObject → Bytes)
    (net : Network) : Prop where
  minted : Minted PlainName net.state.db
  sound : Sound (service pf ts dumps) (Device pf) (Passed (service pf ts dumps) (Device pf))
    LoopsBack net
  read : Read (service pf ts dumps) (Device pf) (Passed (service pf ts dumps) (Device pf))
    LoopsBack net

theorem step_keeps_conversing {net : Network} {e : Step} (conversing : Conversing pf ts dumps net)
    (orderly : Orderly pf e) :
    Conversing pf ts dumps (Delivery.step (service pf ts dumps) net e) where
  minted := step_state _ (I := fun w => Minted PlainName w.db) conversing.minted fun c made =>
    step_keeps_minted conversing.minted (orderly_mints orderly made)
  sound := by
    apply step_sound conversing.sound
    cases e with
    | connect x =>
      intro admitted
      exact admitted_device conversing.minted orderly (admits_iff.mp admitted)
    | publish i m => exact fun s _ device passed => ⟨device,passed⟩
    | request r => exact fun m listed => sends_loops_back listed
    | _ => trivial
  read := step_read conversing.sound conversing.read

theorem run_conversing {w : World} {es : List Step} (minted : Minted PlainName w.db)
    (orderly : ∀ e ∈ es, Orderly pf e) : Conversing pf ts dumps (reached pf ts dumps w es) := by
  apply run_invariant (Delivery.step (service pf ts dumps)) (I := Conversing pf ts dumps) _
    ⟨minted,sound_start _,read_start _⟩ (along_of_forall _ orderly)
  intro net e conversing condition
  exact step_keeps_conversing conversing condition

theorem allowed_topic_named {x n suffix : Text} (plain : '/' ∉ x) (clean : '/' ∉ n)
    (allowed : VmqAuthz.allowedTopic x (Mqtt.Topics.nodeTopic n suffix) = true) : x = n := by
  refine allowed_topic_owner plain clean allowed ?_
  rw [allowed_topic_levels]
  exact ⟨suffix,Mqtt.node_topic_levels n suffix⟩

/-- What a session receives is what its own name published, or a command of a
    user who had access to a node then; a command for a plain name reaches the
    sessions of that name only. No device can write to another. -/
theorem conversations_are_private {w : World} {es : List Step} (minted : Minted PlainName w.db)
    (orderly : ∀ e ∈ es, Orderly pf e) :
    ∀ d ∈ (reached pf ts dumps w es).delivered, Concrete d.2.message.topic →
      (d.2.sender = some d.1 ∧ PublishedAs pf ts dumps w es d.1 d.2.message) ∨
        d.2.sender = none ∧
          ∃ n, Commanded pf ts dumps w es n d.2.message ∧ ('/' ∉ n → d.1 = n) := by
  intro d received concrete
  obtain ⟨reader,vouched,fs,granted,f,listed,covered⟩ :=
    (@run_conversing pf ts dumps w es minted orderly).read d received
  obtain ⟨-,origin,-⟩ := (run_origins (σ := service pf ts dumps) w es).2 d received
  have inside : InNamespace d.1 d.2.message.topic :=
    receives_of_unambiguous reader.device (plain_unambiguous reader.plain) (fs.map some)
      (by simpa [service] using granted) (some f) (List.mem_map_of_mem listed) _ concrete covered
  cases known : d.2.sender with
  | some y =>
    left
    simp only [Vouched, known] at vouched origin
    obtain ⟨writer,passed⟩ := vouched
    have own := (treated_as_device writer.device).publish _ (permits_iff.mp passed)
    rcases inside with bare | below
    · -- `node/x` alone is below no name
      obtain ⟨rest,eq⟩ := allowed_topic_levels.mp own
      rw [bare,node_below,List.append_cancel_left_eq,List.cons.injEq] at eq
      exact absurd (by rw [eq.2]; simp) reader.plain.1
    · have same : y = d.1 := allowed_topic_owner writer.plain.1 reader.plain.1 own below
      subst same
      exact ⟨rfl,published_as origin⟩
  | none =>
    right
    simp only [Vouched, known] at origin
    obtain ⟨n,commanded⟩ := commanded_of_requested origin
    refine ⟨rfl,n,commanded,?_⟩
    intro clean
    obtain ⟨pre,u,params,post,-,-,command⟩ := commanded
    rw [command] at inside
    rcases inside with bare | below
    · rw [node_below,Mqtt.node_topic_levels,List.append_cancel_left_eq,List.cons.injEq] at bare
      exact absurd (by rw [← bare.2]; simp) reader.plain.1
    · exact allowed_topic_named reader.plain.1 clean below

end

/-! A lamp whose certificate is revoked, and a plug that is in use. -/

def emptyDocument : Bytes := [123,125]

def onPlatform : Platform :=
  {Deployment.platform with jsonLoads := fun b => if b = emptyDocument then some (.obj []) else none}

def certificate (serial n : Text) (revoked : Bool) : NodeCertificate :=
  {serial := serial, nodeId := n, certPem := "pem", cn := n, notBefore := 0, notAfter := 0,
    revoked := revoked}

def lampAndPlug : World where
  db := {
    users := Deployment.anaAndBob
    nodes := .of [{nodeId := "plug"},{nodeId := "lamp"}]
    nodeCertificates := .of [certificate "1" "lamp" true,certificate "2" "plug" false]
    userNodeMappings := .one {id := 3, userId := 1, nodeId := "plug"}}
  now := 0

def evening : List Step :=
  [.connect "lamp",.connect "plug",.publish 0 ⟨"node/lamp/config",emptyDocument⟩,
    .publish 0 ⟨"node/plug/config",emptyDocument⟩,.ingest 0 9,.ingest 0 10,
    .subscribe 0 ["node/plug/#"],.request (1,.putUserNodeParams "plug" []),.forward 1 0]

abbrev eveningNetwork : Network :=
  reached onPlatform Deployment.timescale (fun _ => emptyDocument) lampAndPlug evening

theorem evening_calls : ∀ c, .call c ∉ evening := by
  intro c listed
  simp [evening] at listed

theorem evening_connects {x : Text} (listed : .connect x ∈ evening) :
    VmqAuthz.isBackend onPlatform (some x) = false := by
  have names : ∀ y ∈ (["lamp","plug"] : List Text), VmqAuthz.isBackend onPlatform (some y) = false := by
    decide +kernel
  apply names
  simpa [evening, or_comm] using listed

theorem lamp_and_plug_names : Minted PlainName lampAndPlug.db :=
  ⟨(fun _ stored => nomatch stored),by unfold Certified; decide +kernel⟩

theorem evening_provenance : eveningNetwork.state =
      run (Api.step onPlatform) lampAndPlug
        (calls onPlatform Deployment.timescale (fun _ => emptyDocument) lampAndPlug evening) ∧
    ∀ mappingId topic payload, .dispatch mappingId topic payload ∈
        calls onPlatform Deployment.timescale (fun _ => emptyDocument) lampAndPlug evening →
      (∃ x, PublishedAs onPlatform Deployment.timescale (fun _ => emptyDocument) lampAndPlug
        evening x ⟨topic,payload⟩) ∨
      ∃ n, Commanded onPlatform Deployment.timescale (fun _ => emptyDocument) lampAndPlug
        evening n ⟨topic,payload⟩ :=
  ingested_provenance fun c listed => absurd listed (evening_calls c)

def plugConnected : Network := {state := lampAndPlug, sessions := [⟨"plug",[]⟩]}

theorem lamp_is_silent : KeptFor "lamp" lampAndPlug.db
    (run (Delivery.step (service onPlatform Deployment.timescale fun _ => emptyDocument))
      plugConnected evening).state.db := by
  have named : Foreign onPlatform "lamp" "plug" := ⟨by decide +kernel,by decide +kernel,by decide⟩
  show KeptFor "lamp" plugConnected.state.db _
  apply retired_node_is_silent
  · constructor
    · intro s there
      rw [plugConnected,List.mem_singleton] at there
      rw [there]
      exact ⟨named,fun _ none => nomatch none⟩
    · exact fun _ none => nomatch none
  · exact ⟨by decide +kernel,fun _ stored => nomatch stored⟩
  · exact ⟨(fun _ stored => nomatch stored),by unfold Certified; decide +kernel⟩
  · intro e listed
    cases e with
    | call c => exact absurd listed (evening_calls c)
    | connect x => exact evening_connects listed
    | _ => trivial

theorem plug_hears_ana :
    eveningNetwork.delivered.map (fun d => (d.1,d.2.message.topic)) =
        [("plug".toList,"node/plug/params/remote".toList)] ∧
      ∀ d ∈ eveningNetwork.delivered, Concrete d.2.message.topic →
        (d.2.sender = some d.1 ∧ PublishedAs onPlatform Deployment.timescale
            (fun _ => emptyDocument) lampAndPlug evening d.1 d.2.message) ∨
          d.2.sender = none ∧
            ∃ n, Commanded onPlatform Deployment.timescale (fun _ => emptyDocument) lampAndPlug
              evening n d.2.message ∧ ('/' ∉ n → d.1 = n) := by
  refine ⟨by decide +kernel,conversations_are_private lamp_and_plug_names ?_⟩
  intro e listed
  cases e with
  | call c => exact absurd listed (evening_calls c)
  | connect x => exact evening_connects listed
  | _ => trivial

end RainmakerServer.Broker
