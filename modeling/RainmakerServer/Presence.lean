import Mathlib.Data.Finset.Basic
import RainmakerServer.Api
import RainmakerServer.UserNodes

/-!
The online flag of a node beside the clients that are connected under its name.
The broker sees a set of clients, the database one flag: the events of both
are followed side by side, and the flag is the last event's. It says whether a
client is connected unless that event was an offline one and another client
stayed.
-/
namespace RainmakerServer.Presence
open Tables Runs UserNodes

/-- `on_client_online` or `on_client_offline`, and the time since the last event. -/
structure ClientEvent where
  clientId : Text
  username : Text
  online : Bool
  elapsed : Nat

def ClientEvent.call (e : ClientEvent) : Call :=
  if e.online then .onClientOnline (some e.clientId) (some e.username)
  else .onClientOffline (some e.clientId) (some e.username)

def eventStep (pf : Platform) (w : World) (e : ClientEvent) : World :=
  Api.step pf (Api.step pf w (.tick e.elapsed)) e.call

/-- The clients with username `n` that are online, as the broker has them. -/
def brokerStep (n : Text) (connected : Finset Text) (e : ClientEvent) : Finset Text :=
  if e.username = n then
    if e.online then insert e.clientId connected else connected.erase e.clientId
  else connected

def Alternates (n : Text) (connected : Finset Text) (e : ClientEvent) : Prop :=
  e.username = n → (e.online = true ↔ e.clientId ∉ connected)

instance (n : Text) (connected : Finset Text) (e : ClientEvent) :
    Decidable (Alternates n connected e) := by
  unfold Alternates
  infer_instance

/-- One client of `n` goes offline and another is still there. -/
def LeavesOthers (n : Text) (connected : Finset Text) (e : ClientEvent) : Prop :=
  e.username = n ∧ e.online = false ∧ (connected.erase e.clientId).Nonempty

def Own (n : Text) (_ : Finset Text) (e : ClientEvent) : Prop := e.username = n

def IsOnline (db : Db) (n : Text) : Prop := ∃ node, readNode db n = some node ∧ node.online = true

section
variable {pf : Platform} {w : World} {e : ClientEvent} {n : Text}

theorem event_step_db (device : VmqAuthz.isBackend pf (some e.username) = false)
    (named : e.username ≠ []) : (eventStep pf w e).db =
      VmqAuthz.setOnline w.db (w.now + e.elapsed) e.username e.online := by
  have name : VmqAuthz.clientNode (some e.clientId) (some e.username) = e.username := by
    cases eq : e.username with
    | nil => exact absurd eq named
    | cons c cs => rfl
  have present : e.username.isEmpty = false := by simpa using named
  unfold eventStep ClientEvent.call
  cases e.online with
  | true =>
    simp [Api.step, Api.serve, VmqAuthz.markOnline, device, name, present]
  | false =>
    simp [Api.step, Api.serve, VmqAuthz.markOffline, device, name, present]

theorem event_step_backend (backend : VmqAuthz.isBackend pf (some e.username) = true) :
    (eventStep pf w e).db = w.db := by
  unfold eventStep ClientEvent.call
  cases e.online with
  | true => simp [Api.step, Api.serve, VmqAuthz.markOnline, backend]
  | false => simp [Api.step, Api.serve, VmqAuthz.markOffline, backend]

theorem read_set_online {db : Db} {now : Time} {online : Bool} :
    readNode (VmqAuthz.setOnline db now n online) n =
      (readNode db n).map fun r => {r with online := online, lastSeenAt := some now} := by
  unfold readNode VmqAuthz.setOnline
  dsimp only
  rw [Table.find_update (by intro r here; exact here)]

theorem read_set_online_other {db : Db} {now : Time} {online : Bool} {m : Text} (other : m ≠ n) :
    readNode (VmqAuthz.setOnline db now m online) n = readNode db n := by
  unfold readNode VmqAuthz.setOnline
  rw [← List.head?_filter,← List.head?_filter,Table.update_filter]
  intro r _ here
  rw [beq_iff_eq] at here
  have apart : (r.nodeId == n) = false := by
    rw [here]
    simpa using other
  exact ⟨apart,apart⟩

theorem own_event (device : VmqAuthz.isBackend pf (some n) = false) (named : n ≠ [])
    (present : (readNode w.db n).isSome) (own : e.username = n) :
    IsOnline (eventStep pf w e).db n ↔ e.online = true := by
  subst own
  obtain ⟨node,found⟩ := Option.isSome_iff_exists.mp present
  rw [event_step_db device named]
  unfold IsOnline
  rw [read_set_online,found]
  simp

theorem other_event (named : e.username ≠ []) (other : e.username ≠ n) :
    readNode (eventStep pf w e).db n = readNode w.db n := by
  cases backend : VmqAuthz.isBackend pf (some e.username) with
  | true => rw [event_step_backend backend]
  | false =>
    rw [event_step_db backend named]
    exact read_set_online_other other

theorem row_stays (named : e.username ≠ []) (present : (readNode w.db n).isSome) :
    (readNode (eventStep pf w e).db n).isSome := by
  by_cases own : e.username = n
  · subst own
    cases backend : VmqAuthz.isBackend pf (some e.username) with
    | true =>
      rw [event_step_backend backend]
      exact present
    | false =>
      rw [event_step_db backend named,read_set_online,Option.isSome_map]
      exact present
  · rw [other_event named own]
    exact present

theorem row_stays_run (es : List ClientEvent) (named : ∀ e ∈ es, e.username ≠ [])
    (present : (readNode w.db n).isSome) : (readNode (run (eventStep pf) w es).db n).isSome := by
  induction es generalizing w with
  | nil => exact present
  | cons e es ih =>
    apply ih
    · intro d member
      exact named d (by simp [member])
    · exact row_stays (named e (by simp)) present

end

/-- After every sequence of events, the flag is the connection state exactly
    when the last event of the node's name was not the offline event of one
    client while another one stayed. -/
theorem flag_is_connection_iff (pf : Platform) (w : World) (n : Text) (es : List ClientEvent)
    (device : VmqAuthz.isBackend pf (some n) = false) (present : (readNode w.db n).isSome)
    (offline : ¬ IsOnline w.db n) (named : ∀ e ∈ es, e.username ≠ []) :
    (IsOnline (run (eventStep pf) w es).db n ↔ (run (brokerStep n) ∅ es).Nonempty) ↔
      ¬ Since (brokerStep n) (LeavesOthers n) (Own n) ∅ es := by
  induction es using List.reverseRecOn with
  | nil => simp [run, offline, since_nil]
  | append_singleton es e ih =>
    have earlier : ∀ d ∈ es, d.username ≠ [] := fun d member => named d (by simp [member])
    have last : e.username ≠ [] := named e (by simp)
    have before := run_append (eventStep pf) w es [e]
    have clients := run_append (brokerStep n) ∅ es [e]
    rw [before,clients,since_snoc]
    simp only [run]
    by_cases own : e.username = n
    · -- the flag is this event's, whatever it was before
      rw [own_event device (own ▸ last) (row_stays_run es earlier present) own]
      cases kind : e.online with
      | true => simp [brokerStep, LeavesOthers, Own, own, kind]
      | false => simp [brokerStep, LeavesOthers, Own, own, kind]
    · have flag : IsOnline (eventStep pf (run (eventStep pf) w es) e).db n ↔
          IsOnline (run (eventStep pf) w es).db n := by
        unfold IsOnline
        rw [other_event last own]
      have same : brokerStep n (run (brokerStep n) ∅ es) e = run (brokerStep n) ∅ es := if_neg own
      rw [flag,same,ih earlier]
      simp [LeavesOthers, Own, own]

def registered : World where
  db := {nodes := .one {nodeId := "n1"}}
  now := 0

def reconnect : List ClientEvent :=
  [⟨"n1","n1",true,0⟩,⟨"n1","n1",false,60000000⟩,⟨"n1","n1",true,1000000⟩]

theorem reconnected_online :
    IsOnline (run (eventStep Deployment.platform) registered reconnect).db "n1" := by
  have last : ¬ Since (brokerStep "n1") (LeavesOthers "n1") (Own "n1") ∅ reconnect := by
    have split : reconnect = reconnect.take 2 ++ [⟨"n1","n1",true,1000000⟩] := rfl
    rw [split,since_snoc]
    simp [LeavesOthers, Own]
  have started : ¬ IsOnline registered.db "n1" := by
    intro online
    obtain ⟨node,found,on⟩ := online
    cases found
    cases on
  exact ((flag_is_connection_iff Deployment.platform registered "n1" reconnect (by decide)
    (by decide) started (by decide)).mpr last).mpr (by decide)

def secondClient : List ClientEvent :=
  [⟨"n1","n1",true,0⟩,⟨"n1-mapping","n1",true,60000000⟩,⟨"n1-mapping","n1",false,1000000⟩]

/-- When it has gone, the first one is online and the flag says it is not. -/
theorem second_client_clears_flag :
    Along (brokerStep "n1") (Alternates "n1") ∅ secondClient ∧
    (run (brokerStep "n1") ∅ secondClient).Nonempty ∧
    ¬ IsOnline (run (eventStep Deployment.platform) registered secondClient).db "n1" := by
  refine ⟨by decide,by decide,?_⟩
  intro online
  obtain ⟨node,found,on⟩ := online
  cases found
  cases on

end RainmakerServer.Presence
