import RainmakerServer.Lib.Runs

/-!
A service behind a message broker. Clients open a session under a name, publish
and subscribe as the service permits; what is in flight reaches the service and
the subscribed sessions in any order, any number of times or not at all. What
the service publishes itself goes out under no session.
-/
namespace Delivery
open Runs

/-- What the service decides about names, messages and filters, and the call
    that hands it a message. `R` are the requests it answers with messages. -/
structure Service (S N M F R D C : Type) where
  serve : S → C → S
  admits : S → N → Bool
  permits : N → M → Bool
  grants : N → List F → Bool
  covers : F → M → Bool
  hears : M → Bool
  receive : M → D → C
  sends : S → R → List M

structure Session (N F : Type) where
  name : N
  filters : List F := []

structure Sent (N M : Type) where
  sender : Option N
  message : M

structure Net (S N M F : Type) where
  state : S
  sessions : List (Session N F) := []
  inFlight : List (Sent N M) := []
  delivered : List (N × Sent N M) := []

inductive Event (N M F R D C : Type) where
  | call (c : C)
  | request (r : R)
  | connect (name : N)
  | disconnect (session : Nat)
  | publish (session : Nat) (message : M)
  | subscribe (session : Nat) (filters : List F)
  | ingest (flying : Nat) (draw : D)
  | forward (flying session : Nat)
  | lose (flying : Nat)

section
variable {S N M F R D C : Type} (σ : Service S N M F R D C)

def yields (net : Net S N M F) : Event N M F R D C → List C
  | .call c => [c]
  | .ingest j draw => match net.inFlight[j]? with
    | none => []
    | some sent => if σ.hears sent.message then [σ.receive sent.message draw] else []
  | _ => []

def carry (net : Net S N M F) : Event N M F R D C → Net S N M F
  | .request r =>
    {net with inFlight := net.inFlight ++ (σ.sends net.state r).map (Sent.mk none)}
  | .connect name =>
    if σ.admits net.state name then {net with sessions := net.sessions ++ [⟨name,[]⟩]}
    else net
  | .disconnect i => {net with sessions := net.sessions.eraseIdx i}
  | .publish i message => match net.sessions[i]? with
    | none => net
    | some s => if σ.permits s.name message then
        {net with inFlight := net.inFlight ++ [⟨some s.name,message⟩]}
      else net
  | .subscribe i filters => match net.sessions[i]? with
    | none => net
    | some s => if σ.grants s.name filters then
        {net with sessions := net.sessions.set i {s with filters := s.filters ++ filters}}
      else net
  | .forward j i => match net.inFlight[j]?, net.sessions[i]? with
    | some sent, some s => if s.filters.any (σ.covers · sent.message) then
        {net with delivered := net.delivered ++ [(s.name,sent)]}
      else net
    | _, _ => net
  | .lose j => {net with inFlight := net.inFlight.eraseIdx j}
  | _ => net

def step (net : Net S N M F) (e : Event N M F R D C) : Net S N M F :=
  {carry σ net e with state := run σ.serve net.state (yields σ net e)}

theorem run_state (net : Net S N M F) (es : List (Event N M F R D C)) :
    (run (step σ) net es).state = run σ.serve net.state (gather (step σ) (yields σ) net es) := by
  induction es generalizing net with
  | nil => rfl
  | cons e es ih =>
    rw [run,ih,gather,run_append]
    rfl

/-- A call is made directly or hands over what is in flight, and an event makes
    at most one. -/
inductive Made (net : Net S N M F) : Event N M F R D C → C → Prop where
  | direct {c : C} : Made net (.call c) c
  | received {j : Nat} {draw : D} {sent : Sent N M} (flying : sent ∈ net.inFlight) :
      Made net (.ingest j draw) (σ.receive sent.message draw)

theorem yields_cases (net : Net S N M F) (e : Event N M F R D C) :
    yields σ net e = [] ∨ ∃ c, yields σ net e = [c] ∧ Made σ net e c := by
  cases e with
  | call c => exact Or.inr ⟨c,rfl,.direct⟩
  | ingest j draw =>
    simp only [yields]
    split
    · exact Or.inl rfl
    · rename_i sent flying
      split
      · exact Or.inr ⟨_,rfl,.received (List.mem_of_getElem? flying)⟩
      · exact Or.inl rfl
  | _ => exact Or.inl rfl

theorem made_of_yields {net : Net S N M F} {e : Event N M F R D C} {c : C}
    (made : c ∈ yields σ net e) : Made σ net e c := by
  rcases yields_cases σ net e with none | ⟨d,single,made'⟩
  · rw [none] at made
    cases made
  · rw [single,List.mem_singleton] at made
    rw [made]
    exact made'

theorem step_state {I : S → Prop} {net : Net S N M F} {e : Event N M F R D C}
    (start : I net.state) (keep : ∀ c, Made σ net e c → I (σ.serve net.state c)) :
    I (step σ net e).state := by
  rcases yields_cases σ net e with none | ⟨c,single,made⟩
  · simp only [step, none, run]
    exact start
  · simp only [step, single, run]
    exact keep c made

/-! What is known of the names and the messages. -/

def Vouched (V : N → M → Prop) (Q : M → Prop) (sent : Sent N M) : Prop :=
  match sent.sender with
  | some n => V n sent.message
  | none => Q sent.message

def Warranted (P : N → Prop) (V : N → M → Prop) (Q : M → Prop) (net : Net S N M F) :
    Event N M F R D C → Prop
  | .connect name => σ.admits net.state name = true → P name
  | .publish i m => ∀ s, net.sessions[i]? = some s → P s.name → σ.permits s.name m = true →
      V s.name m
  | .request r => ∀ m ∈ σ.sends net.state r, Q m
  | _ => True

def Passed (P : N → Prop) (n : N) (m : M) : Prop := P n ∧ σ.permits n m = true

structure Sound (P : N → Prop) (V : N → M → Prop) (Q : M → Prop) (net : Net S N M F) : Prop where
  sessions : ∀ s ∈ net.sessions, P s.name ∧
    ∀ f ∈ s.filters, ∃ fs, σ.grants s.name fs = true ∧ f ∈ fs
  inFlight : ∀ sent ∈ net.inFlight, Vouched V Q sent

def Read (P : N → Prop) (V : N → M → Prop) (Q : M → Prop) (net : Net S N M F) : Prop :=
  ∀ d ∈ net.delivered, P d.1 ∧ Vouched V Q d.2 ∧
    ∃ fs, σ.grants d.1 fs = true ∧ ∃ f ∈ fs, σ.covers f d.2.message = true

theorem sound_start {P : N → Prop} {V : N → M → Prop} {Q : M → Prop} {s : S} :
    Sound σ P V Q ({state := s} : Net S N M F) where
  sessions := fun _ there => nomatch there
  inFlight := fun _ there => nomatch there

theorem read_start {P : N → Prop} {V : N → M → Prop} {Q : M → Prop} {s : S} :
    Read σ P V Q ({state := s} : Net S N M F) := fun _ there => nomatch there

variable {σ} {P P' : N → Prop} {V V' : N → M → Prop} {Q Q' : M → Prop} {net : Net S N M F}

theorem vouched_mono {sent : Sent N M} (published : ∀ n m, V n m → V' n m)
    (sends : ∀ m, Q m → Q' m) (vouched : Vouched V Q sent) : Vouched V' Q' sent := by
  cases known : sent.sender with
  | some n =>
    simp only [Vouched, known] at vouched ⊢
    exact published n sent.message vouched
  | none =>
    simp only [Vouched, known] at vouched ⊢
    exact sends sent.message vouched

theorem sound_mono (names : ∀ n, P n → P' n) (published : ∀ n m, V n m → V' n m)
    (sends : ∀ m, Q m → Q' m) (sound : Sound σ P V Q net) : Sound σ P' V' Q' net where
  sessions := fun s there => ⟨names s.name (sound.sessions s there).1,(sound.sessions s there).2⟩
  inFlight := fun sent there => vouched_mono published sends (sound.inFlight sent there)

theorem read_mono (names : ∀ n, P n → P' n) (published : ∀ n m, V n m → V' n m)
    (sends : ∀ m, Q m → Q' m) (read : Read σ P V Q net) : Read σ P' V' Q' net := by
  intro d there
  obtain ⟨reader,vouched,granted⟩ := read d there
  exact ⟨names d.1 reader,vouched_mono published sends vouched,granted⟩

theorem step_sound {e : Event N M F R D C} (sound : Sound σ P V Q net)
    (warranted : Warranted σ P V Q net e) : Sound σ P V Q (step σ net e) := by
  cases e with
  | call c => exact ⟨sound.sessions,sound.inFlight⟩
  | ingest j draw => exact ⟨sound.sessions,sound.inFlight⟩
  | request r =>
    refine ⟨sound.sessions,?_⟩
    intro sent there
    rcases List.mem_append.mp there with old | new
    · exact sound.inFlight sent old
    · obtain ⟨m,listed,eq⟩ := List.mem_map.mp new
      rw [← eq]
      exact warranted m listed
  | connect name =>
    simp only [step, carry]
    split
    · rename_i admitted
      refine ⟨?_,sound.inFlight⟩
      intro s there
      rcases List.mem_append.mp there with old | new
      · exact sound.sessions s old
      · rw [List.mem_singleton] at new
        rw [new]
        exact ⟨warranted admitted,fun _ none => nomatch none⟩
    · exact ⟨sound.sessions,sound.inFlight⟩
  | disconnect i =>
    exact ⟨fun s there => sound.sessions s (List.mem_of_mem_eraseIdx there),sound.inFlight⟩
  | publish i message =>
    simp only [step, carry]
    split
    · exact ⟨sound.sessions,sound.inFlight⟩
    · rename_i s found
      split
      · rename_i permitted
        refine ⟨sound.sessions,?_⟩
        intro sent there
        rcases List.mem_append.mp there with old | new
        · exact sound.inFlight sent old
        · rw [List.mem_singleton] at new
          rw [new]
          exact warranted s found (sound.sessions s (List.mem_of_getElem? found)).1 permitted
      · exact ⟨sound.sessions,sound.inFlight⟩
  | subscribe i filters =>
    simp only [step, carry]
    split
    · exact ⟨sound.sessions,sound.inFlight⟩
    · rename_i s found
      split
      · rename_i granted
        refine ⟨?_,sound.inFlight⟩
        intro r there
        rcases List.mem_or_eq_of_mem_set there with old | new
        · exact sound.sessions r old
        · obtain ⟨named,earlier⟩ := sound.sessions s (List.mem_of_getElem? found)
          rw [new]
          refine ⟨named,fun f listed => ?_⟩
          rcases List.mem_append.mp listed with before | now
          · exact earlier f before
          · exact ⟨filters,granted,now⟩
      · exact ⟨sound.sessions,sound.inFlight⟩
  | forward j i =>
    simp only [step, carry]
    split
    · split
      · exact ⟨sound.sessions,sound.inFlight⟩
      · exact ⟨sound.sessions,sound.inFlight⟩
    · exact ⟨sound.sessions,sound.inFlight⟩
  | lose j =>
    exact ⟨sound.sessions,fun sent there => sound.inFlight sent (List.mem_of_mem_eraseIdx there)⟩

theorem step_read {e : Event N M F R D C} (sound : Sound σ P V Q net) (read : Read σ P V Q net) :
    Read σ P V Q (step σ net e) := by
  cases e with
  | forward j i =>
    simp only [step, carry]
    split
    · rename_i sent s flying found
      split
      · rename_i covered
        intro d there
        rcases List.mem_append.mp there with old | new
        · exact read d old
        · rw [List.mem_singleton] at new
          rw [new]
          obtain ⟨named,granted⟩ := sound.sessions s (List.mem_of_getElem? found)
          obtain ⟨f,listed,hit⟩ := List.any_eq_true.mp covered
          obtain ⟨fs,ok,member⟩ := granted f listed
          exact ⟨named,sound.inFlight sent (List.mem_of_getElem? flying),fs,ok,f,member,hit⟩
      · exact read
    · exact read
  | connect name =>
    simp only [step, carry]
    split <;> exact read
  | publish i message =>
    simp only [step, carry]
    split
    · exact read
    · split <;> exact read
  | subscribe i filters =>
    simp only [step, carry]
    split
    · exact read
    · split <;> exact read
  | _ => exact read

/-! Where a name and a message come from. -/

def Admitted (σ : Service S N M F R D C) (net : Net S N M F)
    (es : List (Event N M F R D C)) (name : N) : Prop :=
  ∃ pre post, es = pre ++ .connect name :: post ∧
    σ.admits (run (step σ) net pre).state name = true

def Published (σ : Service S N M F R D C) (net : Net S N M F)
    (es : List (Event N M F R D C)) (n : N) (m : M) : Prop :=
  ∃ pre i s post, es = pre ++ .publish i m :: post ∧
    (run (step σ) net pre).sessions[i]? = some s ∧ s.name = n ∧ σ.permits n m = true ∧
    Admitted σ net pre n

def Requested (σ : Service S N M F R D C) (net : Net S N M F)
    (es : List (Event N M F R D C)) (m : M) : Prop :=
  ∃ pre r post, es = pre ++ .request r :: post ∧
    m ∈ σ.sends (run (step σ) net pre).state r

theorem admitted_later {es : List (Event N M F R D C)} {n : N} (fs : List (Event N M F R D C))
    (admitted : Admitted σ net es n) :
    Admitted σ net (es ++ fs) n := by
  obtain ⟨pre,post,split,ok⟩ := admitted
  exact ⟨pre,post ++ fs,by rw [split]; simp,ok⟩

theorem published_later {es : List (Event N M F R D C)} {n : N} {m : M}
    (fs : List (Event N M F R D C)) (published : Published σ net es n m) : Published σ net (es ++ fs) n m := by
  obtain ⟨pre,i,s,post,split,rest⟩ := published
  exact ⟨pre,i,s,post ++ fs,by rw [split]; simp,rest⟩

theorem requested_later {es : List (Event N M F R D C)} {m : M}
    (fs : List (Event N M F R D C)) (requested : Requested σ net es m) : Requested σ net (es ++ fs) m := by
  obtain ⟨pre,r,post,split,listed⟩ := requested
  exact ⟨pre,r,post ++ fs,by rw [split]; simp,listed⟩

/-- In a run from a start without sessions and messages, everything in flight
    or delivered was published in a session that had been admitted, or answers a
    request. -/
theorem run_origins (s : S) (es : List (Event N M F R D C)) :
    Sound σ (Admitted σ {state := s} es) (Published σ {state := s} es)
        (Requested σ {state := s} es) (run (step σ) {state := s} es) ∧
      Read σ (Admitted σ {state := s} es) (Published σ {state := s} es)
        (Requested σ {state := s} es) (run (step σ) {state := s} es) := by
  induction es using List.reverseRecOn with
  | nil => exact ⟨sound_start σ,read_start σ⟩
  | append_singleton es e ih =>
    have sound := sound_mono (fun _ => admitted_later [e]) (fun _ _ => published_later [e])
      (fun _ => requested_later [e]) ih.1
    have read := read_mono (fun _ => admitted_later [e]) (fun _ _ => published_later [e])
      (fun _ => requested_later [e]) ih.2
    rw [run_append]
    refine ⟨step_sound sound ?_,step_read sound read⟩
    cases e with
    | connect name => exact fun ok => ⟨es,[],rfl,ok⟩
    | publish i m =>
      intro session found named permitted
      exact ⟨es,i,session,[],rfl,found,rfl,permitted,
        (ih.1.sessions session (List.mem_of_getElem? found)).1⟩
    | request r => exact fun m listed => ⟨es,r,[],rfl,listed⟩
    | _ => trivial

end
end Delivery
