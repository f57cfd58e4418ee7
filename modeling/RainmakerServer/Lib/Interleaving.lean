import RainmakerServer.Lib.Runs
import Mathlib.Logic.Function.Basic

/-!
Calls that read a shared state once and commit later, interleaved arbitrarily.
Nothing protects the span between the two steps. A commit is isolated when
reading again would still return what the call holds; a run of isolated
commits is a run of atomic calls, so no finished call loses its effect.
-/
namespace Interleaving
open Runs
variable {ι S L : Type} [DecidableEq ι]

structure Call (S L : Type) where
  read : S → L
  commit : L → S → S

def Call.atomic (c : Call S L) (s : S) : S := c.commit (c.read s) s

inductive Phase (L : Type) where
  | waiting
  | holding (seen : L)
  | finished

structure Config (ι S L : Type) where
  shared : S
  phase : ι → Phase L

inductive Action (ι : Type) where
  | read (i : ι)
  | commit (i : ι)

def Config.start (s : S) : Config ι S L := ⟨s,fun _ => .waiting⟩

def act (calls : ι → Call S L) (c : Config ι S L) : Action ι → Config ι S L
  | .read i => match c.phase i with
    | .waiting => ⟨c.shared,Function.update c.phase i (.holding ((calls i).read c.shared))⟩
    | _ => c
  | .commit i => match c.phase i with
    | .holding seen => ⟨(calls i).commit seen c.shared,Function.update c.phase i .finished⟩
    | _ => c

def Isolated (calls : ι → Call S L) (c : Config ι S L) : Action ι → Prop
  | .read _ => True
  | .commit i => ∀ seen, c.phase i = .holding seen → (calls i).read c.shared = seen

def Meets (P : ι → S → Prop) (c : Config ι S L) : Action ι → Prop
  | .read _ => True
  | .commit i => ∀ seen, c.phase i = .holding seen → P i c.shared

/-- One isolated action either leaves the shared state and the finished calls
    as they are, or executes one unfinished call atomically and finishes it. -/
theorem isolated_act (calls : ι → Call S L) (P : ι → S → Prop) (c : Config ι S L) (a : Action ι)
    (isolated : Isolated calls c a) (meets : Meets P c a) :
    ((act calls c a).shared = c.shared ∧
        ∀ j, (act calls c a).phase j = .finished → c.phase j = .finished) ∨
      ∃ i, P i c.shared ∧ (act calls c a).shared = (calls i).atomic c.shared ∧
        ∀ j, (act calls c a).phase j = .finished → j = i ∨ c.phase j = .finished := by
  cases a with
  | read i =>
    left
    simp only [act]
    split
    · refine ⟨rfl,?_⟩
      intro j done
      by_cases same : j = i
      · subst j
        simp at done
      · simpa [same] using done
    · exact ⟨rfl,fun j done => done⟩
  | commit i =>
    simp only [act]
    split
    · rename_i seen held
      right
      refine ⟨i,meets seen held,?_,?_⟩
      · simp only [Call.atomic]
        rw [isolated seen held]
      · intro j done
        by_cases same : j = i
        · exact Or.inl same
        · right
          simpa [same] using done
    · exact Or.inl ⟨rfl,fun j done => done⟩

/-- `effect i` is what call `i` is for. When running a call atomically in a state
    that meets `P` establishes its own effect and keeps every other one, all effects
    of finished calls are still there at the end of an isolated run. -/
theorem isolated_keeps_effects (calls : ι → Call S L) (P : ι → S → Prop) (J : S → Prop)
    (effect : ι → S → Prop) (invariant : ∀ i s, J s → J ((calls i).atomic s))
    (establish : ∀ i s, J s → P i s → effect i ((calls i).atomic s))
    (preserve : ∀ i j s, J s → j ≠ i → effect j s → effect j ((calls i).atomic s))
    {s : S} (start : J s) {acts : List (Action ι)}
    (isolated : Along (act calls) (Isolated calls) (Config.start s) acts)
    (meets : Along (act calls) (Meets P) (Config.start s) acts) :
    ∀ i, (run (act calls) (Config.start s) acts).phase i = .finished →
      effect i (run (act calls) (Config.start s) acts).shared := by
  let I : Config ι S L → Prop := fun c => J c.shared ∧
    ∀ i, c.phase i = .finished → effect i c.shared
  have initial : I (Config.start s) := by
    refine ⟨start,?_⟩
    intro i done
    simp [Config.start] at done
  have step : ∀ c a, I c → Isolated calls c a ∧ Meets P c a → I (act calls c a) := by
    intro c a inv conditions
    rcases isolated_act calls P c a conditions.1 conditions.2 with
      ⟨shared,done⟩ | ⟨i,met,shared,done⟩
    · refine ⟨by rw [shared]; exact inv.1,?_⟩
      intro j hj
      rw [shared]
      exact inv.2 j (done j hj)
    · refine ⟨by rw [shared]; exact invariant i _ inv.1,?_⟩
      intro j hj
      rw [shared]
      by_cases same : j = i
      · rw [same]
        exact establish i _ inv.1 met
      · rcases done j hj with eq | earlier
        · exact absurd eq same
        · exact preserve i j _ inv.1 same (inv.2 j earlier)
  exact (run_invariant (act calls) step initial (along_and (act calls) isolated meets)).2

end Interleaving
