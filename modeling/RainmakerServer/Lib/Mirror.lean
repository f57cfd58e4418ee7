import RainmakerServer.Lib.Runs

/-!
A source and its mirror. After each change the source says what its whole state
is now; what it has said is read into the mirror in any order, again and again
or never. What the source hears, and what else happens, may depend on the
mirror's side. If the newest word is read last, the mirror follows the source.
-/
namespace Mirror
open Runs

structure Pattern (S M R I D C : Type) where
  say : S → M
  hear : R → S → I → S × Bool
  read : R → M → D → R
  other : R → C → R
  honest : ∀ r s i, (hear r s i).2 = false → say (hear r s i).1 = say s

inductive Event (I D C : Type) where
  | hear (i : I)
  | read (j : Nat) (d : D)
  | other (c : C)

structure Pair (S M R : Type) where
  source : S
  said : List M
  mirror : R

section
variable {S M R I D C : Type} (π : Pattern S M R I D C)

def step (p : Pair S M R) : Event I D C → Pair S M R
  | .hear i =>
    let heard := π.hear p.mirror p.source i
    {p with
      source := heard.1
      said := if heard.2 then p.said ++ [π.say heard.1] else p.said}
  | .read j d => match p.said[j]? with
    | none => p
    | some m => {p with mirror := π.read p.mirror m d}
  | .other c => {p with mirror := π.other p.mirror c}

def Current (p : Pair S M R) : Prop := p.said.getLast? = some (π.say p.source)

variable {π}
variable {p : Pair S M R} {es : List (Event I D C)}

theorem newest_word {j : Nat} (current : Current π p) (newest : j + 1 = p.said.length) :
    p.said[j]? = some (π.say p.source) := by
  unfold Current at current
  rw [List.getLast?_eq_getElem?] at current
  have last : p.said.length - 1 = j := by omega
  rw [← last]
  exact current

theorem said_held {m : M} (said : m ∈ (run (step π) p es).said) :
    m ∈ p.said ∨ ∃ pre post, es = pre ++ post ∧ m = π.say (run (step π) p pre).source := by
  induction es using List.reverseRecOn with
  | nil => exact Or.inl said
  | append_singleton es e ih =>
    have earlier : m ∈ (run (step π) p es).said →
        m ∈ p.said ∨ ∃ pre post, es ++ [e] = pre ++ post ∧
          m = π.say (run (step π) p pre).source := by
      intro old
      rcases ih old with start | ⟨pre,post,split,held⟩
      · exact Or.inl start
      · exact Or.inr ⟨pre,post ++ [e],by rw [split,List.append_assoc],held⟩
    rw [run_append] at said
    cases e with
    | hear i =>
      simp only [run, step] at said
      split at said
      · rcases List.mem_append.mp said with old | new
        · exact earlier old
        · refine Or.inr ⟨es ++ [.hear i],[],by simp,?_⟩
          rw [run_append]
          exact List.mem_singleton.mp new
      · exact earlier said
    | read j d =>
      simp only [run, step] at said
      split at said
      · exact earlier said
      · exact earlier said
    | other c => exact earlier said

end
end Mirror
