import Mathlib.Data.List.Infix

/-!
Splitting a sequence at a separator: the first cut, and splitting at most a
given number of times. The unbounded split is `List.splitOn`.
-/
namespace Split
variable {α : Type} [DecidableEq α]

def cut (sep : α) : List α → Option (List α × List α)
  | [] => none
  | c :: cs => if c = sep then some ([],cs) else (cut sep cs).map fun p => (c :: p.1,p.2)

def splitMax (sep : α) : Nat → List α → List (List α)
  | 0, s => [s]
  | n + 1, s => match cut sep s with
    | none => [s]
    | some (a,b) => a :: splitMax sep n b

theorem cut_none_iff {sep : α} {s : List α} : cut sep s = none ↔ sep ∉ s := by
  induction s with
  | nil => simp [cut]
  | cons c cs ih =>
    by_cases same : c = sep
    · simp [cut, same]
    · simp [cut, same, ih, Ne.symm same]

theorem cut_append {sep : α} {a b : List α} (clean : sep ∉ a) :
    cut sep (a ++ sep :: b) = some (a,b) := by
  induction a with
  | nil => simp [cut]
  | cons c cs ih =>
    simp only [List.mem_cons, not_or] at clean
    simp [cut, Ne.symm clean.1, ih clean.2]

theorem cut_some {sep : α} {s a b : List α} (h : cut sep s = some (a,b)) :
    s = a ++ sep :: b ∧ sep ∉ a := by
  induction s generalizing a with
  | nil => simp [cut] at h
  | cons c cs ih =>
    simp only [cut] at h
    split at h
    · rename_i same
      cases h
      exact ⟨by rw [same]; rfl,by simp⟩
    · rename_i other
      cases rest : cut sep cs with
      | none => simp [rest] at h
      | some p =>
        simp only [rest, Option.map_some, Option.some.injEq, Prod.mk.injEq] at h
        obtain ⟨first,second⟩ := h
        subst a; subst b
        obtain ⟨eq,clean⟩ := ih rest
        refine ⟨by rw [eq]; rfl,?_⟩
        simp [Ne.symm other, clean]

theorem cut_of_mem {sep : α} {s : List α} (member : sep ∈ s) :
    ∃ a b, cut sep s = some (a,b) := by
  cases h : cut sep s with
  | none => exact absurd member (cut_none_iff.mp h)
  | some p => exact ⟨p.1,p.2,rfl⟩

end Split
