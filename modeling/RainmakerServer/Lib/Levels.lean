import Mathlib.Data.List.Forall2

/-!
Hierarchical names and filters over them. A name is split at a separator into
levels; a filter is a list of levels in which `single` stands for any one level
and a last `multi` for any number of further levels, none included.
-/
namespace Levels

section Split
variable {α : Type} {sep : α}

theorem mem_join {ls : List (List α)} {c : α} (member : c ∈ [sep].intercalate ls) :
    c = sep ∨ ∃ l ∈ ls, c ∈ l := by
  induction ls with
  | nil => cases member
  | cons l ls ih =>
    cases ls with
    | nil =>
      rw [List.intercalate_singleton] at member
      exact Or.inr ⟨l,by simp,member⟩
    | cons k ks =>
      rw [List.intercalate_cons_cons,List.mem_append,List.mem_append,List.mem_singleton] at member
      rcases member with (here | same) | later
      · exact Or.inr ⟨l,by simp,here⟩
      · exact Or.inl same
      · rcases ih later with same | ⟨m,found,inside⟩
        · exact Or.inl same
        · exact Or.inr ⟨m,List.mem_cons_of_mem _ found,inside⟩

theorem mem_join_of_mem {ls : List (List α)} {l : List α} {c : α} (level : l ∈ ls)
    (inside : c ∈ l) : c ∈ [sep].intercalate ls := by
  induction ls with
  | nil => cases level
  | cons k ks ih =>
    cases ks with
    | nil =>
      rw [List.mem_singleton] at level
      rw [List.intercalate_singleton,← level]
      exact inside
    | cons m ms =>
      rw [List.intercalate_cons_cons,List.mem_append,List.mem_append]
      rcases List.mem_cons.mp level with here | later
      · rw [← here]
        exact Or.inl (Or.inl inside)
      · exact Or.inr (ih later)

variable [DecidableEq α]

theorem split_injective {a b : List α} (same : a.splitOn sep = b.splitOn sep) : a = b := by
  have left : [sep].intercalate (a.splitOn sep) = a := List.intercalate_splitOn sep
  have right : [sep].intercalate (b.splitOn sep) = b := List.intercalate_splitOn sep
  rw [← left,same,right]

theorem mem_of_level {s l : List α} {c : α} (level : l ∈ s.splitOn sep) (inside : c ∈ l) :
    c ∈ s := by
  have joined : [sep].intercalate (s.splitOn sep) = s := List.intercalate_splitOn sep
  rw [← joined]
  exact mem_join_of_mem level inside

theorem sep_not_mem_level {s l : List α} (level : l ∈ s.splitOn sep) : sep ∉ l := by
  induction s generalizing l with
  | nil =>
    rw [List.splitOn_nil,List.mem_singleton] at level
    simp [level]
  | cons c cs ih =>
    rw [List.splitOn_cons_eq_if_modifyHead] at level
    split at level
    · rcases List.mem_cons.mp level with here | later
      · simp [here]
      · exact ih later
    · rename_i other
      cases rest : cs.splitOn sep with
      | nil => exact absurd rest (List.splitOn_ne_nil sep cs)
      | cons k ks =>
        rw [rest,List.modifyHead_cons] at level
        rcases List.mem_cons.mp level with here | later
        · have clean : sep ∉ k := ih (by rw [rest]; simp)
          have apart : sep ≠ c := by
            intro same
            simp [same] at other
          rw [here,List.mem_cons,not_or]
          exact ⟨apart,clean⟩
        · exact ih (by rw [rest]; exact List.mem_cons_of_mem _ later)

end Split

section Match
variable {L : Type} (single multi : L)

def Admits (f t : L) : Prop := f = single ∨ f = t

theorem admitted_eq {fs as : List L} (plain : single ∉ fs)
    (admitted : List.Forall₂ (Admits single) fs as) : as = fs := by
  induction admitted with
  | nil => rfl
  | cons admits rest ih =>
    rw [List.mem_cons,not_or] at plain
    rcases admits with wild | same
    · exact absurd wild.symm plain.1
    · rw [same,ih plain.2]

theorem admitted_mem {fs as : List L} {f : L} (level : f ∈ fs) (plain : f ≠ single)
    (admitted : List.Forall₂ (Admits single) fs as) : f ∈ as := by
  induction admitted with
  | nil => cases level
  | cons admits rest ih =>
    rcases List.mem_cons.mp level with here | later
    · rcases admits with wild | same
      · exact absurd (here.trans wild) plain
      · rw [here,same]
        exact List.mem_cons_self
    · exact List.mem_cons_of_mem _ (ih later)

variable [DecidableEq L]

def matchLevels : List L → List L → Bool
  | [], ts => ts.isEmpty
  | f :: fs, [] => decide (f = multi ∧ fs = [])
  | f :: fs, t :: ts => decide (f = multi ∧ fs = []) ||
      (decide (f = single ∨ f = t) && matchLevels fs ts)

theorem match_append_iff {fs gs ts : List L} (more : gs ≠ []) :
    matchLevels single multi (fs ++ gs) ts = true ↔ ∃ as bs, ts = as ++ bs ∧
      List.Forall₂ (Admits single) fs as ∧ matchLevels single multi gs bs = true := by
  induction fs generalizing ts with
  | nil =>
    constructor
    · intro matched
      exact ⟨[],ts,rfl,.nil,matched⟩
    · rintro ⟨as,bs,eq,front,back⟩
      cases front
      rw [eq]
      exact back
  | cons f fs ih =>
    have inner : ¬ (f = multi ∧ fs ++ gs = []) := by
      rintro ⟨-,none⟩
      exact more (List.append_eq_nil_iff.mp none).2
    rw [List.cons_append]
    cases ts with
    | nil =>
      constructor
      · intro matched
        exact absurd (of_decide_eq_true matched) inner
      · rintro ⟨as,bs,eq,front,back⟩
        cases front
        cases eq
    | cons t ts =>
      rw [matchLevels,decide_eq_false inner,Bool.false_or,Bool.and_eq_true,decide_eq_true_iff,ih]
      constructor
      · rintro ⟨admits,as,bs,eq,front,back⟩
        exact ⟨t :: as,bs,by rw [eq]; rfl,.cons admits front,back⟩
      · rintro ⟨as,bs,eq,front,back⟩
        cases front with
        | cons admits rest =>
          rw [List.cons_append,List.cons.injEq] at eq
          obtain ⟨same,eq⟩ := eq
          exact ⟨by rw [same]; exact admits,_,bs,eq,rest,back⟩

end Match

end Levels
