import Mathlib.Data.List.Induction

/-!
Runs of a deterministic system: a list of labels executed one after another.
Everything a step draws from outside (random values, the passing of time) is
part of its label, so a theorem over all lists of labels covers all runs.
-/
namespace Runs
variable {S C : Type} (step : S → C → S)

def run : S → List C → S
  | s, [] => s
  | s, c :: cs => run (step s c) cs

def Along (P : S → C → Prop) : S → List C → Prop
  | _, [] => True
  | s, c :: cs => P s c ∧ Along P (step s c) cs

instance decidableAlong (P : S → C → Prop) [∀ s c, Decidable (P s c)] :
    ∀ s cs, Decidable (Along step P s cs)
  | _, [] => isTrue trivial
  | s, c :: cs => @instDecidableAnd _ _ _ (decidableAlong P (step s c) cs)

def Occurred (P : S → C → Prop) : S → List C → Prop
  | _, [] => False
  | s, c :: cs => P s c ∨ Occurred P (step s c) cs

instance decidableOccurred (P : S → C → Prop) [∀ s c, Decidable (P s c)] :
    ∀ s cs, Decidable (Occurred step P s cs)
  | _, [] => isFalse id
  | s, c :: cs => @instDecidableOr _ _ _ (decidableOccurred P (step s c) cs)

theorem run_append (s : S) (cs ds : List C) :
    run step s (cs ++ ds) = run step (run step s cs) ds := by
  induction cs generalizing s with
  | nil => rfl
  | cons c cs ih => exact ih (step s c)

theorem along_append {P : S → C → Prop} {s : S} {cs ds : List C} :
    Along step P s (cs ++ ds) ↔ Along step P s cs ∧ Along step P (run step s cs) ds := by
  induction cs generalizing s with
  | nil => simp [Along, run]
  | cons c cs ih =>
    simp only [List.cons_append, Along, run]
    rw [ih]
    exact and_assoc.symm

theorem occurred_append {P : S → C → Prop} {s : S} {cs ds : List C} :
    Occurred step P s (cs ++ ds) ↔ Occurred step P s cs ∨ Occurred step P (run step s cs) ds := by
  induction cs generalizing s with
  | nil => simp [Occurred, run]
  | cons c cs ih =>
    simp only [List.cons_append, Occurred, run]
    rw [ih]
    exact or_assoc.symm

def gather {B : Type} (yield : S → C → List B) : S → List C → List B
  | _, [] => []
  | s, c :: cs => yield s c ++ gather yield (step s c) cs

theorem gather_append {B : Type} {yield : S → C → List B} (s : S) (cs ds : List C) :
    gather step yield s (cs ++ ds) =
      gather step yield s cs ++ gather step yield (run step s cs) ds := by
  induction cs generalizing s with
  | nil => rfl
  | cons c cs ih =>
    simp only [List.cons_append, gather, run]
    rw [ih,List.append_assoc]

theorem mem_gather {B : Type} {yield : S → C → List B} {s : S} {cs : List C} {b : B} :
    b ∈ gather step yield s cs ↔
      ∃ pre c post, cs = pre ++ c :: post ∧ b ∈ yield (run step s pre) c := by
  induction cs generalizing s with
  | nil =>
    constructor
    · intro member
      cases member
    · rintro ⟨pre,c,post,split,-⟩
      cases pre <;> cases split
  | cons c cs ih =>
    rw [gather,List.mem_append,ih]
    constructor
    · rintro (here | ⟨pre,d,post,split,later⟩)
      · exact ⟨[],c,cs,rfl,here⟩
      · exact ⟨c :: pre,d,post,by rw [split]; rfl,later⟩
    · rintro ⟨pre,d,post,split,member⟩
      cases pre with
      | nil =>
        cases split
        exact Or.inl member
      | cons a pre =>
        cases split
        exact Or.inr ⟨pre,d,post,rfl,member⟩

def Since (Q P : S → C → Prop) (s : S) (cs : List C) : Prop :=
  ∃ pre c post, cs = pre ++ c :: post ∧ Q (run step s pre) c ∧
    ¬ Occurred step P (step (run step s pre) c) post

theorem since_nil {Q P : S → C → Prop} {s : S} : ¬ Since step Q P s [] := by
  intro since
  obtain ⟨pre,c,post,split,-⟩ := since
  cases pre <;> cases split

theorem since_occurred {Q P : S → C → Prop} {s : S} {cs : List C} (since : Since step Q P s cs) :
    Occurred step Q s cs := by
  obtain ⟨pre,c,post,split,held,-⟩ := since
  rw [split,occurred_append]
  exact Or.inr (Or.inl held)

theorem since_snoc {Q P : S → C → Prop} {s : S} {cs : List C} {c : C} :
    Since step Q P s (cs ++ [c]) ↔
      Q (run step s cs) c ∨ Since step Q P s cs ∧ ¬ P (run step s cs) c := by
  constructor
  · intro since
    obtain ⟨pre,d,post,split,held,quiet⟩ := since
    induction post using List.reverseRecOn with
    | nil =>
      obtain ⟨same,last⟩ := List.append_inj' split rfl
      cases last
      rw [same]
      exact Or.inl held
    | append_singleton post e _ =>
      have regrouped : cs ++ [c] = (pre ++ d :: post) ++ [e] := by
        rw [split]
        simp
      obtain ⟨same,last⟩ := List.append_inj' regrouped rfl
      cases last
      rw [occurred_append,not_or] at quiet
      right
      refine ⟨⟨pre,d,post,same,held,quiet.1⟩,?_⟩
      intro ended
      apply quiet.2
      rw [same,run_append] at ended
      exact Or.inl ended
  · intro either
    rcases either with now | ⟨⟨pre,d,post,split,held,quiet⟩,still⟩
    · exact ⟨cs,c,[],rfl,now,id⟩
    · refine ⟨pre,d,post ++ [c],by rw [split]; simp,held,?_⟩
      rw [occurred_append,not_or]
      refine ⟨quiet,?_⟩
      intro ended
      apply still
      rw [split,run_append]
      exact ended.resolve_right id

theorem along_of_forall {P : C → Prop} {s : S} {cs : List C} (all : ∀ c ∈ cs, P c) :
    Along step (fun _ c => P c) s cs := by
  induction cs generalizing s with
  | nil => trivial
  | cons c cs ih =>
    exact ⟨all c (by simp),ih fun d member => all d (by simp [member])⟩

theorem along_mono {P Q : S → C → Prop} (weaker : ∀ s c, P s c → Q s c) {s : S} {cs : List C}
    (along : Along step P s cs) : Along step Q s cs := by
  induction cs generalizing s with
  | nil => trivial
  | cons c cs ih => exact ⟨weaker s c along.1,ih along.2⟩

theorem along_and {P Q : S → C → Prop} {s : S} {cs : List C}
    (left : Along step P s cs) (right : Along step Q s cs) :
    Along step (fun s c => P s c ∧ Q s c) s cs := by
  induction cs generalizing s with
  | nil => trivial
  | cons c cs ih => exact ⟨⟨left.1,right.1⟩,ih left.2 right.2⟩

theorem run_invariant {I : S → Prop} {P : S → C → Prop}
    (keep : ∀ s c, I s → P s c → I (step s c)) {s : S} {cs : List C}
    (start : I s) (along : Along step P s cs) : I (run step s cs) := by
  induction cs generalizing s with
  | nil => exact start
  | cons c cs ih => exact ih (keep s c start along.1) along.2

theorem run_preserves {I : S → Prop} (keep : ∀ s c, I s → I (step s c)) {s : S} (cs : List C)
    (start : I s) : I (run step s cs) :=
  run_invariant step (P := fun _ _ => True) (fun s c h _ => keep s c h) start
    (along_of_forall step fun _ _ => trivial)

/-- A quantity that every marked label lowers by one, down to zero, and no other
    label moves. -/
theorem run_countdown {I : S → Prop} {P : S → C → Prop} (quantity : S → Nat) (marked : C → Bool)
    (keep : ∀ s c, I s → P s c → I (step s c))
    (lower : ∀ s c, I s → P s c → marked c = true → quantity (step s c) = quantity s - 1)
    (idle : ∀ s c, I s → P s c → marked c = false → quantity (step s c) = quantity s)
    {s : S} {cs : List C} (start : I s) (along : Along step P s cs) :
    quantity (run step s cs) = quantity s - cs.countP marked := by
  induction cs generalizing s with
  | nil => rfl
  | cons c cs ih =>
    have rest := ih (keep s c start along.1) along.2
    rw [run,rest]
    by_cases mark : marked c = true
    · rw [lower s c start along.1 mark,List.countP_cons_of_pos mark]
      omega
    · rw [idle s c start along.1 (by simpa using mark),List.countP_cons_of_neg mark]

theorem run_history {I : List C → S → Prop} {P : S → C → Prop} {s : S} (start : I [] s)
    (keep : ∀ cs c, I cs (run step s cs) → P (run step s cs) c →
      I (cs ++ [c]) (step (run step s cs) c))
    {cs : List C} (along : Along step P s cs) : I cs (run step s cs) := by
  induction cs using List.reverseRecOn with
  | nil => exact start
  | append_singleton cs c ih =>
    obtain ⟨earlier,last⟩ := (along_append step).mp along
    rw [run_append]
    exact keep cs c (ih earlier) last.1

theorem run_keeps_or_ends {I G : S → Prop} (keep : ∀ s c, I s → I (step s c) ∨ G (step s c))
    {s : S} (cs : List C) (start : I s) :
    I (run step s cs) ∨ ∃ pre post, cs = pre ++ post ∧ G (run step s pre) := by
  induction cs generalizing s with
  | nil => exact Or.inl start
  | cons c cs ih =>
    rcases keep s c start with kept | ended
    · rcases ih kept with last | ⟨pre,post,split,ended⟩
      · exact Or.inl last
      · exact Or.inr ⟨c :: pre,post,by rw [split]; rfl,ended⟩
    · exact Or.inr ⟨[c],cs,rfl,ended⟩

/-- A fact that does not hold at the start and holds at the end becomes true
    at one identifiable step of the run. -/
theorem run_origin {Q : S → Prop} {s : S} {cs : List C} (before : ¬ Q s)
    (after : Q (run step s cs)) : ∃ pre c post, cs = pre ++ c :: post ∧
      ¬ Q (run step s pre) ∧ Q (step (run step s pre) c) := by
  induction cs generalizing s with
  | nil => exact absurd after before
  | cons c cs ih =>
    by_cases now : Q (step s c)
    · exact ⟨[],c,cs,rfl,before,now⟩
    · obtain ⟨pre,d,post,split,early,late⟩ := ih now after
      exact ⟨c :: pre,d,post,by rw [split]; rfl,early,late⟩

end Runs
