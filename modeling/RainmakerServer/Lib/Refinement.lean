import RainmakerServer.Lib.Runs

/-!
Runs of a fine system read as runs of a coarse one over the same states. Each
event of the fine system changes nothing or is one call of the coarse system
that the event vouches for.
-/
namespace Refinement
open Runs
variable {S E C : Type} (fine : S → E → S) (coarse : S → C → S) (vouches : S → E → C → Prop)

inductive Reads : S → List E → List C → Prop where
  | nil {s : S} : Reads s [] []
  | idle {s : S} {e : E} {es : List E} {cs : List C} (same : fine s e = s)
      (rest : Reads s es cs) : Reads s (e :: es) cs
  | call {s : S} {e : E} {c : C} {es : List E} {cs : List C} (vouched : vouches s e c)
      (same : fine s e = coarse s c) (rest : Reads (coarse s c) es cs) :
      Reads s (e :: es) (c :: cs)

variable {fine coarse vouches}

theorem run_reads
    (each : ∀ s e, fine s e = s ∨ ∃ c, vouches s e c ∧ fine s e = coarse s c)
    (s : S) (es : List E) : ∃ cs, Reads fine coarse vouches s es cs := by
  induction es generalizing s with
  | nil => exact ⟨[],.nil⟩
  | cons e es ih =>
    rcases each s e with same | ⟨c,vouched,same⟩
    · obtain ⟨cs,rest⟩ := ih s
      exact ⟨cs,.idle same rest⟩
    · obtain ⟨cs,rest⟩ := ih (coarse s c)
      exact ⟨c :: cs,.call vouched same rest⟩

theorem reads_run {s : S} {es : List E} {cs : List C} (reads : Reads fine coarse vouches s es cs) :
    run fine s es = run coarse s cs := by
  induction reads with
  | nil => rfl
  | idle same rest ih =>
    rw [run,same]
    exact ih
  | call vouched same rest ih =>
    rw [run,same]
    exact ih

theorem reads_vouched {s : S} {es : List E} {cs : List C}
    (reads : Reads fine coarse vouches s es cs) {pre : List C} {c : C} {post : List C}
    (split : cs = pre ++ c :: post) : ∃ before e after, es = before ++ e :: after ∧
      run fine s before = run coarse s pre ∧ vouches (run coarse s pre) e c := by
  induction reads generalizing pre with
  | nil => cases pre <;> cases split
  | idle same rest ih =>
    obtain ⟨before,e,after,events,state,vouched⟩ := ih split
    refine ⟨_ :: before,e,after,by rw [events]; rfl,?_,vouched⟩
    rw [run,same]
    exact state
  | call vouched same rest ih =>
    cases pre with
    | nil =>
      cases split
      exact ⟨[],_,_,rfl,rfl,vouched⟩
    | cons d pre =>
      cases split
      obtain ⟨before,e,after,events,state,vouched⟩ := ih rfl
      refine ⟨_ :: before,e,after,by rw [events]; rfl,?_,vouched⟩
      rw [run,same]
      exact state

end Refinement
