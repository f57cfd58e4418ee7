import RainmakerServer.Lib.Runs

/-!
Tickets with a deadline. A call opens a ticket for a limited time; whoever holds
one later in a run got it from such a call, and if it is still valid that call
is not further back than the time the ticket was opened for.
-/
namespace Tickets
open Runs
variable {S C T : Type} (step : S → C → S) {holds : S → T → Prop} {opens : S → C → T → Prop}

theorem opened_in_run (origin : ∀ s c t, holds (step s c) t → holds s t ∨ opens s c t)
    {s : S} {cs : List C} {t : T} (before : ¬ holds s t) (held : holds (run step s cs) t) :
    ∃ pre c post, cs = pre ++ c :: post ∧ opens (run step s pre) c t := by
  obtain ⟨pre,c,post,split,absent,present⟩ := run_origin step (Q := fun s => holds s t) before held
  rcases origin _ _ _ present with earlier | opened
  · exact absurd earlier absent
  · exact ⟨pre,c,post,split,opened⟩

theorem opened_in_time (clock : S → Int) (deadline : T → Int) (lifetime : C → Int)
    (origin : ∀ s c t, holds (step s c) t → holds s t ∨ opens s c t)
    (limited : ∀ s c t, opens s c t → deadline t ≤ clock s + lifetime c)
    {s : S} {cs : List C} {t : T} (before : ¬ holds s t) (held : holds (run step s cs) t)
    (valid : clock (run step s cs) ≤ deadline t) :
    ∃ pre c post, cs = pre ++ c :: post ∧ opens (run step s pre) c t ∧
      clock (run step s cs) ≤ clock (run step s pre) + lifetime c := by
  obtain ⟨pre,c,post,split,opened⟩ := opened_in_run step origin before held
  exact ⟨pre,c,post,split,opened,Int.le_trans valid (limited _ _ _ opened)⟩

end Tickets
