import RainmakerServer.Lib.Runs

/-!
Noninterference by unwinding. One party's labels are told apart by `mine`; the
labels of the others may come in any number and any order. When they leave what
the party sees as it is, and the party's own labels answer and act by what it
sees alone, two runs with the same labels of the party give it the same answers.
-/
namespace Unwinding
open Runs
variable {S C O : Type} (step : S → C → S) (out : S → C → O) (mine : C → Bool)

def answers (s : S) (cs : List C) : List O :=
  gather step (fun s c => if mine c then [out s c] else []) s cs

structure Unwinds (I : S → Prop) (P : S → C → Prop) (Agree : S → S → Prop) : Prop where
  symm : ∀ s t, Agree s t → Agree t s
  keeps : ∀ s c, I s → I (step s c)
  apart : ∀ s t c, mine c = false → I s → Agree s t → Agree (step s c) t
  answer : ∀ s t c, mine c = true → I s → I t → P s c → P t c → Agree s t → out s c = out t c
  follow : ∀ s t c, mine c = true → I s → I t → P s c → P t c → Agree s t →
    Agree (step s c) (step t c)

variable {step out mine} {I : S → Prop} {P : S → C → Prop} {Agree : S → S → Prop}

theorem foreign_run (unwinds : Unwinds step out mine I P Agree) {s t : S} {cs : List C}
    (foreign : ∀ c ∈ cs, mine c = false) (inv : I s) (agree : Agree s t) :
    answers step out mine s cs = [] ∧ I (run step s cs) ∧ Agree (run step s cs) t := by
  induction cs generalizing s with
  | nil => exact ⟨rfl,inv,agree⟩
  | cons c cs ih =>
    have other : mine c = false := foreign c (by simp)
    have rest := ih (fun d member => foreign d (by simp [member])) (unwinds.keeps s c inv)
      (unwinds.apart s t c other inv agree)
    refine ⟨?_,rest.2⟩
    show (if mine c then [out s c] else []) ++ answers step out mine (step s c) cs = []
    rw [other,rest.1]
    rfl

theorem answers_append (s : S) (cs ds : List C) :
    answers step out mine s (cs ++ ds) =
      answers step out mine s cs ++ answers step out mine (run step s cs) ds := by
  induction cs generalizing s with
  | nil => rfl
  | cons c cs ih =>
    have later := ih (step s c)
    unfold answers at later ⊢
    simp only [List.cons_append, gather, later, List.append_assoc, run]

theorem same_answers (unwinds : Unwinds step out mine I P Agree) {s t : S} {cs ds : List C}
    (same : cs.filter mine = ds.filter mine) (left : I s) (right : I t) (agree : Agree s t)
    (first : Along step P s cs) (second : Along step P t ds) :
    answers step out mine s cs = answers step out mine t ds := by
  induction cs generalizing s t ds with
  | nil =>
    have foreign : ∀ d ∈ ds, mine d = false := by
      intro d member
      by_contra own
      have kept : d ∈ ds.filter mine := List.mem_filter.mpr ⟨member,by simpa using own⟩
      rw [← same] at kept
      cases kept
    exact (foreign_run unwinds foreign right (unwinds.symm s t agree)).1.symm
  | cons c cs ih =>
    cases own : mine c with
    | false =>
      rw [List.filter_cons_of_neg (by simp [own])] at same
      have rest := ih same (unwinds.keeps s c left) right (unwinds.apart s t c own left agree)
        first.2 second
      rw [← rest]
      show (if mine c then [out s c] else []) ++ answers step out mine (step s c) cs = _
      rw [own]
      rfl
    | true =>
      rw [List.filter_cons_of_pos own] at same
      -- the other run reaches the same label after labels of others only
      obtain ⟨pre,post,split,foreign,-,rest⟩ := List.filter_eq_cons_iff.mp same.symm
      have others : ∀ d ∈ pre, mine d = false := by
        intro d member
        simpa using foreign d member
      obtain ⟨silent,there,agrees⟩ :=
        foreign_run unwinds others right (unwinds.symm s t agree)
      rw [split] at second
      obtain ⟨-,here⟩ := (along_append step).mp second
      have back := unwinds.symm _ _ agrees
      have answer := unwinds.answer s _ c own left there first.1 here.1 back
      have tail := ih rest.symm (unwinds.keeps s c left) (unwinds.keeps _ c there)
        (unwinds.follow s _ c own left there first.1 here.1 back) first.2 here.2
      rw [split,answers_append,silent,List.nil_append]
      show (if mine c then [out s c] else []) ++ answers step out mine (step s c) cs =
        (if mine c then [out (run step t pre) c] else []) ++
          answers step out mine (step (run step t pre) c) post
      rw [own,answer,tail]

end Unwinding
