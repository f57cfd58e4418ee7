import Mathlib.Data.List.Pairwise

/-!
Relational tables as lists of rows. A table carries the proof that no two of
its rows collide on the primary key or on a unique index, so a duplicate row
cannot be built, and that its columns hold every row; every operation below
returns a table again. A row is checked and adjusted to its columns when it is
inserted.
-/
namespace Tables

/-- What the database raises instead of storing, or the cardinality error of a
    query that must return at most one row. -/
inductive Fault where
  | integrityError
  | dataError
  | multipleResultsFound
  deriving DecidableEq, Repr

def scalarOneOrNone {α : Type} : List α → Except Fault (Option α)
  | [] => .ok none
  | [r] => .ok (some r)
  | _ => .error .multipleResultsFound

theorem scalar_none {α : Type} {rs : List α} (h : scalarOneOrNone rs = .ok none) : rs = [] := by
  unfold scalarOneOrNone at h
  split at h
  · rfl
  · cases h
  · cases h

theorem scalar_some {α : Type} {rs : List α} {r : α} (h : scalarOneOrNone rs = .ok (some r)) : rs = [r] := by
  unfold scalarOneOrNone at h
  split at h
  · cases h
  · cases h
    rfl
  · cases h

theorem scalar_several {α : Type} {rs : List α} {a b : α} (ha : a ∈ rs) (hb : b ∈ rs)
    (different : a ≠ b) : scalarOneOrNone rs = .error .multipleResultsFound := by
  match rs with
  | [] => cases ha
  | [r] =>
    rw [List.mem_singleton] at ha hb
    exact absurd (ha.trans hb.symm) different
  | _ :: _ :: _ => rfl

theorem scalar_many {α : Type} {rs : List α} (many : 1 < rs.length) :
    scalarOneOrNone rs = .error .multipleResultsFound := by
  match rs with
  | [] => simp at many
  | [r] => simp at many
  | _ :: _ :: _ => rfl

theorem filter_narrow {α : Type} {p q : α → Bool} {xs ys : List α}
    (same : xs.filter q = ys.filter q) (narrow : ∀ a, p a = true → q a = true) :
    xs.filter p = ys.filter p := by
  have both : ∀ zs : List α, zs.filter p = (zs.filter q).filter p := by
    intro zs
    rw [List.filter_filter]
    apply List.filter_congr
    intro a _
    cases hit : p a with
    | false => rfl
    | true => simp [narrow a hit]
  rw [both xs,both ys,same]

theorem find_narrow {α : Type} {p q : α → Bool} {xs ys : List α}
    (same : xs.filter q = ys.filter q) (narrow : ∀ a, p a = true → q a = true) :
    xs.find? p = ys.find? p := by
  rw [← List.head?_filter,← List.head?_filter,filter_narrow same narrow]

class Schema (α : Type) where
  conflict : α → α → Bool
  conflict_symm : ∀ a b, conflict a b = conflict b a
  fits : α → Bool
  stored : α → α
  holds : α → Bool
  stored_holds : ∀ r, fits r = true → holds (stored r) = true

variable {α : Type} [Schema α]

structure Table (α : Type) [Schema α] where
  rows : List α
  unique : rows.Pairwise fun a b => Schema.conflict a b = false
  held : ∀ r ∈ rows, Schema.holds r = true

namespace Table

def empty : Table α := ⟨[],List.Pairwise.nil,by simp⟩

def of (rows : List α) : Table α :=
  if valid : (rows.Pairwise fun a b => Schema.conflict a b = false) ∧
      ∀ r ∈ rows, Schema.holds r = true then ⟨rows,valid.1,valid.2⟩
  else empty

def one (r : α) : Table α := of [r]

instance : Membership α (Table α) := ⟨fun t a => a ∈ t.rows⟩

theorem mem_def {t : Table α} {a : α} : a ∈ t ↔ a ∈ t.rows := Iff.rfl

instance [DecidableEq α] (a : α) (t : Table α) : Decidable (a ∈ t) :=
  inferInstanceAs (Decidable (a ∈ t.rows))

def select (t : Table α) (p : α → Bool) : List α := t.rows.filter p

@[simp] theorem mem_select {t : Table α} {p : α → Bool} {a : α} :
    a ∈ t.select p ↔ a ∈ t ∧ p a = true := List.mem_filter

theorem holds_of_mem {t : Table α} {r : α} (member : r ∈ t) : Schema.holds r = true :=
  t.held r member

def insert (t : Table α) (r : α) : Except Fault (Table α) :=
  if narrow : Schema.fits r = false then .error .dataError
  else if free : ∀ a ∈ t.rows, Schema.conflict a (Schema.stored r) = false then
    .ok ⟨t.rows ++ [Schema.stored r],
      List.pairwise_append.mpr ⟨t.unique,List.pairwise_singleton _ _,by
        intro a ha b hb
        rw [List.mem_singleton.mp hb]
        exact free a ha⟩,by
      intro a member
      rcases List.mem_append.mp member with old | new
      · exact t.held a old
      · rw [List.mem_singleton.mp new]
        exact Schema.stored_holds r (by simpa using narrow)⟩
  else .error .integrityError

def insertAll (t : Table α) : List α → Except Fault (Table α)
  | [] => .ok t
  | r :: rs => match t.insert r with
    | .error e => .error e
    | .ok t' => insertAll t' rs

def update (t : Table α) (p : α → Bool) (f : α → α)
    (keep : ∀ a b : α, Schema.conflict (f a) b = Schema.conflict a b)
    (hold : ∀ a : α, Schema.holds a = true → Schema.holds (f a) = true) : Table α :=
  ⟨t.rows.map fun r => if p r then f r else r,by
    have left : ∀ a b : α, Schema.conflict (if p a then f a else a) b = Schema.conflict a b := by
      intro a b
      split
      · exact keep a b
      · rfl
    refine List.pairwise_map.mpr (t.unique.imp ?_)
    intro a b free
    rw [left,Schema.conflict_symm,left,Schema.conflict_symm]
    exact free,by
    intro a member
    obtain ⟨r,there,eq⟩ := List.mem_map.mp member
    subst eq
    split
    · exact hold r (t.held r there)
    · exact t.held r there⟩

def delete (t : Table α) (p : α → Bool) : Table α :=
  ⟨t.rows.filter fun r => !p r,t.unique.filter _,
    fun r member => t.held r (List.mem_filter.mp member).1⟩

theorem insert_ok {t t' : Table α} {r : α} (stored : t.insert r = .ok t') :
    t'.rows = t.rows ++ [Schema.stored r] ∧ Schema.fits r = true ∧
      ∀ a ∈ t, Schema.conflict a (Schema.stored r) = false := by
  unfold insert at stored
  split at stored
  · cases stored
  · rename_i wide
    split at stored
    · rename_i free
      cases stored
      exact ⟨rfl,by simpa using wide,free⟩
    · cases stored

theorem insert_succeeds {t : Table α} {r : α} (wide : Schema.fits r = true)
    (free : ∀ a ∈ t, Schema.conflict a (Schema.stored r) = false) :
    ∃ t', t.insert r = .ok t' := by
  have free' : ∀ a ∈ t.rows, Schema.conflict a (Schema.stored r) = false := free
  unfold insert
  rw [dif_neg (by simp [wide]),dif_pos free']
  exact ⟨_,rfl⟩

theorem mem_insert {t t' : Table α} {r a : α} (stored : t.insert r = .ok t') :
    a ∈ t' ↔ a ∈ t ∨ a = Schema.stored r := by
  rw [mem_def,(insert_ok stored).1,List.mem_append,List.mem_singleton]
  exact Iff.rfl

theorem mem_appendedAll {t t' : Table α} {rs : List α} {a : α}
    (appended : t'.rows = t.rows ++ rs) : a ∈ t' ↔ a ∈ t ∨ a ∈ rs := by
  rw [mem_def,appended,List.mem_append]
  exact Iff.rfl

theorem mem_appended {t t' : Table α} {r a : α} (appended : t'.rows = t.rows ++ [r]) :
    a ∈ t' ↔ a ∈ t ∨ a = r := by
  rw [mem_appendedAll appended,List.mem_singleton]

theorem insertAll_rows {rs : List α} {t t' : Table α} (stored : t.insertAll rs = .ok t') :
    t'.rows = t.rows ++ rs.map Schema.stored := by
  induction rs generalizing t with
  | nil =>
    cases stored
    simp
  | cons r rs ih =>
    simp only [insertAll] at stored
    split at stored
    · cases stored
    · rename_i first
      rw [ih stored,(insert_ok first).1,List.append_assoc,List.singleton_append,List.map_cons]

theorem mem_insertAll {rs : List α} {t t' : Table α} {a : α} (stored : t.insertAll rs = .ok t') :
    a ∈ t' ↔ a ∈ t ∨ a ∈ rs.map Schema.stored :=
  mem_appendedAll (insertAll_rows stored)

/-- One commit stores all of its rows exactly when the columns take them and they
    collide neither with what is stored nor with each other. -/
theorem insertAll_ok_iff {rs : List α} {t : Table α} :
    (∃ t', t.insertAll rs = .ok t') ↔ (∀ r ∈ rs, Schema.fits r = true) ∧
      (∀ a ∈ t, ∀ r ∈ rs, Schema.conflict a (Schema.stored r) = false) ∧
      rs.Pairwise fun a b => Schema.conflict (Schema.stored a) (Schema.stored b) = false := by
  induction rs generalizing t with
  | nil => simp [insertAll]
  | cons r rs ih =>
    constructor
    · intro stored
      simp only [insertAll] at stored
      split at stored
      · obtain ⟨_,failed⟩ := stored
        cases failed
      · rename_i t' first
        obtain ⟨wide,free,apart⟩ := ih.mp stored
        obtain ⟨-,fits,unused⟩ := insert_ok first
        refine ⟨List.forall_mem_cons.mpr ⟨fits,wide⟩,?_,List.pairwise_cons.mpr ⟨?_,apart⟩⟩
        · intro a member
          exact List.forall_mem_cons.mpr ⟨unused a member,
            free a ((mem_insert first).mpr (Or.inl member))⟩
        · exact free _ ((mem_insert first).mpr (Or.inr rfl))
    · rintro ⟨wide,free,apart⟩
      obtain ⟨fits,rest⟩ := List.forall_mem_cons.mp wide
      obtain ⟨first_apart,others⟩ := List.pairwise_cons.mp apart
      obtain ⟨t',first⟩ := insert_succeeds fits fun a member => free a member r (by simp)
      simp only [insertAll, first]
      refine ih.mpr ⟨rest,?_,others⟩
      intro a member q later
      rcases (mem_insert first).mp member with old | new
      · exact free a old q (by simp [later])
      · rw [new]
        exact first_apart q later

theorem insert_apart {t s : Table α} {base : List α} {r : α} (rows : t.rows = base ++ s.rows)
    (apart : ∀ a ∈ base, Schema.conflict a (Schema.stored r) = false) :
    (∃ t' s', t.insert r = .ok t' ∧ s.insert r = .ok s' ∧ t'.rows = base ++ s'.rows) ∨
      ∃ e, t.insert r = .error e ∧ s.insert r = .error e := by
  by_cases wide : Schema.fits r = false
  · right
    exact ⟨.dataError,by rw [insert,dif_pos wide],by rw [insert,dif_pos wide]⟩
  · have fits : Schema.fits r = true := by simpa using wide
    by_cases free : ∀ a ∈ s.rows, Schema.conflict a (Schema.stored r) = false
    · left
      have both : ∀ a ∈ t.rows, Schema.conflict a (Schema.stored r) = false := by
        intro a stored
        rw [rows,List.mem_append] at stored
        rcases stored with old | new
        · exact apart a old
        · exact free a new
      obtain ⟨t',first⟩ := insert_succeeds fits both
      obtain ⟨s',second⟩ := insert_succeeds fits free
      refine ⟨t',s',first,second,?_⟩
      rw [(insert_ok first).1,(insert_ok second).1,rows,List.append_assoc]
    · right
      have taken : ¬ ∀ a ∈ t.rows, Schema.conflict a (Schema.stored r) = false := by
        intro both
        apply free
        intro a stored
        exact both a (by rw [rows]; exact List.mem_append_right _ stored)
      exact ⟨.integrityError,by rw [insert,dif_neg wide,dif_neg taken],
        by rw [insert,dif_neg wide,dif_neg free]⟩

theorem insert_same {t s : Table α} {r : α} (left : ∀ a ∈ t, Schema.conflict a (Schema.stored r) = false)
    (right : ∀ a ∈ s, Schema.conflict a (Schema.stored r) = false) :
    (∃ t' s', t.insert r = .ok t' ∧ s.insert r = .ok s') ∨
      ∃ e, t.insert r = .error e ∧ s.insert r = .error e := by
  by_cases wide : Schema.fits r = false
  · right
    exact ⟨.dataError,by rw [insert,dif_pos wide],by rw [insert,dif_pos wide]⟩
  · left
    have fits : Schema.fits r = true := by simpa using wide
    obtain ⟨t',first⟩ := insert_succeeds fits left
    obtain ⟨s',second⟩ := insert_succeeds fits right
    exact ⟨t',s',first,second⟩

theorem insertAll_apart {rs : List α} {t s : Table α} {base : List α}
    (rows : t.rows = base ++ s.rows)
    (apart : ∀ a ∈ base, ∀ r ∈ rs, Schema.conflict a (Schema.stored r) = false) :
    (∃ t' s', t.insertAll rs = .ok t' ∧ s.insertAll rs = .ok s') ∨
      ∃ e, t.insertAll rs = .error e ∧ s.insertAll rs = .error e := by
  induction rs generalizing t s with
  | nil => exact Or.inl ⟨t,s,rfl,rfl⟩
  | cons r rs ih =>
    simp only [insertAll]
    rcases insert_apart rows (fun a member => apart a member r (by simp)) with
      ⟨t',s',first,second,more⟩ | ⟨e,first,second⟩
    · rw [first,second]
      exact ih more fun a member q later => apart a member q (by simp [later])
    · rw [first,second]
      exact Or.inr ⟨e,rfl,rfl⟩

theorem insertAll_same {rs : List α} {t s : Table α}
    (left : ∀ a ∈ t, ∀ r ∈ rs, Schema.conflict a (Schema.stored r) = false)
    (right : ∀ a ∈ s, ∀ r ∈ rs, Schema.conflict a (Schema.stored r) = false) :
    (∃ t' s', t.insertAll rs = .ok t' ∧ s.insertAll rs = .ok s') ∨
      ∃ e, t.insertAll rs = .error e ∧ s.insertAll rs = .error e := by
  have first := insertAll_apart (t := t) (s := empty) (by simp [empty]) left
  have second := insertAll_apart (t := s) (s := empty) (by simp [empty]) right
  rcases first with ⟨t',a,stored,alone⟩ | ⟨e,failed,alone⟩
  · rcases second with ⟨s',b,taken,-⟩ | ⟨e,-,again⟩
    · exact Or.inl ⟨t',s',stored,taken⟩
    · rw [alone] at again
      cases again
  · rcases second with ⟨s',b,-,again⟩ | ⟨e',refused,again⟩
    · rw [alone] at again
      cases again
    · rw [alone] at again
      cases again
      exact Or.inr ⟨e,failed,refused⟩

theorem mem_update {t : Table α} {p : α → Bool} {f : α → α} {keep} {hold} {a : α} :
    a ∈ t.update p f keep hold ↔ ∃ b ∈ t, (if p b then f b else b) = a := List.mem_map

@[simp] theorem mem_delete {t : Table α} {p : α → Bool} {a : α} :
    a ∈ t.delete p ↔ a ∈ t ∧ p a = false := by
  simp [delete, mem_def]

theorem delete_congr {t : Table α} {p q : α → Bool} (same : ∀ r ∈ t, p r = q r) :
    t.delete p = t.delete q := by
  have rows : (t.rows.filter fun r => !p r) = t.rows.filter fun r => !q r := by
    apply List.filter_congr
    intro r stored
    rw [same r stored]
  simp only [delete, rows]

theorem update_absorbed {t : Table α} {p : α → Bool} {f : α → α} {keep} {hold}
    (same : ∀ r ∈ t, p r = true → f r = r) : t.update p f keep hold = t := by
  have rows : (t.rows.map fun r => if p r then f r else r) = t.rows := by
    have each : ∀ r ∈ t.rows, (if p r then f r else r) = id r := by
      intro r stored
      split
      · rename_i hit
        exact same r stored hit
      · rfl
    rw [List.map_congr_left each,List.map_id]
  simp only [update, rows]

theorem find_update {t : Table α} {p : α → Bool} {f : α → α} {keep} {hold}
    (stays : ∀ r, p r = true → p (f r) = true) :
    (t.update p f keep hold).rows.find? p = (t.rows.find? p).map f := by
  have same : (p ∘ fun r => if p r then f r else r) = p := by
    funext r
    cases hit : p r with
    | false => simp [hit]
    | true => simp [hit, stays r hit]
  simp only [update, List.find?_map, same]
  cases found : t.rows.find? p with
  | none => rfl
  | some r => simp [List.find?_some found]

theorem eq_of_conflict {t : Table α} {a b : α} (ha : a ∈ t) (hb : b ∈ t)
    (same : Schema.conflict a b = true) : a = b := by
  by_contra different
  have symm : Std.Symm fun a b : α => Schema.conflict a b = false :=
    ⟨fun a b free => (Schema.conflict_symm b a).trans free⟩
  have free := t.unique.forall ha hb different
  rw [same] at free
  cases free

theorem nodup_map {β : Type} {t : Table α} {f : α → β}
    (key : ∀ a b, f a = f b → Schema.conflict a b = true) : (t.rows.map f).Nodup := by
  rw [List.Nodup,List.pairwise_map]
  apply t.unique.imp
  intro a b free same
  rw [key a b same] at free
  cases free

theorem find_by_key {t : Table α} {p : α → Bool} {r : α} (stored : r ∈ t) (hit : p r = true)
    (key : ∀ a, p a = true → Schema.conflict a r = true) : t.rows.find? p = some r := by
  cases found : t.rows.find? p with
  | none =>
    have miss := List.find?_eq_none.mp found r stored
    exact absurd hit miss
  | some a =>
    have member : a ∈ t := List.mem_of_find?_eq_some found
    rw [eq_of_conflict member stored (key a (List.find?_some found))]

theorem delete_conflict {t : Table α} {p : α → Bool} {a b : α} (stored : b ∈ t) (hit : p b = true)
    (kept : a ∈ t.delete p) : Schema.conflict a b = false := by
  obtain ⟨earlier,outside⟩ := mem_delete.mp kept
  by_contra same
  rw [Bool.not_eq_false] at same
  rw [eq_of_conflict earlier stored same,hit] at outside
  cases outside

theorem appended_filter {t t' : Table α} {r : α} {q : α → Bool}
    (appended : t'.rows = t.rows ++ [r]) (apart : q r = false) :
    t'.rows.filter q = t.rows.filter q := by
  rw [appended,List.filter_append]
  simp [apart]

theorem insert_filter {t t' : Table α} {r : α} {q : α → Bool} (stored : t.insert r = .ok t')
    (apart : q (Schema.stored r) = false) : t'.rows.filter q = t.rows.filter q :=
  appended_filter (insert_ok stored).1 apart

theorem update_filter {t : Table α} {p q : α → Bool} {f : α → α} {keep} {hold}
    (apart : ∀ r ∈ t, p r = true → q r = false ∧ q (f r) = false) :
    (t.update p f keep hold).rows.filter q = t.rows.filter q := by
  have all : ∀ rs : List α, (∀ r ∈ rs, p r = true → q r = false ∧ q (f r) = false) →
      (rs.map fun r => if p r then f r else r).filter q = rs.filter q := by
    intro rs
    induction rs with
    | nil => intro _; rfl
    | cons r rs ih =>
      intro apart
      have rest := ih fun a member => apart a (List.mem_cons_of_mem _ member)
      simp only [List.map_cons]
      by_cases hit : p r = true
      · have here := apart r (by simp) hit
        simp [hit, here, rest]
      · simp [hit, List.filter_cons, rest]
  exact all t.rows apart

theorem update_filter_same {t s : Table α} {p q : α → Bool} {f : α → α} {keep} {hold}
    (same : t.rows.filter q = s.rows.filter q) (stays : ∀ r, p r = true → q (f r) = q r) :
    (t.update p f keep hold).rows.filter q = (s.update p f keep hold).rows.filter q := by
  have kept : (q ∘ fun r => if p r then f r else r) = q := by
    funext r
    by_cases hit : p r = true
    · simp [hit, stays r hit]
    · simp [hit]
  simp only [update, List.filter_map, kept, same]

theorem delete_filter {t : Table α} {p q : α → Bool} :
    (t.delete p).rows.filter q = (t.rows.filter q).filter fun r => !p r := by
  simp only [delete, List.filter_filter, Bool.and_comm]

end Table

theorem scalar_mem {t : Table α} {p : α → Bool} {r : α}
    (h : scalarOneOrNone (t.select p) = .ok (some r)) : r ∈ t ∧ p r = true := by
  have member : r ∈ t.select p := by
    rw [scalar_some h]
    exact List.mem_singleton_self r
  exact Table.mem_select.mp member

theorem scalar_absent {t : Table α} {p : α → Bool}
    (h : scalarOneOrNone (t.select p) = .ok none) : ∀ r ∈ t, p r = false := by
  intro r stored
  by_contra hit
  have member : r ∈ t.select p := Table.mem_select.mpr ⟨stored,by simpa using hit⟩
  rw [scalar_none h] at member
  cases member

theorem select_sole {t : Table α} {p : α → Bool} {r : α} (reflexive : Schema.conflict r r = true)
    (stored : r ∈ t) (hit : p r = true) (sole : ∀ a ∈ t, p a = true → a = r) :
    t.select p = [r] := by
  have chain : (t.select p).Pairwise fun a b => Schema.conflict a b = false := t.unique.filter _
  have member : r ∈ t.select p := Table.mem_select.mpr ⟨stored,hit⟩
  have only : ∀ a ∈ t.select p, a = r := by
    intro a found
    obtain ⟨inside,matched⟩ := Table.mem_select.mp found
    exact sole a inside matched
  match shape : t.select p with
  | [] =>
    rw [shape] at member
    cases member
  | [a] => rw [only a (by rw [shape]; simp)]
  | a :: b :: rest =>
    rw [shape] at chain
    have free := (List.pairwise_cons.mp chain).1 b (by simp)
    rw [only a (by rw [shape]; simp),only b (by rw [shape]; simp),reflexive] at free
    cases free

theorem scalar_by_key {t : Table α} {p : α → Bool}
    (key : ∀ a b, p a = true → p b = true → Schema.conflict a b = true) :
    (∃ r ∈ t, p r = true ∧ scalarOneOrNone (t.select p) = .ok (some r)) ∨
      ((∀ r ∈ t, p r = false) ∧ scalarOneOrNone (t.select p) = .ok none) := by
  have chain : (t.select p).Pairwise fun a b => Schema.conflict a b = false := t.unique.filter _
  match shape : t.select p with
  | [] =>
    right
    exact ⟨scalar_absent (by rw [shape]; rfl),rfl⟩
  | [r] =>
    left
    have member : r ∈ t.select p := by rw [shape]; exact List.mem_singleton_self r
    obtain ⟨stored,hit⟩ := Table.mem_select.mp member
    exact ⟨r,stored,hit,rfl⟩
  | a :: b :: rest =>
    rw [shape] at chain
    have ha : a ∈ t.select p := by rw [shape]; simp
    have hb : b ∈ t.select p := by rw [shape]; simp
    have free := (List.pairwise_cons.mp chain).1 b (by simp)
    rw [key a b (Table.mem_select.mp ha).2 (Table.mem_select.mp hb).2] at free
    cases free

/-! Rows that are carried over. -/

section
variable {E : α → α → Prop} {mine : α → Prop} {t t' t'' : Table α}

/-- Each of the rows in question has a successor, and each of them has come from one. -/
def Carried (E : α → α → Prop) (mine : α → Prop) (t t' : Table α) : Prop :=
  (∀ a ∈ t, mine a → ∃ new ∈ t', E a new) ∧ ∀ a ∈ t', mine a → ∃ old ∈ t, E old a

theorem carried_refl (refl : ∀ a, E a a) : Carried E mine t t :=
  ⟨fun a stored _ => ⟨a,stored,refl a⟩,fun a stored _ => ⟨a,stored,refl a⟩⟩

theorem carried_trans (trans : ∀ a b c, E a b → E b c → E a c)
    (same : ∀ a b, E a b → (mine a ↔ mine b)) (first : Carried E mine t t')
    (second : Carried E mine t' t'') : Carried E mine t t'' := by
  constructor
  · intro a stored own
    obtain ⟨b,there,step⟩ := first.1 a stored own
    obtain ⟨c,later,again⟩ := second.1 b there ((same a b step).mp own)
    exact ⟨c,later,trans a b c step again⟩
  · intro c stored own
    obtain ⟨b,there,step⟩ := second.2 c stored own
    obtain ⟨a,before,earlier⟩ := first.2 b there ((same b c step).mpr own)
    exact ⟨a,before,trans a b c earlier step⟩

theorem carried_image {f : α → α} (image : ∀ b, b ∈ t' ↔ ∃ a ∈ t, f a = b)
    (each : ∀ a ∈ t, E a (f a)) : Carried E mine t t' := by
  constructor
  · exact fun a stored _ => ⟨f a,(image (f a)).mpr ⟨a,stored,rfl⟩,each a stored⟩
  · intro b stored _
    obtain ⟨a,present,eq⟩ := (image b).mp stored
    rw [← eq]
    exact ⟨a,present,each a present⟩

theorem carried_delete {p : α → Bool} (refl : ∀ a, E a a) (others : ∀ a, mine a → p a = false) :
    Carried E mine t (t.delete p) := by
  constructor
  · exact fun a stored own => ⟨a,Table.mem_delete.mpr ⟨stored,others a own⟩,refl a⟩
  · exact fun a stored _ => ⟨a,(Table.mem_delete.mp stored).1,refl a⟩

theorem carried_extended {new : α → Prop} (refl : ∀ a, E a a)
    (extended : ∀ a, a ∈ t' ↔ a ∈ t ∨ new a) (others : ∀ a, new a → ¬ mine a) :
    Carried E mine t t' := by
  constructor
  · exact fun a stored _ => ⟨a,(extended a).mpr (Or.inl stored),refl a⟩
  · intro a stored own
    rcases (extended a).mp stored with old | fresh
    · exact ⟨a,old,refl a⟩
    · exact absurd own (others a fresh)

end

end Tables
