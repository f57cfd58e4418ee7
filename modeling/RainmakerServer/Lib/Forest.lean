import Mathlib.Logic.Function.Iterate
import Mathlib.Logic.Relation

/-!
Rows with a key and the key of a parent, stored oldest first. A row that is
added names a parent that is there, so the rows are a forest: no row is below
itself, and following the children level by level, as often as there are rows,
finds everything below the keys one starts with.
-/
namespace Forest
variable {R K : Type} (key : R → K) (parent : R → Option K)

def Child (rows : List R) (a b : K) : Prop := ∃ r ∈ rows, key r = b ∧ parent r = some a

def Reached (rows : List R) (roots : List K) (x : K) : Prop :=
  ∃ root ∈ roots, Relation.ReflTransGen (Child key parent rows) root x

inductive Ordered : List R → Prop where
  | nil : Ordered []
  | snoc {rows : List R} {r : R} (before : Ordered rows) (fresh : ∀ a ∈ rows, key a ≠ key r)
      (known : ∀ p, parent r = some p → ∃ a ∈ rows, key a = p) : Ordered (rows ++ [r])

def expand [DecidableEq K] (rows : List R) (ids : List K) : List K :=
  ids ++ (rows.filter fun r => match parent r with
    | some p => ids.contains p && !ids.contains (key r)
    | none => false).map key

variable {key : R → K} {parent : R → Option K} {rows : List R} {roots ids : List K} {x : K}

theorem reached_root (member : x ∈ roots) : Reached key parent rows roots x :=
  ⟨x,member,.refl⟩

theorem reached_child {y : K} (reached : Reached key parent rows roots x)
    (edge : Child key parent rows x y) : Reached key parent rows roots y := by
  obtain ⟨root,member,path⟩ := reached
  exact ⟨root,member,path.tail edge⟩

/-- Where children of kept rows are kept, nothing else matters for what is
    reached from keys of kept rows. -/
theorem reached_filter {keep : R → Bool} (held : K → Prop) (roots_held : ∀ root ∈ roots, held root)
    (closed : ∀ r ∈ rows, ∀ p, parent r = some p → held p → keep r = true ∧ held (key r)) :
    Reached key parent rows roots x ↔ Reached key parent (rows.filter keep) roots x := by
  constructor
  · rintro ⟨root,member,path⟩
    have along : Relation.ReflTransGen (Child key parent (rows.filter keep)) root x ∧ held x := by
      induction path with
      | refl => exact ⟨.refl,roots_held root member⟩
      | tail _ edge ih =>
        obtain ⟨r,stored,same,named⟩ := edge
        obtain ⟨kept,below⟩ := closed r stored _ named ih.2
        rw [same] at below
        exact ⟨ih.1.tail ⟨r,List.mem_filter.mpr ⟨stored,kept⟩,same,named⟩,below⟩
    exact ⟨root,member,along.1⟩
  · rintro ⟨root,member,path⟩
    refine ⟨root,member,Relation.ReflTransGen.mono ?_ _ _ path⟩
    rintro a b ⟨r,stored,same,named⟩
    exact ⟨r,(List.mem_filter.mp stored).1,same,named⟩

/-! Rows in order. -/

section
variable {r : R}

theorem child_snoc {a b : K} : Child key parent (rows ++ [r]) a b ↔
    Child key parent rows a b ∨ key r = b ∧ parent r = some a := by
  simp [Child, or_and_right, exists_or]

theorem ordered_parent (ordered : Ordered key parent rows) {a : R} (member : a ∈ rows) {p : K}
    (named : parent a = some p) : ∃ b ∈ rows, key b = p := by
  induction ordered with
  | nil => cases member
  | @snoc rows r before fresh known ih =>
    rcases List.mem_append.mp member with earlier | last
    · obtain ⟨b,there,same⟩ := ih earlier
      exact ⟨b,by simp [there],same⟩
    · rw [List.mem_singleton.mp last] at named
      obtain ⟨b,there,same⟩ := known p named
      exact ⟨b,by simp [there],same⟩

theorem newest_childless (before : Ordered key parent rows) (fresh : ∀ a ∈ rows, key a ≠ key r)
    (known : ∀ p, parent r = some p → ∃ a ∈ rows, key a = p) (b : K) :
    ¬ Child key parent (rows ++ [r]) (key r) b := by
  intro edge
  rcases child_snoc.mp edge with ⟨a,member,-,named⟩ | ⟨-,named⟩
  · obtain ⟨c,there,same⟩ := ordered_parent before member named
    exact fresh c there same
  · obtain ⟨c,there,same⟩ := known (key r) named
    exact fresh c there same

theorem ordered_acyclic (ordered : Ordered key parent rows) (x : K) :
    ¬ Relation.TransGen (Child key parent rows) x x := by
  induction ordered generalizing x with
  | nil =>
    intro cycle
    obtain ⟨y,⟨a,member,-⟩,-⟩ := Relation.TransGen.head'_iff.mp cycle
    cases member
  | @snoc rows r before fresh known ih =>
    have childless := newest_childless before fresh known
    -- a path keeps to the earlier rows until it ends at the newest one
    have path : ∀ y z, Relation.TransGen (Child key parent (rows ++ [r])) y z →
        Relation.TransGen (Child key parent rows) y z ∨ z = key r := by
      intro y z path
      induction path with
      | single edge =>
        rcases child_snoc.mp edge with old | ⟨last,-⟩
        · exact Or.inl (.single old)
        · exact Or.inr last.symm
      | tail _ edge earlier =>
        rcases earlier with old | stuck
        · rcases child_snoc.mp edge with next | ⟨last,-⟩
          · exact Or.inl (old.tail next)
          · exact Or.inr last.symm
        · rw [stuck] at edge
          exact absurd edge (childless _)
    intro cycle
    rcases path x x cycle with old | last
    · exact ih x old
    · obtain ⟨y,edge,-⟩ := Relation.TransGen.head'_iff.mp cycle
      rw [last] at edge
      exact childless y edge

theorem ordered_filter {keep : R → Bool} (ordered : Ordered key parent rows)
    (closed : ∀ a ∈ rows, ∀ b ∈ rows, parent b = some (key a) → keep b = true → keep a = true) :
    Ordered key parent (rows.filter keep) := by
  induction ordered with
  | nil => exact .nil
  | @snoc rows r before fresh known ih =>
    have rest := ih fun a ha b hb => closed a (by simp [ha]) b (by simp [hb])
    rw [List.filter_append]
    cases kept : keep r with
    | false => simpa [kept] using rest
    | true =>
      have last : [r].filter keep = [r] := by simp [kept]
      rw [last]
      refine .snoc rest ?_ ?_
      · intro a member
        exact fresh a (List.mem_filter.mp member).1
      · intro p named
        obtain ⟨a,member,same⟩ := known p named
        subst same
        have stays := closed a (by simp [member]) r (by simp) named kept
        exact ⟨a,List.mem_filter.mpr ⟨member,stays⟩,rfl⟩

theorem reached_snoc (before : Ordered key parent rows) (fresh : ∀ a ∈ rows, key a ≠ key r)
    (known : ∀ p, parent r = some p → ∃ a ∈ rows, key a = p)
    (reached : Reached key parent (rows ++ [r]) roots x) :
    Reached key parent rows roots x ∨
      x = key r ∧ ∃ p, parent r = some p ∧ Reached key parent rows roots p := by
  obtain ⟨root,member,path⟩ := reached
  induction path with
  | refl => exact Or.inl (reached_root member)
  | tail _ edge earlier =>
    rcases earlier with old | ⟨stuck,-⟩
    · rcases child_snoc.mp edge with next | ⟨last,named⟩
      · exact Or.inl (reached_child old next)
      · exact Or.inr ⟨last.symm,_,named,old⟩
    · rw [stuck] at edge
      exact absurd edge (newest_childless before fresh known _)

end

/-! Level by level. -/

variable [DecidableEq K]

theorem mem_expand : x ∈ expand key parent rows ids ↔
    x ∈ ids ∨ ∃ p ∈ ids, Child key parent rows p x := by
  unfold expand Child
  rw [List.mem_append,List.mem_map]
  constructor
  · intro either
    rcases either with old | ⟨r,member,same⟩
    · exact Or.inl old
    · obtain ⟨there,hit⟩ := List.mem_filter.mp member
      cases named : parent r with
      | none => simp [named] at hit
      | some p =>
        simp only [named, Bool.and_eq_true, List.contains_iff_mem] at hit
        exact Or.inr ⟨p,hit.1,r,there,same,named⟩
  · intro either
    by_cases old : x ∈ ids
    · exact Or.inl old
    · rcases either with here | ⟨p,above,r,there,same,named⟩
      · exact absurd here old
      · right
        refine ⟨r,List.mem_filter.mpr ⟨there,?_⟩,same⟩
        simp [named, above, same, old]

theorem iterate_reached (k : Nat) (member : x ∈ (expand key parent rows)^[k] roots) :
    Reached key parent rows roots x := by
  induction k generalizing x with
  | zero => exact reached_root member
  | succ k ih =>
    rw [Function.iterate_succ_apply'] at member
    rcases mem_expand.mp member with old | ⟨p,above,edge⟩
    · exact ih old
    · exact reached_child (ih above) edge

theorem iterate_mono {r : R} (k : Nat) (member : x ∈ (expand key parent rows)^[k] roots) :
    x ∈ (expand key parent (rows ++ [r]))^[k] roots := by
  induction k generalizing x with
  | zero => exact member
  | succ k ih =>
    rw [Function.iterate_succ_apply'] at member ⊢
    rcases mem_expand.mp member with old | ⟨p,above,edge⟩
    · exact mem_expand.mpr (Or.inl (ih old))
    · exact mem_expand.mpr (Or.inr ⟨p,ih above,child_snoc.mpr (Or.inl edge)⟩)

theorem reached_iterate (ordered : Ordered key parent rows)
    (reached : Reached key parent rows roots x) :
    x ∈ (expand key parent rows)^[rows.length] roots := by
  induction ordered generalizing x with
  | nil =>
    obtain ⟨root,member,path⟩ := reached
    cases path with
    | refl => exact member
    | tail _ edge =>
      obtain ⟨a,there,-⟩ := edge
      cases there
  | @snoc rows r before fresh known ih =>
    rw [List.length_append,List.length_singleton,Function.iterate_succ_apply',mem_expand]
    rcases reached_snoc before fresh known reached with old | ⟨last,p,named,above⟩
    · exact Or.inl (iterate_mono _ (ih old))
    · exact Or.inr ⟨p,iterate_mono _ (ih above),child_snoc.mpr (Or.inr ⟨last.symm,named⟩)⟩

theorem mem_iterate_iff (ordered : Ordered key parent rows) :
    x ∈ (expand key parent rows)^[rows.length] roots ↔ Reached key parent rows roots x :=
  ⟨iterate_reached _,reached_iterate ordered⟩

end Forest
