import Mathlib.Data.List.Basic

/-!
Insertion-ordered dictionaries as lists of key-value pairs. A key keeps its
position when it is assigned again. `get?` takes the first entry of a key, and
no result below needs the keys of the receiving dictionary to be distinct.
-/
namespace Dict
variable {K V : Type} [DecidableEq K]

def keys (d : List (K × V)) : List K := d.map Prod.fst

def get? (k : K) : List (K × V) → Option V
  | [] => none
  | (a,b) :: d => if a = k then some b else get? k d

def set (k : K) (v : V) : List (K × V) → List (K × V)
  | [] => [(k,v)]
  | (a,b) :: d => if a = k then (a,v) :: d else (a,b) :: set k v d

def update (d e : List (K × V)) : List (K × V) := e.foldl (fun acc p => set p.1 p.2 acc) d

def pick (k : K) (d : List (K × V)) : List (K × V) := ((get? k d).map fun v => (k,v)).toList

theorem get_append (k : K) (d e : List (K × V)) :
    get? k (d ++ e) = (get? k d).or (get? k e) := by
  induction d with
  | nil => rfl
  | cons p d ih =>
    simp only [List.cons_append, get?]
    split
    · rfl
    · exact ih

theorem get_pick (k j : K) (d : List (K × V)) :
    get? k (pick j d) = if j = k then get? k d else none := by
  unfold pick
  split
  · rename_i same
    subst same
    cases get? j d with
    | none => rfl
    | some v => simp [get?]
  · rename_i other
    cases get? j d with
    | none => rfl
    | some v => simp [get?, other]

theorem get_set (k a : K) (v : V) (d : List (K × V)) :
    get? k (set a v d) = if a = k then some v else get? k d := by
  induction d with
  | nil => rfl
  | cons p d ih =>
    obtain ⟨x,y⟩ := p
    by_cases same : x = a
    · subst x
      simp only [set, ↓reduceIte, get?]
      split <;> rfl
    · simp only [set, same, ↓reduceIte, get?, ih]
      by_cases here : x = k
      · have other : a ≠ k := fun eq => same (here.trans eq.symm)
        simp [here, other]
      · simp [here]

theorem get_none_iff {k : K} {d : List (K × V)} : get? k d = none ↔ k ∉ keys d := by
  induction d with
  | nil => simp [get?, keys]
  | cons p d ih =>
    obtain ⟨a,b⟩ := p
    by_cases same : a = k
    · simp [get?, keys, same]
    · simp only [get?, same, ↓reduceIte, ih]
      simp [keys, Ne.symm same]

theorem mem_of_get {k : K} {v : V} {d : List (K × V)} (found : get? k d = some v) :
    (k,v) ∈ d := by
  induction d with
  | nil => cases found
  | cons p d ih =>
    obtain ⟨a,b⟩ := p
    simp only [get?] at found
    split at found
    · rename_i same
      cases found
      simp [same]
    · exact List.mem_cons_of_mem _ (ih found)

theorem get_of_mem {k : K} {v : V} {d : List (K × V)} (distinct : (keys d).Nodup)
    (member : (k,v) ∈ d) : get? k d = some v := by
  induction d with
  | nil => cases member
  | cons p d ih =>
    obtain ⟨a,b⟩ := p
    simp only [keys, List.map_cons, List.nodup_cons] at distinct
    simp only [get?]
    rcases List.mem_cons.mp member with eq | later
    · cases eq
      simp
    · have other : a ≠ k := by
        intro same
        subst a
        exact distinct.1 (List.mem_map.mpr ⟨(k,v),later,rfl⟩)
      simp only [other, ↓reduceIte]
      exact ih distinct.2 later

theorem get_update_of_not_mem {k : K} {e : List (K × V)} (absent : k ∉ keys e)
    (d : List (K × V)) : get? k (update d e) = get? k d := by
  induction e generalizing d with
  | nil => rfl
  | cons p e ih =>
    simp only [keys, List.map_cons, List.mem_cons, not_or] at absent
    have rest := ih absent.2 (set p.1 p.2 d)
    rw [get_set,if_neg (Ne.symm absent.1)] at rest
    exact rest

theorem get_update_of_mem {k : K} {v : V} {e : List (K × V)} (distinct : (keys e).Nodup)
    (member : (k,v) ∈ e) (d : List (K × V)) : get? k (update d e) = some v := by
  induction e generalizing d with
  | nil => cases member
  | cons p e ih =>
    simp only [keys, List.map_cons, List.nodup_cons] at distinct
    rcases List.mem_cons.mp member with eq | later
    · cases eq
      have rest := get_update_of_not_mem distinct.1 (set k v d)
      rw [get_set,if_pos rfl] at rest
      exact rest
    · exact ih distinct.2 later (set p.1 p.2 d)

theorem get_update {e : List (K × V)} (distinct : (keys e).Nodup) (k : K) (d : List (K × V)) :
    get? k (update d e) = (get? k e).or (get? k d) := by
  cases found : get? k e with
  | none =>
    rw [get_update_of_not_mem (get_none_iff.mp found)]
    rfl
  | some v =>
    rw [get_update_of_mem distinct (mem_of_get found)]
    rfl

theorem set_of_get {k : K} {v : V} {d : List (K × V)} (found : get? k d = some v) :
    set k v d = d := by
  induction d with
  | nil => cases found
  | cons p d ih =>
    obtain ⟨a,b⟩ := p
    simp only [get?] at found
    split at found
    · rename_i same
      cases found
      simp [set, same]
    · rename_i other
      simp [set, other, ih found]

theorem update_absorbed {d e : List (K × V)} (held : ∀ p ∈ e, get? p.1 d = some p.2) :
    update d e = d := by
  induction e with
  | nil => rfl
  | cons p e ih =>
    have first : set p.1 p.2 d = d := set_of_get (held p (by simp))
    have rest := ih fun q member => held q (List.mem_cons_of_mem _ member)
    unfold update at rest ⊢
    rw [List.foldl_cons,first]
    exact rest

theorem mem_set {k : K} {v : V} {d : List (K × V)} {p : K × V} (member : p ∈ set k v d) :
    p = (k,v) ∨ p ∈ d := by
  induction d with
  | nil => simpa [set] using member
  | cons q d ih =>
    obtain ⟨a,b⟩ := q
    simp only [set] at member
    split at member
    · rename_i same
      rcases List.mem_cons.mp member with eq | later
      · exact Or.inl (by rw [eq,same])
      · exact Or.inr (List.mem_cons_of_mem _ later)
    · rcases List.mem_cons.mp member with eq | later
      · exact Or.inr (by simp [eq])
      · rcases ih later with eq | old
        · exact Or.inl eq
        · exact Or.inr (List.mem_cons_of_mem _ old)

theorem mem_update {d e : List (K × V)} {p : K × V} (member : p ∈ update d e) :
    p ∈ d ∨ p ∈ e := by
  induction e generalizing d with
  | nil => exact Or.inl member
  | cons q e ih =>
    rcases ih (d := set q.1 q.2 d) member with here | later
    · rcases mem_set here with eq | old
      · exact Or.inr (by simp [eq])
      · exact Or.inl old
    · exact Or.inr (List.mem_cons_of_mem _ later)

theorem keys_set {k : K} {v : V} {d : List (K × V)} {a : K} :
    a ∈ keys (set k v d) ↔ a = k ∨ a ∈ keys d := by
  induction d with
  | nil => simp [set, keys]
  | cons p d ih =>
    obtain ⟨x,y⟩ := p
    simp only [keys] at ih
    simp only [set]
    split
    · rename_i same
      subst same
      simp [keys]
    · simp only [keys, List.map_cons, List.mem_cons, ih]
      exact or_left_comm

theorem set_nodup {k : K} {v : V} {d : List (K × V)} (distinct : (keys d).Nodup) :
    (keys (set k v d)).Nodup := by
  induction d with
  | nil => simp [set, keys]
  | cons p d ih =>
    obtain ⟨x,y⟩ := p
    simp only [keys, List.map_cons, List.nodup_cons] at distinct
    simp only [set]
    split
    · simpa [keys] using distinct
    · rename_i other
      have absent : x ∉ keys (set k v d) := by
        rw [keys_set,not_or]
        exact ⟨other,distinct.1⟩
      exact List.nodup_cons.mpr ⟨absent,ih distinct.2⟩

theorem update_nodup {d : List (K × V)} (distinct : (keys d).Nodup) (e : List (K × V)) :
    (keys (update d e)).Nodup := by
  induction e generalizing d with
  | nil => exact distinct
  | cons p e ih => exact ih (set_nodup distinct)

theorem get_map {W : Type} (f : V → W) (k : K) (d : List (K × V)) :
    get? k (d.map fun p => (p.1,f p.2)) = (get? k d).map f := by
  induction d with
  | nil => rfl
  | cons p d ih =>
    simp only [List.map_cons, get?]
    split
    · rfl
    · exact ih

theorem fromkeys_nodup {A : Type} [BEq A] [LawfulBEq A] (xs : List A) : xs.eraseDups.Nodup := by
  induction size : xs.length using Nat.strongRecOn generalizing xs with
  | ind size_xs ih =>
    cases xs with
    | nil => simp
    | cons x rest =>
      have smaller : (rest.filter fun y => !y == x).length < size_xs := by
        have kept := List.length_filter_le (fun y => !y == x) rest
        simp only [List.length_cons] at size
        omega
      rw [List.eraseDups_cons,List.nodup_cons]
      refine ⟨?_,ih _ smaller _ rfl⟩
      simp [List.mem_eraseDups]

end Dict
