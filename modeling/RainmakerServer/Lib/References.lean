import RainmakerServer.Lib.Table

/-!
References between tables. A row may refer to a row of another table, or of its
own, by that row's key; a row without a value refers to nothing. References hold
across every change that keeps the keys referred to and adds no row that refers
to a missing one, and across a deletion that cascades to the referring rows.
-/
namespace References
open Tables
variable {α β K : Type} [Schema α] [Schema β]

def Refers (ref : α → Option K) (key : β → K) (t : Table α) (u : Table β) : Prop :=
  ∀ r ∈ t, ∀ k, ref r = some k → ∃ s ∈ u, key s = k

def Kept (key : β → K) (u u' : Table β) : Prop := ∀ s ∈ u, ∃ s' ∈ u', key s' = key s

def Founded (ref : α → Option K) (key : β → K) (t t' : Table α) (u : Table β) : Prop :=
  ∀ r ∈ t', (∃ old ∈ t, ref old = ref r) ∨ ∀ k, ref r = some k → ∃ s ∈ u, key s = k

variable {ref : α → Option K} {key : β → K} {t t' : Table α} {u u' : Table β}

theorem refers_empty : Refers ref key .empty u := by
  intro r stored
  cases stored

theorem kept_refl : Kept key u u := fun s stored => ⟨s,stored,rfl⟩

theorem kept_insert {s : β} (stored : u.insert s = .ok u') : Kept key u u' :=
  fun a old => ⟨a,(Table.mem_insert stored).mpr (Or.inl old),rfl⟩

theorem kept_update {p : β → Bool} {f : β → β}
    (written : u'.rows = u.rows.map fun s => if p s then f s else s)
    (same : ∀ s, key (f s) = key s) : Kept key u u' := by
  intro s stored
  refine ⟨if p s then f s else s,?_,?_⟩
  · rw [Table.mem_def,written]
    exact List.mem_map_of_mem stored
  · split
    · exact same s
    · rfl

theorem founded_refl : Founded ref key t t u := fun r stored => Or.inl ⟨r,stored,rfl⟩

theorem founded_appended {rs : List α} (appended : t'.rows = t.rows ++ rs)
    (targets : ∀ r ∈ rs, ∀ k, ref r = some k → ∃ s ∈ u, key s = k) : Founded ref key t t' u := by
  intro a member
  rcases (Table.mem_appendedAll appended).mp member with old | new
  · exact Or.inl ⟨a,old,rfl⟩
  · exact Or.inr (targets a new)

theorem founded_insert {r : α} (stored : t.insert r = .ok t')
    (target : ∀ k, ref (Schema.stored r) = some k → ∃ s ∈ u, key s = k) :
    Founded ref key t t' u := by
  apply founded_appended (Table.insert_ok stored).1
  intro a new
  rw [List.mem_singleton.mp new]
  exact target

theorem founded_insertAll {rs : List α} (stored : t.insertAll rs = .ok t')
    (targets : ∀ r ∈ rs, ∀ k, ref (Schema.stored r) = some k → ∃ s ∈ u, key s = k) :
    Founded ref key t t' u := by
  apply founded_appended (Table.insertAll_rows stored)
  intro a new
  obtain ⟨r,added,eq⟩ := List.mem_map.mp new
  rw [← eq]
  exact targets r added

theorem founded_update {p : α → Bool} {f : α → α}
    (written : t'.rows = t.rows.map fun r => if p r then f r else r)
    (same : ∀ r, ref (f r) = ref r) : Founded ref key t t' u := by
  intro r stored
  rw [Table.mem_def,written] at stored
  obtain ⟨old,member,eq⟩ := List.mem_map.mp stored
  refine Or.inl ⟨old,member,?_⟩
  rw [← eq]
  split
  · exact (same old).symm
  · rfl

theorem founded_delete {p : α → Bool} : Founded ref key t (t.delete p) u :=
  fun r stored => Or.inl ⟨r,(Table.mem_delete.mp stored).1,rfl⟩

theorem founded_kept (founded : Founded ref key t t' u) (kept : Kept key u u') :
    Founded ref key t t' u' := by
  intro r stored
  rcases founded r stored with old | target
  · exact Or.inl old
  · refine Or.inr fun k named => ?_
    obtain ⟨s,there,eq⟩ := target k named
    obtain ⟨s',here,same⟩ := kept s there
    exact ⟨s',here,same.trans eq⟩

theorem refers_step (refers : Refers ref key t u) (founded : Founded ref key t t' u')
    (kept : Kept key u u') : Refers ref key t' u' := by
  intro r stored k named
  rcases founded r stored with ⟨old,earlier,same⟩ | target
  · obtain ⟨s,there,eq⟩ := refers old earlier k (same.trans named)
    obtain ⟨s',here,eq'⟩ := kept s there
    exact ⟨s',here,eq'.trans eq⟩
  · exact target k named

theorem refers_cascade {p : α → Bool} {q : β → Bool} (refers : Refers ref key t u)
    (cascades : ∀ r ∈ t, p r = false → ∀ s ∈ u, ref r = some (key s) → q s = false) :
    Refers ref key (t.delete p) (u.delete q) := by
  intro r stored k named
  obtain ⟨earlier,stays⟩ := Table.mem_delete.mp stored
  obtain ⟨s,there,eq⟩ := refers r earlier k named
  have stays' : q s = false := cascades r earlier stays s there (by rw [named,eq])
  exact ⟨s,Table.mem_delete.mpr ⟨there,stays'⟩,eq⟩

theorem refers_missing (refers : Refers ref key t u) {k : K} (missing : ∀ s ∈ u, key s ≠ k) :
    ∀ r ∈ t, ref r ≠ some k := by
  intro r stored named
  obtain ⟨s,there,eq⟩ := refers r stored k named
  exact missing s there eq

end References
