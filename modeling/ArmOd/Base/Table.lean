import Mathlib

/-!
# Tables with generated keys

A table whose primary key the server generates: rows in key order, keys positive and below the next
one to be generated, and a limit (the largest key type of the column) past which inserting fails.
The invariant is carried by the structure, so a lookup by key has at most one answer wherever the
table came from.

The component above is made of two operations: the first row with a property, and a new row.
Inserting leaves the rows there were where they were, so what a lookup found it finds again.
-/

namespace ArmOd

/-- A table with generated keys below `limit`. -/
structure Table (limit : Nat) (α : Type) where
  rows : List (Nat × α)
  nextId : Nat
  sorted : rows.Pairwise fun a b => a.1 < b.1
  fresh : ∀ r ∈ rows, r.1 < nextId
  positive : ∀ r ∈ rows, 0 < r.1
  nextId_pos : 0 < nextId
  bounded : nextId ≤ limit

namespace Table

variable {limit : Nat} {α : Type}

/-- A table without rows. -/
def empty (h : 1 ≤ limit) : Table limit α where
  rows := []
  nextId := 1
  sorted := List.Pairwise.nil
  fresh := fun _ hr => absurd hr List.not_mem_nil
  positive := fun _ hr => absurd hr List.not_mem_nil
  nextId_pos := Nat.one_pos
  bounded := h

/-- The row with a given key. -/
def get? (t : Table limit α) (id : Nat) : Option α := (t.rows.find? fun r => r.1 == id).map Prod.snd

/-- The rows with a property, in key order. -/
def select (t : Table limit α) (p : α → Bool) : List (Nat × α) := t.rows.filter fun r => p r.2

/-- The key of the first row with a property. -/
def firstId (t : Table limit α) (p : α → Bool) : Option Nat := (t.select p).head?.map Prod.fst

theorem lt_limit (t : Table limit α) {r : Nat × α} (hr : r ∈ t.rows) : r.1 < limit :=
  lt_of_lt_of_le (t.fresh r hr) t.bounded

/-- Append a row under the next key, where there is one left. -/
def insert (t : Table limit α) (a : α) : Option (Nat × Table limit α) :=
  if h : t.nextId < limit then
    some (t.nextId,
      { rows := t.rows ++ [(t.nextId, a)]
        nextId := t.nextId + 1
        sorted := by
          refine List.pairwise_append.mpr ⟨t.sorted, List.pairwise_singleton _ _, ?_⟩
          intro r hr r' hr'
          rw [List.mem_singleton.mp hr']
          exact t.fresh r hr
        fresh := by
          intro r hr
          rcases List.mem_append.mp hr with hr | hr
          · exact Nat.lt_succ_of_lt (t.fresh r hr)
          · rw [List.mem_singleton.mp hr]
            exact Nat.lt_succ_self _
        positive := by
          intro r hr
          rcases List.mem_append.mp hr with hr | hr
          · exact t.positive r hr
          · rw [List.mem_singleton.mp hr]
            exact t.nextId_pos
        nextId_pos := Nat.succ_pos _
        bounded := h })
  else none

/-- Drop the rows with a property. -/
def delete (t : Table limit α) (p : α → Bool) : Table limit α where
  rows := t.rows.filter fun r => !p r.2
  nextId := t.nextId
  sorted := t.sorted.filter _
  fresh := fun r hr => t.fresh r (List.mem_of_mem_filter hr)
  positive := fun r hr => t.positive r (List.mem_of_mem_filter hr)
  nextId_pos := t.nextId_pos
  bounded := t.bounded

/-- Drop the row with a given key. -/
def deleteId (t : Table limit α) (id : Nat) : Table limit α where
  rows := t.rows.filter fun r => r.1 != id
  nextId := t.nextId
  sorted := t.sorted.filter _
  fresh := fun r hr => t.fresh r (List.mem_of_mem_filter hr)
  positive := fun r hr => t.positive r (List.mem_of_mem_filter hr)
  nextId_pos := t.nextId_pos
  bounded := t.bounded

/-- Change the rows with a property, under their keys. -/
def modify (t : Table limit α) (p : α → Bool) (f : α → α) : Table limit α where
  rows := t.rows.map fun r => (r.1, if p r.2 then f r.2 else r.2)
  nextId := t.nextId
  sorted := List.pairwise_map.mpr t.sorted
  fresh := by
    intro r hr
    obtain ⟨r', hr', rfl⟩ := List.mem_map.mp hr
    exact t.fresh r' hr'
  positive := by
    intro r hr
    obtain ⟨r', hr', rfl⟩ := List.mem_map.mp hr
    exact t.positive r' hr'
  nextId_pos := t.nextId_pos
  bounded := t.bounded

/-- Change the row with a given key. -/
def modifyId (t : Table limit α) (id : Nat) (f : α → α) : Table limit α where
  rows := t.rows.map fun r => (r.1, if r.1 = id then f r.2 else r.2)
  nextId := t.nextId
  sorted := List.pairwise_map.mpr t.sorted
  fresh := by
    intro r hr
    obtain ⟨r', hr', rfl⟩ := List.mem_map.mp hr
    exact t.fresh r' hr'
  positive := by
    intro r hr
    obtain ⟨r', hr', rfl⟩ := List.mem_map.mp hr
    exact t.positive r' hr'
  nextId_pos := t.nextId_pos
  bounded := t.bounded

/-! ### Lookups by key -/

theorem eq_of_mem_of_mem (t : Table limit α) {id : Nat} {a b : α} (ha : (id, a) ∈ t.rows)
    (hb : (id, b) ∈ t.rows) : a = b := by
  have hkeys : (t.rows.map Prod.fst).Nodup :=
    List.pairwise_map.mpr (t.sorted.imp fun h => Nat.ne_of_lt h)
  exact (Prod.mk.inj (List.inj_on_of_nodup_map hkeys ha hb rfl)).2

theorem get?_eq_some_iff (t : Table limit α) {id : Nat} {a : α} : t.get? id = some a ↔
    (id, a) ∈ t.rows := by
  constructor
  · intro h
    obtain ⟨r, hr, rfl⟩ := Option.map_eq_some_iff.mp h
    have hid : r.1 = id := by simpa using List.find?_some hr
    rw [← hid]
    exact List.mem_of_find?_eq_some hr
  · intro h
    obtain ⟨r, hr⟩ : ∃ r, t.rows.find? (fun r => r.1 == id) = some r := by
      rw [← Option.isSome_iff_exists, List.find?_isSome]
      exact ⟨_, h, by simp⟩
    have hid : r.1 = id := by simpa using List.find?_some hr
    have hmem : (id, r.2) ∈ t.rows := by
      rw [← hid]
      exact List.mem_of_find?_eq_some hr
    rw [get?, hr, Option.map_some, t.eq_of_mem_of_mem hmem h]

theorem lt_nextId_of_get? (t : Table limit α) {id : Nat} {a : α} (h : t.get? id = some a) :
    id < t.nextId :=
  t.fresh _ (t.get?_eq_some_iff.mp h)

theorem lt_limit_of_get? (t : Table limit α) {id : Nat} {a : α} (h : t.get? id = some a) :
    id < limit :=
  t.lt_limit (t.get?_eq_some_iff.mp h)

/-! ### Inserting -/

/-- `t'` has the rows of `t`, in place, and perhaps more after them. -/
def Extends (t t' : Table limit α) : Prop := t.rows <+: t'.rows

theorem Extends.refl (t : Table limit α) : t.Extends t := List.prefix_refl _

theorem Extends.trans {t t' t'' : Table limit α} (h : t.Extends t') (h' : t'.Extends t'') :
    t.Extends t'' :=
  List.IsPrefix.trans h h'

theorem Extends.get? {t t' : Table limit α} (h : t.Extends t') {id : Nat} {a : α}
    (hget : t.get? id = some a) :
    t'.get? id = some a := by
  rw [get?_eq_some_iff] at hget ⊢
  exact h.subset hget

theorem insert_eq_some {t t' : Table limit α} {a : α} {id : Nat} (h : t.insert a = some (id, t')) :
    id = t.nextId ∧ t'.rows = t.rows ++ [(id, a)] := by
  rw [insert] at h
  split at h
  · cases h
    exact ⟨rfl, rfl⟩
  · cases h

theorem insert_of_lt {t : Table limit α} {a : α} (h : t.nextId < limit) :
    ∃ t', t.insert a = some (t.nextId, t') := by
  rw [insert, dif_pos h]
  exact ⟨_, rfl⟩

theorem insert_of_not_lt {t : Table limit α} {a : α} (h : ¬t.nextId < limit) :
    t.insert a = none := by
  rw [insert, dif_neg h]

theorem insert_extends {t t' : Table limit α} {a : α} {id : Nat} (h : t.insert a = some (id, t')) :
    t.Extends t' :=
  ⟨_, (insert_eq_some h).2.symm⟩

theorem mem_rows_insert {t t' : Table limit α} {a : α} {id : Nat} {r : Nat × α}
    (h : t.insert a = some (id, t')) : r ∈ t'.rows ↔ r ∈ t.rows ∨ r = (id, a) := by
  rw [(insert_eq_some h).2, List.mem_append, List.mem_singleton]

theorem get?_insert_eq_some {t t' : Table limit α} {a b : α} {id id' : Nat}
    (h : t.insert a = some (id, t')) :
    t'.get? id' = some b ↔ t.get? id' = some b ∨ (id', b) = (id, a) := by
  rw [get?_eq_some_iff, get?_eq_some_iff, mem_rows_insert h]

theorem insert_get? {t t' : Table limit α} {a : α} {id : Nat} (h : t.insert a = some (id, t')) :
    t'.get? id = some a :=
  (get?_insert_eq_some h).mpr (Or.inr rfl)

/-! ### The first row with a property -/

theorem firstId_eq_some {t : Table limit α} {p : α → Bool} {id : Nat} (h : t.firstId p = some id) :
    ∃ a, t.get? id = some a ∧ p a = true := by
  obtain ⟨r, hr, rfl⟩ := Option.map_eq_some_iff.mp h
  have hmem := List.mem_of_mem_head? hr
  rw [select, List.mem_filter] at hmem
  exact ⟨r.2, t.get?_eq_some_iff.mpr hmem.1, hmem.2⟩

theorem firstId_eq_none {t : Table limit α} {p : α → Bool} : t.firstId p = none ↔
    ∀ r ∈ t.rows, p r.2 = false := by
  simp only [firstId, select, Option.map_eq_none_iff, List.head?_eq_none_iff,
    List.filter_eq_nil_iff, Bool.not_eq_true]

theorem Extends.firstId {t t' : Table limit α} (h : t.Extends t') {p : α → Bool} {id : Nat}
    (hfirst : t.firstId p = some id) : t'.firstId p = some id := by
  obtain ⟨more, hmore⟩ := h
  obtain ⟨r, hr, rfl⟩ := Option.map_eq_some_iff.mp hfirst
  rw [Table.firstId, select, ← hmore, List.filter_append, List.head?_append,
    show (t.rows.filter fun r => p r.2).head? = some r from hr]
  rfl

theorem firstId_insert {t t' : Table limit α} {a : α} {id : Nat} (h : t.insert a = some (id, t'))
    (p : α → Bool) :
    t'.firstId p = (t.firstId p).or (if p a then some id else none) := by
  rw [firstId, select, (insert_eq_some h).2, List.filter_append, List.head?_append, Option.map_or,
    firstId, select]
  congr 1
  cases hp : p a <;> simp [hp]

end Table

end ArmOd
