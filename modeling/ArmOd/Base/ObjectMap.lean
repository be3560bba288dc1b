import ArmOd.Base.BiMap

/-!
# Maps of objects

A map from keys to objects of its own, each at an address that no other key has. What stands under a
key is changed in place; an object that is taken out of the map is deleted, and one that is removed
by its address stays where it is and is forgotten. That the addresses are good ones and are not
shared is carried by the map, so that an operation on one key cannot be seen at another.
-/

namespace ArmOd

structure ObjectMap (κ ν : Type) [Ord κ] where
  addresses : QMap κ Nat
  heap : QMap Nat ν
  created : Nat
  valid : ∀ {k : κ} {a : Nat}, addresses[k]? = some a → a ∈ heap
  below : ∀ a ∈ heap, a < created
  single : addresses.Injective

namespace ObjectMap

variable {κ ν : Type} [Ord κ] [Std.TransOrd κ] {m : ObjectMap κ ν} {k k' : κ} {v w : ν} {a : Nat}
  {f : ν → ν}

def empty : ObjectMap κ ν where
  addresses := ∅
  heap := ∅
  created := 0
  valid hget := absurd (QMap.mem_of_getElem? hget) Std.TreeMap.not_mem_emptyc
  below _ hmem := absurd hmem Std.TreeMap.not_mem_emptyc
  single := QMap.injective_empty

/-- What stands under a key; nothing exactly where the key is not in the map. -/
def value (m : ObjectMap κ ν) (k : κ) : Option ν := m.addresses[k]?.bind fun a => m.heap[a]?

theorem value_empty : (empty : ObjectMap κ ν).value k = none := by
  have hnone : (∅ : QMap κ Nat)[k]? = none :=
    Std.TreeMap.getElem?_eq_none Std.TreeMap.not_mem_emptyc
  rw [value, empty, hnone, Option.bind_none]

omit [Std.TransOrd κ] in
theorem value_eq_some_iff :
    m.value k = some v ↔ ∃ a : Nat, m.addresses[k]? = some a ∧ m.heap[a]? = some v :=
  Option.bind_eq_some_iff

omit [Std.TransOrd κ] in
theorem fresh (m : ObjectMap κ ν) (k : κ) : m.addresses[k]? ≠ some m.created :=
  fun hget => absurd (m.below _ (m.valid hget)) (lt_irrefl _)

variable [Std.LawfulEqOrd κ] [DecidableEq κ]

/-- A new object under the key. -/
def create (m : ObjectMap κ ν) (k : κ) (v : ν) : ObjectMap κ ν where
  addresses := m.addresses.insert k m.created
  heap := m.heap.insert m.created v
  created := m.created + 1
  valid {k' a} hget := by
    rw [QMap.getElem?_insert] at hget
    rw [QMap.mem_insert]
    split at hget
    · exact Or.inl (Option.some.inj hget)
    · exact Or.inr (m.valid hget)
  below a hmem := by
    rcases QMap.mem_insert.mp hmem with rfl | hold
    · exact Nat.lt_succ_self _
    · exact (m.below a hold).trans (Nat.lt_succ_self _)
  single := m.single.insert m.fresh

/-- The object at an address is changed in place. -/
def modify (m : ObjectMap κ ν) (a : Nat) (f : ν → ν) : ObjectMap κ ν where
  addresses := m.addresses
  heap := m.heap.modify a f
  created := m.created
  valid hget := Std.TreeMap.mem_modify.mpr (m.valid hget)
  below a' hmem := m.below a' (Std.TreeMap.mem_modify.mp hmem)
  single := m.single

/-- The object under the key is changed in place, or there is a new one. -/
def update (m : ObjectMap κ ν) (k : κ) (f : ν → ν) (v : ν) : ObjectMap κ ν :=
  match m.addresses[k]? with
  | some a => m.modify a f
  | none => m.create k v

/-- `if( map.contains( key ) ) delete map.take( key )`. -/
def take (m : ObjectMap κ ν) (k : κ) : ObjectMap κ ν :=
  match h : m.addresses[k]? with
  | none => m
  | some a =>
    { addresses := m.addresses.erase k
      heap := m.heap.erase a
      created := m.created
      valid := by
        intro k' a' hget
        obtain ⟨hne, hget⟩ := QMap.getElem?_erase_eq_some.mp hget
        rw [QMap.mem_erase]
        refine ⟨?_, m.valid hget⟩
        rintro rfl
        exact hne (m.single _ _ _ h hget)
      below := fun a' hmem => m.below a' (QMap.mem_erase.mp hmem).2
      single := m.single.erase k }

/-- `map.remove( map.key( object ) )`: the object is not deleted. -/
def forget (m : ObjectMap κ ν) (a : Nat) : ObjectMap κ ν where
  addresses := m.addresses.eraseValue a
  heap := m.heap
  created := m.created
  valid hget := m.valid (m.single.getElem?_eraseValue.mp hget).1
  below := m.below
  single := m.single.eraseValue

theorem value_create : (m.create k v).value k' = if k = k' then some v else m.value k' := by
  rw [value, create, QMap.getElem?_insert]
  split
  · rw [Option.bind_some, QMap.getElem?_insert, if_pos rfl]
  · rw [value]
    refine Option.bind_congr fun a hget => ?_
    rw [QMap.getElem?_insert, if_neg]
    rintro rfl
    exact m.fresh k' hget

omit [Std.TransOrd κ] [Std.LawfulEqOrd κ] in
theorem value_modify (h : m.addresses[k]? = some a) :
    (m.modify a f).value k' = if k = k' then (m.value k').map f else m.value k' := by
  rw [value, modify]
  split
  · rename_i heq
    subst heq
    rw [value, h, Option.bind_some, Option.bind_some, Std.TreeMap.getElem?_modify,
      if_pos (Std.compare_eq_iff_eq.mpr rfl)]
  · rename_i hne
    rw [value]
    refine Option.bind_congr fun a' hget => ?_
    rw [Std.TreeMap.getElem?_modify, if_neg]
    rw [Std.compare_eq_iff_eq]
    rintro rfl
    exact hne (m.single _ _ _ h hget)

theorem value_update : (m.update k f v).value k' =
    if k = k' then some (((m.value k).map f).getD v) else m.value k' := by
  rw [update]
  split
  · rename_i a hget
    rw [value_modify hget]
    split
    · rename_i heq
      subst heq
      obtain ⟨w, hw⟩ := QMap.mem_iff.mp (m.valid hget)
      rw [value_eq_some_iff.mpr ⟨a, hget, hw⟩]
      rfl
    · rfl
  · rename_i hnone
    rw [value_create]
    split
    · rw [value, hnone]
      rfl
    · rfl

theorem value_take : (m.take k).value k' = if k = k' then none else m.value k' := by
  rw [take]
  split
  · rename_i hnone
    split
    · rename_i heq
      rw [value, ← heq, hnone, Option.bind_none]
    · rfl
  · rename_i a hget
    rw [value, QMap.getElem?_erase]
    split
    · rfl
    · rename_i hne
      rw [value]
      refine Option.bind_congr fun a' hget' => ?_
      rw [QMap.getElem?_erase, if_neg]
      rintro rfl
      exact hne (m.single _ _ _ hget hget')

theorem value_forget :
    (m.forget a).value k = if m.addresses[k]? = some a then none else m.value k := by
  have hget : ∀ a' : Nat, (m.forget a).addresses[k]? = some a' ↔
      m.addresses[k]? = some a' ∧ a' ≠ a := fun a' => m.single.getElem?_eraseValue
  split
  · rename_i hk
    refine Option.eq_none_iff_forall_ne_some.mpr fun v hv => ?_
    obtain ⟨a', ha', -⟩ := value_eq_some_iff.mp hv
    obtain ⟨hold, hne⟩ := (hget a').mp ha'
    rw [hk] at hold
    exact hne (Option.some.inj hold).symm
  · rename_i hk
    refine Option.ext fun v => ?_
    rw [value_eq_some_iff, value_eq_some_iff]
    refine exists_congr fun a' => and_congr_left fun _ => ?_
    rw [hget]
    refine ⟨And.left, fun hold => ⟨hold, ?_⟩⟩
    rintro rfl
    exact hk hold

end ObjectMap

end ArmOd
