import ArmOd.Qt.Values

/-!
# Bidirectional maps

`BiMap.h`: two ordered maps that are inverse to each other. That they are is a field, so every
operation has to keep it, and a map whose halves disagree cannot be built. A pair is in the map
exactly when either half says so; `Links` is that relation, and each operation is described by what
it does to it.
-/

namespace ArmOd

/-- The `QMap` is injective: no value is held by two keys. -/
def QMap.Injective {κ ν : Type} [Ord κ] (m : QMap κ ν) : Prop :=
  ∀ (k k' : κ) (v : ν), m[k]? = some v → m[k']? = some v → k = k'

namespace QMap

variable {κ ν : Type} [Ord κ] [Std.TransOrd κ]

theorem injective_empty : Injective (∅ : QMap κ ν) :=
  fun _ _ _ h => absurd (mem_of_getElem? h) Std.TreeMap.not_mem_emptyc

variable [Std.LawfulEqOrd κ] [DecidableEq κ] {m : QMap κ ν} {k : κ} {v : ν}

theorem Injective.insert (h : m.Injective) (hnew : ∀ k' : κ, m[k']? ≠ some v) : Injective
    (m.insert k v) := by
  intro a b w ha hb
  rw [getElem?_insert] at ha hb
  by_cases hka : k = a <;> by_cases hkb : k = b
  · exact hka.symm.trans hkb
  · rw [if_pos hka] at ha
    rw [if_neg hkb] at hb
    cases ha
    exact absurd hb (hnew b)
  · rw [if_neg hka] at ha
    rw [if_pos hkb] at hb
    cases hb
    exact absurd ha (hnew a)
  · rw [if_neg hka] at ha
    rw [if_neg hkb] at hb
    exact h a b w ha hb

theorem Injective.erase (h : m.Injective) (k : κ) : Injective (m.erase k) :=
  fun a b w ha hb =>
    h a b w (getElem?_erase_eq_some.mp ha).2 (getElem?_erase_eq_some.mp hb).2

theorem Injective.eraseValue [BEq ν] [LawfulBEq ν] (h : m.Injective) : Injective
    (m.eraseValue v) := by
  rw [QMap.eraseValue]
  split
  · exact h.erase _
  · exact h

omit [DecidableEq κ] in
theorem Injective.nodup_values (h : m.Injective) : (values m).Nodup := by
  rw [← List.map_id (values m)]
  exact nodup_map_values id fun k k' v v' hv hv' (heq : v = v') => h k k' v hv (heq ▸ hv')

/-- In an injective map, removing the key of a value removes the value and nothing else. -/
theorem Injective.getElem?_eraseValue [BEq ν] [LawfulBEq ν] (h : m.Injective) {a : κ} {w : ν} :
    (m.eraseValue v)[a]? = some w ↔ m[a]? = some w ∧ w ≠ v := by
  rw [QMap.eraseValue]
  split
  · rename_i k hkey
    have hk := key?_eq_some hkey
    rw [getElem?_erase_eq_some, and_comm]
    refine and_congr_right fun ha => not_congr ⟨?_, ?_⟩
    · rintro rfl
      exact Option.some.inj (ha.symm.trans hk)
    · rintro rfl
      exact h k a w hk ha
  · rename_i hkey
    refine ⟨fun ha => ⟨ha, ?_⟩, And.left⟩
    rintro rfl
    exact key?_eq_none hkey a ha

end QMap

structure BiMap (α β : Type) [Ord α] [Ord β] where
  m_left : QMap α β
  m_right : QMap β α
  inverse : ∀ (x : α) (y : β), m_left[x]? = some y ↔ m_right[y]? = some x

namespace BiMap

variable {α β : Type} [Ord α] [Ord β]

/-- The pair is in the map. -/
def Links (b : BiMap α β) (x : α) (y : β) : Prop := b.m_left[x]? = some y

def containsLeft (b : BiMap α β) (x : α) : Bool := b.m_left.contains x

def containsRight (b : BiMap α β) (y : β) : Bool := b.m_right.contains y

theorem links_iff_right {b : BiMap α β} {x : α} {y : β} : b.Links x y ↔ b.m_right[y]? = some x :=
  b.inverse x y

theorem Links.left_unique {b : BiMap α β} {x : α} {y y' : β} (h : b.Links x y)
    (h' : b.Links x y') : y = y' :=
  Option.some.inj (h.symm.trans h')

theorem Links.right_unique {b : BiMap α β} {x x' : α} {y : β} (h : b.Links x y)
    (h' : b.Links x' y) : x = x' :=
  Option.some.inj ((links_iff_right.mp h).symm.trans (links_iff_right.mp h'))

variable [Std.TransOrd α] [Std.TransOrd β]

def empty : BiMap α β where
  m_left := ∅
  m_right := ∅
  inverse := fun _ _ => ⟨fun h => absurd (QMap.mem_of_getElem? h) Std.TreeMap.not_mem_emptyc,
    fun h => absurd (QMap.mem_of_getElem? h) Std.TreeMap.not_mem_emptyc⟩

theorem links_empty {x : α} {y : β} : ¬(empty : BiMap α β).Links x y :=
  fun h => absurd (QMap.mem_of_getElem? h) Std.TreeMap.not_mem_emptyc

omit [Std.TransOrd β] in
theorem containsLeft_iff {b : BiMap α β} {x : α} : b.containsLeft x = true ↔ ∃ y, b.Links x y :=
  QMap.mem_iff

omit [Std.TransOrd α] in
theorem containsRight_iff {b : BiMap α β} {y : β} : b.containsRight y = true ↔ ∃ x, b.Links x y :=
  QMap.mem_iff.trans (exists_congr fun x => (b.inverse x y).symm)

variable [Std.LawfulEqOrd α] [Std.LawfulEqOrd β] [DecidableEq α] [DecidableEq β]

omit [DecidableEq α] [DecidableEq β] in
/-- The halves have the same size: the values of the one are the keys of the other. -/
theorem size_eq (b : BiMap α β) : b.m_left.size = b.m_right.size := by
  have hinj : b.m_left.Injective := fun _ _ _ hx hx' => Links.right_unique (b := b) hx hx'
  have hvalues : (QMap.values b.m_left).Perm b.m_right.keys := by
    refine (List.perm_ext_iff_of_nodup hinj.nodup_values Std.TreeMap.nodup_keys).mpr fun y => ?_
    rw [Std.TreeMap.mem_keys]
    refine Iff.trans ?_ containsRight_iff.symm
    rw [QMap.values, List.mem_map, Prod.exists]
    simp only [Std.TreeMap.mem_toList_iff_getElem?_eq_some, exists_eq_right]
    rfl
  rw [← Std.TreeMap.length_keys (t := b.m_right), ← hvalues.length_eq, QMap.values,
    List.length_map, Std.TreeMap.length_toList]

/-- Nothing is inserted where either side is taken. -/
def insert (b : BiMap α β) (x : α) (y : β) : BiMap α β :=
  if h : b.containsLeft x = true ∨ b.containsRight y = true then b
  else
    { m_left := b.m_left.insert x y
      m_right := b.m_right.insert y x
      inverse := by
        intro a c
        rw [not_or] at h
        have hleft : ∀ c, ¬b.m_left[x]? = some c := fun c hc => h.1 (containsLeft_iff.mpr ⟨c, hc⟩)
        have hright : ∀ a, ¬b.m_right[y]? = some a := fun a ha => h.2 (QMap.mem_of_getElem? ha)
        rw [QMap.getElem?_insert, QMap.getElem?_insert]
        by_cases hx : x = a <;> by_cases hy : y = c
        · rw [if_pos hx, if_pos hy, hx, hy]
          exact ⟨fun _ => rfl, fun _ => rfl⟩
        · rw [if_pos hx, if_neg hy, ← b.inverse, ← hx]
          exact ⟨fun heq => absurd (Option.some.inj heq) hy, fun hc => absurd hc (hleft c)⟩
        · rw [if_neg hx, if_pos hy, b.inverse, ← hy]
          exact ⟨fun ha => absurd ha (hright a), fun heq => absurd (Option.some.inj heq) hx⟩
        · rw [if_neg hx, if_neg hy]
          exact b.inverse a c }

def erase (b : BiMap α β) (x : α) (y : β) (h : b.Links x y) : BiMap α β where
  m_left := b.m_left.erase x
  m_right := b.m_right.erase y
  inverse := by
    intro a c
    rw [QMap.getElem?_erase, QMap.getElem?_erase]
    by_cases hx : x = a <;> by_cases hy : y = c
    · rw [if_pos hx, if_pos hy]
      exact ⟨nofun, nofun⟩
    · rw [if_pos hx, if_neg hy, ← b.inverse, ← hx]
      exact ⟨nofun, fun hc => absurd (Links.left_unique h hc) hy⟩
    · rw [if_neg hx, if_pos hy, b.inverse, ← hy]
      exact ⟨fun ha => absurd (Links.right_unique h (links_iff_right.mpr ha)) hx, nofun⟩
    · rw [if_neg hx, if_neg hy]
      exact b.inverse a c

def removeByLeft (b : BiMap α β) (x : α) : BiMap α β :=
  match h : b.m_left[x]? with
  | some y => b.erase x y h
  | none => b

def removeByRight (b : BiMap α β) (y : β) : BiMap α β :=
  match h : b.m_right[y]? with
  | some x => b.erase x y (links_iff_right.mpr h)
  | none => b

theorem removeByLeft_eq {b : BiMap α β} {x : α} {y : β} (h : b.Links x y) :
    b.removeByLeft x = b.erase x y h := by
  rw [removeByLeft]
  split
  · rename_i y' hy
    obtain rfl : y = y' := h.left_unique hy
    rfl
  · rename_i hnone
    rw [Links, hnone] at h
    cases h

theorem removeByLeft_eq_self {b : BiMap α β} {x : α} (h : ∀ y, ¬b.Links x y) :
    b.removeByLeft x = b := by
  rw [removeByLeft]
  split
  · rename_i y hy
    exact absurd hy (h y)
  · rfl

theorem removeByRight_eq {b : BiMap α β} {x : α} {y : β} (h : b.Links x y) :
    b.removeByRight y = b.erase x y h := by
  rw [removeByRight]
  split
  · rename_i x' hx
    obtain rfl : x = x' := h.right_unique (links_iff_right.mpr hx)
    rfl
  · rename_i hnone
    rw [links_iff_right, hnone] at h
    cases h

theorem removeByRight_eq_self {b : BiMap α β} {y : β} (h : ∀ x, ¬b.Links x y) :
    b.removeByRight y = b := by
  rw [removeByRight]
  split
  · rename_i x hx
    exact absurd (links_iff_right.mpr hx) (h x)
  · rfl

theorem links_insert {b : BiMap α β} {x a : α} {y c : β} (hx : ∀ y, ¬b.Links x y)
    (hy : ∀ x, ¬b.Links x y) :
    (b.insert x y).Links a c ↔ a = x ∧ c = y ∨ b.Links a c := by
  have hfree : ¬(b.containsLeft x = true ∨ b.containsRight y = true) := by
    rw [containsLeft_iff, containsRight_iff, not_or]
    exact ⟨fun ⟨y', h⟩ => hx y' h, fun ⟨x', h⟩ => hy x' h⟩
  rw [insert, dif_neg hfree, Links, QMap.getElem?_insert]
  by_cases hxa : x = a
  · rw [if_pos hxa, Option.some.injEq]
    subst hxa
    exact ⟨fun h => Or.inl ⟨rfl, h.symm⟩, fun h =>
      h.elim (fun h => h.2.symm) fun h => absurd h (hx c)⟩
  · rw [if_neg hxa]
    exact ⟨Or.inr, fun h => h.resolve_left fun h => hxa h.1.symm⟩

theorem links_erase {b : BiMap α β} {x a : α} {y c : β} (h : b.Links x y) :
    (b.erase x y h).Links a c ↔ b.Links a c ∧ a ≠ x := by
  change (b.m_left.erase x)[a]? = some c ↔ _
  rw [QMap.getElem?_erase_eq_some, and_comm, ne_comm]
  rfl

theorem links_removeByLeft {b : BiMap α β} {x a : α} {c : β} : (b.removeByLeft x).Links a c ↔
    b.Links a c ∧ a ≠ x := by
  rw [removeByLeft]
  split
  · exact links_erase _
  · rename_i hnone
    refine ⟨fun h => ⟨h, ?_⟩, And.left⟩
    rintro rfl
    rw [Links, hnone] at h
    cases h

theorem links_removeByRight {b : BiMap α β} {a : α} {y c : β} : (b.removeByRight y).Links a c ↔
    b.Links a c ∧ c ≠ y := by
  rw [removeByRight]
  split
  · rename_i x hx
    have hlink : b.Links x y := links_iff_right.mpr hx
    rw [links_erase hlink]
    refine and_congr_right fun hac => not_congr ⟨?_, ?_⟩
    · rintro rfl
      exact hac.left_unique hlink
    · rintro rfl
      exact hac.right_unique hlink
  · rename_i hnone
    refine ⟨fun h => ⟨h, ?_⟩, And.left⟩
    rintro rfl
    rw [links_iff_right, hnone] at h
    cases h

end BiMap

end ArmOd
