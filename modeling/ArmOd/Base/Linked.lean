import Mathlib

/-!
# Trees of linked items

Items that lie at addresses and know their children and their parent by them. A tree stands in a heap
when its items lie there with the right pointers. A step of a program turns the tree into another
one, takes what it allocates from the end of the heap and leaves alone what is not of the tree: such
steps compose, and a step at a child is one at the tree. What is taken out of the tree is not freed:
the heap is tiled by the tree and by what was taken out of it.
-/

namespace ArmOd

/-- An item with the addresses of its children and of its parent. -/
structure Linked (α : Type) where
  data : α
  children : List Nat := []
  parent : Option Nat := none
  deriving DecidableEq, Repr

/-- The items at the addresses where they were allocated. -/
abbrev Heap (α : Type) := List (Linked α)

namespace Heap

variable {α : Type}

/-- The heap with a new item, and where that lies. -/
def alloc (data : α) (parent : Option Nat) (heap : Heap α) : Heap α × Nat :=
  (heap ++ [{ data, parent := parent }], heap.length)

/-- What is read through a pointer that has to lead to an item. -/
def data (address : Nat) (heap : Heap α) : Option α := heap[address]?.map Linked.data

def childItems (address : Nat) (heap : Heap α) : Option (List Nat) :=
  heap[address]?.map Linked.children

def parent (address : Nat) (heap : Heap α) : Option (Option Nat) :=
  heap[address]?.map Linked.parent

/-- A write through such a pointer. -/
def write (f : Linked α → Linked α) (address : Nat) (heap : Heap α) : Option (Heap α) :=
  heap[address]?.map fun item => heap.set address (f item)

def updateData (data : α) : Nat → Heap α → Option (Heap α) :=
  write fun item => { item with data }

def appendChild (child : Nat) : Nat → Heap α → Option (Heap α) :=
  write fun item => { item with children := item.children ++ [child] }

def removeChild (child : Nat) : Nat → Heap α → Option (Heap α) :=
  write fun item => { item with children := item.children.filter fun other => other ≠ child }

variable {heap : Heap α} {item : Linked α} {address : Nat}

theorem write_eq (h : heap[address]? = some item) (f : Linked α → Linked α) :
    heap.write f address = some (heap.set address (f item)) := by
  rw [write, h, Option.map_some]

theorem lt_of_getElem? (h : heap[address]? = some item) : address < heap.length :=
  (List.getElem?_eq_some_iff.mp h).1

/-- Every pointer that led to an item leads to one with the same parent. -/
def Kept (heap heap' : Heap α) : Prop :=
  ∀ (address : Nat) (item : Linked α), heap[address]? = some item →
    ∃ item' : Linked α, heap'[address]? = some item' ∧ item'.parent = item.parent

variable {heap' heap'' : Heap α}

theorem Kept.refl (heap : Heap α) : Kept heap heap := fun _ item h => ⟨item, h, rfl⟩

theorem Kept.trans (h : Kept heap heap') (h' : Kept heap' heap'') : Kept heap heap'' := by
  intro address item hitem
  obtain ⟨item', hitem', hparent⟩ := h address item hitem
  obtain ⟨item'', hitem'', hparent'⟩ := h' address item' hitem'
  exact ⟨item'', hitem'', hparent'.trans hparent⟩

theorem kept_set (h : heap[address]? = some item) {item' : Linked α}
    (hparent : item'.parent = item.parent) : Kept heap (heap.set address item') := by
  intro other item'' hitem''
  by_cases hother : address = other
  · subst hother
    rw [h] at hitem''
    cases hitem''
    exact ⟨item', List.getElem?_set_self (lt_of_getElem? h), hparent⟩
  · exact ⟨item'', by rwa [List.getElem?_set_ne hother], rfl⟩

theorem kept_of_same (h : ∀ b : Nat, b < heap.length → heap'[b]? = heap[b]?) :
    Kept heap heap' := fun address item hitem =>
  ⟨item, (h address (lt_of_getElem? hitem)).trans hitem, rfl⟩

end Heap

/-- A tree with the address of every item. -/
inductive ItemTree (α : Type) where
  | node (address : Nat) (data : α) (children : List (ItemTree α))

namespace ItemTree

variable {α : Type}

def address : ItemTree α → Nat
  | node address _ _ => address

def addresses : ItemTree α → List Nat
  | node address _ children => address :: children.flatMap addresses

/-- The items of the tree lie in the heap, each with the pointers to its children and its parent. -/
def Stands (heap : Heap α) : Option Nat → ItemTree α → Prop
  | parent, node address data children =>
    heap[address]? = some { data, children := children.map ItemTree.address, parent } ∧
      ∀ child ∈ children, Stands heap (some address) child

/-- What holds of an item when it holds of its children holds of every tree. -/
@[elab_as_elim]
theorem forall_of_children {motive : ItemTree α → Prop}
    (item : ∀ a d below, (∀ c ∈ below, motive c) → motive (node a d below)) : ∀ t, motive t
  | node a d below => item a d below fun c _ => forall_of_children item c

variable {heap heap' heap'' : Heap α} {parent parent' : Option Nat} {t t' t'' c c' s : ItemTree α}
  {a : Nat} {d d' : α} {children front back : List (ItemTree α)}

theorem addresses_node : (node a d children).addresses = a :: children.flatMap addresses := by
  rw [addresses]

theorem stands_node : (node a d children).Stands heap parent ↔
    heap[a]? = some { data := d, children := children.map address, parent } ∧
      ∀ child ∈ children, child.Stands heap (some a) := by
  rw [Stands]

theorem address_mem (t : ItemTree α) : t.address ∈ t.addresses := by
  cases t
  rw [addresses_node]
  exact List.mem_cons_self

theorem mem_addresses_of_mem (hc : c ∈ children) {b : Nat} (hb : b ∈ c.addresses) :
    b ∈ (node a d children).addresses := by
  rw [addresses_node]
  exact List.mem_cons_of_mem a (List.mem_flatMap.mpr ⟨c, hc, hb⟩)

/-- A tree stands in every heap that has the same items at its addresses. -/
theorem Stands.frame (h : t.Stands heap parent)
    (hsame : ∀ b ∈ t.addresses, heap'[b]? = heap[b]?) : t.Stands heap' parent := by
  induction t using forall_of_children generalizing parent with
  | item a d children ih =>
      obtain ⟨hitem, hchildren⟩ := stands_node.mp h
      refine stands_node.mpr ⟨?_, fun child hchild => ?_⟩
      · rw [hsame a (address_mem (node a d children))]
        exact hitem
      · exact ih child hchild (hchildren child hchild) fun b hb =>
          hsame b (mem_addresses_of_mem hchild hb)

theorem Stands.lt (h : t.Stands heap parent) {b : Nat} (hb : b ∈ t.addresses) : b < heap.length := by
  induction t using forall_of_children generalizing parent with
  | item a d children ih =>
      obtain ⟨hitem, hchildren⟩ := stands_node.mp h
      rw [addresses_node, List.mem_cons, List.mem_flatMap] at hb
      rcases hb with rfl | ⟨child, hchild, hb⟩
      · exact Heap.lt_of_getElem? hitem
      · exact ih child hchild (hchildren child hchild) hb

/-! ### Steps -/

/-- From one heap to the other the tree becomes another one at the same address. Its new items were
allocated in between, and so was everything that was; what is not of the tree is the same. -/
structure Turns (heap heap' : Heap α) (parent : Option Nat) (t t' : ItemTree α) : Prop where
  stands : t'.Stands heap' parent
  address : t'.address = t.address
  grows : heap.length ≤ heap'.length
  addresses : t'.addresses.Perm
    (t.addresses ++ List.range' heap.length (heap'.length - heap.length))
  same : ∀ b, b < heap.length → b ∉ t.addresses → heap'[b]? = heap[b]?
  kept : Heap.Kept heap heap'

/-- A new tree has been built at the end of the heap. -/
structure Built (heap heap' : Heap α) (parent : Option Nat) (t : ItemTree α) : Prop where
  stands : t.Stands heap' parent
  grows : heap.length ≤ heap'.length
  addresses : t.addresses.Perm (List.range' heap.length (heap'.length - heap.length))
  same : ∀ b, b < heap.length → heap'[b]? = heap[b]?

theorem range'_append_range' {k l m : Nat} (hkl : k ≤ l) (hlm : l ≤ m) :
    List.range' k (l - k) ++ List.range' l (m - l) = List.range' k (m - k) := by
  have hstart : k + (l - k) = l := by omega
  have hlength : l - k + (m - l) = m - k := by omega
  have happend : List.range' k (l - k) ++ List.range' (k + (l - k)) (m - l) =
      List.range' k (l - k + (m - l)) := List.range'_append_1
  rwa [hstart, hlength] at happend

theorem Turns.refl (h : t.Stands heap parent) : Turns heap heap parent t t where
  stands := h
  address := rfl
  grows := le_rfl
  addresses := by
    rw [Nat.sub_self]
    exact (List.append_nil t.addresses).symm ▸ List.Perm.refl _
  same := fun _ _ _ => rfl
  kept := .refl heap

theorem Turns.mem_addresses_iff (h : Turns heap heap' parent t t') {b : Nat}
    (hb : b < heap.length) : b ∈ t'.addresses ↔ b ∈ t.addresses := by
  rw [h.addresses.mem_iff, List.mem_append, List.mem_range'_1]
  exact or_iff_left fun hnew => by omega

theorem Turns.trans (h : Turns heap heap' parent t t') (h' : Turns heap' heap'' parent t' t'') :
    Turns heap heap'' parent t t'' where
  stands := h'.stands
  address := h'.address.trans h.address
  grows := h.grows.trans h'.grows
  addresses := by
    rw [← range'_append_range' h.grows h'.grows, ← List.append_assoc]
    exact h'.addresses.trans (h.addresses.append_right _)
  same := fun b hb hnot => by
    rw [h'.same b (hb.trans_le h.grows) ((h.mem_addresses_iff hb).not.mpr hnot), h.same b hb hnot]
  kept := h.kept.trans h'.kept

theorem Turns.nodup (h : Turns heap heap' parent t t') (hstands : t.Stands heap parent)
    (hnodup : t.addresses.Nodup) : t'.addresses.Nodup := by
  rw [h.addresses.nodup_iff, List.nodup_append]
  refine ⟨hnodup, List.nodup_range', fun b hb b' hb' => ?_⟩
  have hlt := hstands.lt hb
  rw [List.mem_range'_1] at hb'
  omega

theorem Built.turns (h : Built heap heap' parent t) (h' : Turns heap' heap'' parent t t') :
    Built heap heap'' parent t' where
  stands := h'.stands
  grows := h.grows.trans h'.grows
  addresses := by
    rw [← range'_append_range' h.grows h'.grows]
    exact h'.addresses.trans (h.addresses.append_right _)
  same := fun b hb => by
    have hnew : b ∉ t.addresses := fun hmem => by
      rw [h.addresses.mem_iff, List.mem_range'_1] at hmem
      omega
    rw [h'.same b (hb.trans_le h.grows) hnew, h.same b hb]

theorem Built.nodup (h : Built heap heap' parent t) : t.addresses.Nodup :=
  h.addresses.nodup_iff.mpr List.nodup_range'

theorem Built.frame (h : Built heap heap' parent' s) (ht : t.Stands heap parent) :
    t.Stands heap' parent :=
  ht.frame fun b hb => h.same b (ht.lt hb)

/-! ### Reads and writes -/

theorem Stands.getElem? (h : (node a d children).Stands heap parent) :
    heap[a]? = some { data := d, children := children.map ItemTree.address, parent := parent } :=
  (stands_node.mp h).1

theorem Stands.data (h : (node a d children).Stands heap parent) : heap.data a = some d := by
  rw [Heap.data, h.getElem?, Option.map_some]

theorem Stands.childItems (h : (node a d children).Stands heap parent) :
    heap.childItems a = some (children.map ItemTree.address) := by
  rw [Heap.childItems, h.getElem?, Option.map_some]

theorem Stands.child (h : (node a d children).Stands heap parent) (hc : c ∈ children) :
    c.Stands heap (some a) :=
  (stands_node.mp h).2 c hc

theorem ne_of_not_mem {b : Nat} (hb : b ∉ (node a d children).addresses) : a ≠ b := fun hab =>
  hb (hab ▸ address_mem (node a d children))

theorem not_mem_of_nodup (hnodup : (node a d children).addresses.Nodup) :
    a ∉ children.flatMap addresses := by
  rw [addresses_node] at hnodup
  exact (List.nodup_cons.mp hnodup).1

theorem nodup_of_mem (hnodup : (node a d children).addresses.Nodup) (hc : c ∈ children) :
    c.addresses.Nodup := by
  rw [addresses_node] at hnodup
  exact (List.nodup_flatMap.mp (List.nodup_cons.mp hnodup).2).1 c hc

theorem stands_set (d : α) (parent : Option Nat) (ha : a < heap.length) (hnot : a ∉ children.flatMap addresses)
    (hchildren : ∀ c ∈ children, c.Stands heap (some a)) :
    (node a d children).Stands
      (heap.set a { data := d, children := children.map address, parent := parent }) parent := by
  refine stands_node.mpr ⟨List.getElem?_set_self ha, fun c hc => ?_⟩
  refine (hchildren c hc).frame fun b hb => List.getElem?_set_ne fun hab => hnot ?_
  rw [hab]
  exact List.mem_flatMap.mpr ⟨c, hc, hb⟩

theorem Stands.updateData (h : (node a d children).Stands heap parent)
    (hnodup : (node a d children).addresses.Nodup) (d' : α) :
    ∃ heap', heap.updateData d' a = some heap' ∧
      Turns heap heap' parent (node a d children) (node a d' children) := by
  refine ⟨_, Heap.write_eq h.getElem? _, ?_⟩
  exact {
    stands := stands_set d' parent (h.lt (address_mem _)) (not_mem_of_nodup hnodup) fun c hc =>
      h.child hc
    address := rfl
    grows := List.length_set.ge
    addresses := by
      rw [List.length_set, Nat.sub_self, List.range'_zero, List.append_nil, addresses_node,
        addresses_node]
    same := fun b _ hb => List.getElem?_set_ne (ne_of_not_mem hb)
    kept := Heap.kept_set h.getElem? rfl }

theorem built_alloc (heap : Heap α) (d : α) (parent : Option Nat) :
    Built heap (heap.alloc d parent).1 parent (node heap.length d []) where
  stands := stands_node.mpr ⟨List.getElem?_concat_length, fun _ hc => absurd hc List.not_mem_nil⟩
  grows := by
    rw [Heap.alloc, List.length_append]
    exact Nat.le_add_right _ _
  addresses := by
    rw [Heap.alloc, List.length_append, Nat.add_sub_cancel_left, addresses_node]
    exact List.Perm.refl _
  same := fun b hb => List.getElem?_append_left hb

/-- A tree that was built for an item is made the last of its children. -/
theorem Built.appendChild (hs : Built heap heap' (some a) s)
    (h : (node a d children).Stands heap parent)
    (hnodup : (node a d children).addresses.Nodup) :
    ∃ heap'', heap'.appendChild s.address a = some heap'' ∧
      Turns heap heap'' parent (node a d children) (node a d (children ++ [s])) := by
  have h' := hs.frame h
  have hnot : a ∉ (children ++ [s]).flatMap ItemTree.addresses := by
    rw [List.flatMap_append, List.mem_append, List.flatMap_singleton]
    refine not_or.mpr ⟨not_mem_of_nodup hnodup, fun hmem => ?_⟩
    rw [hs.addresses.mem_iff, List.mem_range'_1] at hmem
    exact absurd (h.lt (address_mem (node a d children))) (not_lt.mpr hmem.1)
  refine ⟨_, Heap.write_eq h'.getElem? _, ?_⟩
  refine {
    stands := ?_, address := rfl, grows := ?_, addresses := ?_, same := ?_
    kept := (Heap.kept_of_same hs.same).trans (Heap.kept_set h'.getElem? rfl) }
  · have hset := stands_set d parent (h'.lt (address_mem _)) hnot fun c hc => ?_
    · rwa [List.map_append, List.map_singleton] at hset
    · rcases List.mem_append.mp hc with hc | hc
      · exact h'.child hc
      · rw [List.mem_singleton.mp hc]
        exact hs.stands
  · rw [List.length_set]
    exact hs.grows
  · rw [List.length_set, addresses_node, addresses_node, List.flatMap_append,
      List.flatMap_singleton, List.cons_append]
    exact (hs.addresses.append_left _).cons a
  · intro b hb hmem
    rw [List.getElem?_set_ne (ne_of_not_mem hmem)]
    exact hs.same b hb

theorem Turns.child (hc : Turns heap heap' (some a) c c')
    (h : (node a d (front ++ c :: back)).Stands heap parent)
    (hnodup : (node a d (front ++ c :: back)).addresses.Nodup) :
    Turns heap heap' parent (node a d (front ++ c :: back)) (node a d (front ++ c' :: back)) := by
  have haddresses (x : ItemTree α) : (node a d (front ++ x :: back)).addresses.Perm
      (x.addresses ++ a :: (front.flatMap ItemTree.addresses ++ back.flatMap ItemTree.addresses)) := by
    rw [addresses_node, List.flatMap_append, List.flatMap_cons]
    refine List.Perm.trans ?_ List.perm_middle.symm
    refine List.Perm.cons a ?_
    rw [← List.append_assoc, ← List.append_assoc]
    exact List.perm_append_comm.append_right _
  have hdisjoint := List.nodup_append.mp ((haddresses c).nodup_iff.mp hnodup)
  have hsame : ∀ b ∈ a :: (front.flatMap ItemTree.addresses ++ back.flatMap ItemTree.addresses),
      heap'[b]? = heap[b]? := by
    intro b hb
    refine hc.same b (h.lt ?_) fun hmem => hdisjoint.2.2 b hmem b hb rfl
    exact (haddresses c).mem_iff.mpr (List.mem_append_right _ hb)
  have hkept : ∀ x ∈ front ++ back, x.Stands heap' (some a) := by
    intro x hx
    have hmem : x ∈ front ++ c :: back := by
      rw [List.mem_append] at hx ⊢
      exact hx.imp_right (List.mem_cons_of_mem c)
    refine (h.child hmem).frame fun b hb => hsame b (List.mem_cons_of_mem a ?_)
    rw [← List.flatMap_append]
    exact List.mem_flatMap.mpr ⟨x, hx, hb⟩
  refine {
    stands := ?_, address := rfl, grows := hc.grows, addresses := ?_, same := ?_, kept := hc.kept }
  · refine stands_node.mpr ⟨?_, fun x hx => ?_⟩
    · rw [hsame a List.mem_cons_self, h.getElem?, List.map_append, List.map_append, List.map_cons,
        List.map_cons, hc.address]
    · rcases List.mem_append.mp hx with hx | hx
      · exact hkept x (List.mem_append_left _ hx)
      · rcases List.mem_cons.mp hx with rfl | hx
        · exact hc.stands
        · exact hkept x (List.mem_append_right _ hx)
  · refine (haddresses c').trans ((hc.addresses.append_right _).trans ?_)
    rw [List.append_assoc]
    refine (List.perm_append_comm.append_left _).trans ?_
    rw [← List.append_assoc]
    exact (haddresses c).symm.append_right _
  · exact fun b hb hmem => hc.same b hb fun hbc => hmem
      (mem_addresses_of_mem (List.mem_append_right _ List.mem_cons_self) hbc)

/-! ### The items of a tree -/

/-- The tree below an item of a tree. -/
inductive Within (root : ItemTree α) : ItemTree α → Prop where
  | root : Within root root
  | child {a : Nat} {d : α} {children : List (ItemTree α)} {c : ItemTree α} :
      Within root (node a d children) → c ∈ children → Within root c

variable {root root' : ItemTree α}

theorem Within.stands (h : Within root t) (hroot : root.Stands heap parent) :
    ∃ parent, t.Stands heap parent := by
  induction h with
  | root => exact ⟨parent, hroot⟩
  | @child a d children c _ hc ih =>
      obtain ⟨parent, hstands⟩ := ih
      exact ⟨some a, hstands.child hc⟩

theorem Within.nodup (h : Within root t) (hroot : root.addresses.Nodup) : t.addresses.Nodup := by
  induction h with
  | root => exact hroot
  | child _ hc ih => exact nodup_of_mem ih hc

theorem Within.addresses_subset (h : Within root t) : t.addresses ⊆ root.addresses := by
  induction h with
  | root => exact List.Subset.refl _
  | child _ hc ih => exact fun b hb => ih (mem_addresses_of_mem hc hb)

theorem Within.eq_or_below (h : Within (node a d children) t) :
    t = node a d children ∨ ∃ c ∈ children, Within c t := by
  induction h with
  | root => exact Or.inl rfl
  | @child b e below c _ hc ih =>
      rcases ih with heq | ⟨top, htop, hwithin⟩
      · cases heq
        exact Or.inr ⟨c, hc, .root⟩
      · exact Or.inr ⟨top, htop, .child hwithin hc⟩

theorem Within.child_ne (h : Within root (node a d children)) (hc : c ∈ children)
    (hroot : root.addresses.Nodup) : c.address ≠ root.address := by
  cases root with
  | node b e below =>
      have hbelow : ∃ top ∈ below, Within top c := by
        rcases h.eq_or_below with heq | ⟨top, htop, hwithin⟩
        · cases heq
          exact ⟨c, hc, .root⟩
        · exact ⟨top, htop, .child hwithin hc⟩
      obtain ⟨top, htop, hwithin⟩ := hbelow
      intro heq
      refine not_mem_of_nodup hroot (List.mem_flatMap.mpr ⟨top, htop, ?_⟩)
      rw [ItemTree.address] at heq
      rw [← heq]
      exact hwithin.addresses_subset (address_mem c)

/-! ### What was taken out -/

theorem filter_key_ne {β κ : Type} [DecidableEq κ] (key : β → κ) {front back : List β} {b : β}
    (hnodup : ((front ++ b :: back).map key).Nodup) :
    (front ++ b :: back).filter (fun other => key other ≠ key b) = front ++ back := by
  rw [List.map_append, List.map_cons, List.nodup_middle, ← List.map_append, List.nodup_cons] at hnodup
  rw [List.filter_append, List.filter_cons_of_neg (by simp), ← List.filter_append,
    List.filter_eq_self]
  exact fun other hother => decide_eq_true fun heq => hnodup.1 (heq ▸ List.mem_map_of_mem hother)

/-- Every address of the heap is one of the tree, or one of a tree that was taken out from below its
root, and no address is there twice. -/
structure Tiles (heap : Heap α) (root : ItemTree α) (gone : List (ItemTree α)) : Prop where
  stands : root.Stands heap none
  taken : ∀ t ∈ gone, t.Stands heap (some root.address)
  addresses : (root.addresses ++ gone.flatMap ItemTree.addresses).Perm (List.range heap.length)

variable {gone : List (ItemTree α)}

theorem Tiles.nodup_append (h : Tiles heap root gone) :
    (root.addresses ++ gone.flatMap ItemTree.addresses).Nodup :=
  h.addresses.nodup_iff.mpr List.nodup_range

theorem Tiles.nodup (h : Tiles heap root gone) : root.addresses.Nodup :=
  (List.nodup_append.mp h.nodup_append).1

theorem Tiles.turns (h : Tiles heap root gone) (hturns : Turns heap heap' none root root') :
    Tiles heap' root' gone where
  stands := hturns.stands
  taken := fun t ht => by
    rw [hturns.address]
    refine (h.taken t ht).frame fun b hb => hturns.same b ((h.taken t ht).lt hb) fun hroot => ?_
    exact (List.nodup_append.mp h.nodup_append).2.2 b hroot b
      (List.mem_flatMap.mpr ⟨t, ht, hb⟩) rfl
  addresses := by
    have hrange : (List.range heap.length ++
        List.range' heap.length (heap'.length - heap.length)) = List.range heap'.length := by
      rw [List.range_eq_range', List.range_eq_range']
      exact range'_append_range' (Nat.zero_le _) hturns.grows
    rw [← hrange]
    refine (hturns.addresses.append_right _).trans ?_
    rw [List.append_assoc]
    refine (List.perm_append_comm.append_left _).trans ?_
    rw [← List.append_assoc]
    exact h.addresses.append_right _

theorem nodup_map_address (hnodup : (node a d children).addresses.Nodup) :
    (children.map ItemTree.address).Nodup := by
  rw [addresses_node, List.nodup_cons, List.nodup_flatMap] at hnodup
  rw [List.Nodup, List.pairwise_map]
  refine hnodup.2.2.imp fun hdisjoint heq => hdisjoint (address_mem _) ?_
  rw [heq]
  exact address_mem _

/-- A child of the root is taken out of the list of its children, and stays where it is. -/
theorem Tiles.removeChild (h : Tiles heap (node a d (front ++ c :: back)) gone) :
    ∃ heap', heap.removeChild c.address a = some heap' ∧
      Tiles heap' (node a d (front ++ back)) (c :: gone) ∧ Heap.Kept heap heap' := by
  have hfilter : ((front ++ c :: back).map ItemTree.address).filter
      (fun other => other ≠ c.address) = (front ++ back).map ItemTree.address := by
    rw [List.filter_map]
    exact congrArg _ (filter_key_ne ItemTree.address (nodup_map_address h.nodup))
  have hperm : ((node a d (front ++ back)).addresses ++ (c :: gone).flatMap ItemTree.addresses).Perm
      ((node a d (front ++ c :: back)).addresses ++ gone.flatMap ItemTree.addresses) := by
    simp only [addresses_node, List.flatMap_cons, List.flatMap_append, List.cons_append,
      List.append_assoc]
    exact ((List.perm_append_comm_assoc _ _ _).append_left _).cons a
  have hmem : ∀ {x}, x ∈ front ++ back → x ∈ front ++ c :: back := fun hx => by
    rw [List.mem_append] at hx ⊢
    exact hx.imp_right (List.mem_cons_of_mem c)
  have hnot : a ∉ (front ++ back).flatMap ItemTree.addresses := fun hb =>
    not_mem_of_nodup h.nodup <| by
      obtain ⟨x, hx, hb⟩ := List.mem_flatMap.mp hb
      exact List.mem_flatMap.mpr ⟨x, hmem hx, hb⟩
  refine ⟨_, Heap.write_eq h.stands.getElem? _, ?_, Heap.kept_set h.stands.getElem? rfl⟩
  refine { stands := ?_, taken := fun t ht => ?_, addresses := ?_ }
  · rw [hfilter]
    exact stands_set d none (h.stands.lt (address_mem _)) hnot fun x hx => h.stands.child (hmem hx)
  · -- what was taken out has no item at the root
    have ha : a ∉ t.addresses := fun hat => by
      have hdisjoint := (List.nodup_append.mp (hperm.nodup_iff.mpr h.nodup_append)).2.2
      exact hdisjoint a (address_mem _) a (List.mem_flatMap.mpr ⟨t, ht, hat⟩) rfl
    have hstands : t.Stands heap (some a) := by
      rcases List.mem_cons.mp ht with rfl | ht
      · exact h.stands.child (List.mem_append_right _ List.mem_cons_self)
      · exact h.taken t ht
    exact hstands.frame fun b hb => List.getElem?_set_ne (ne_of_mem_of_not_mem hb ha).symm
  · rw [List.length_set]
    exact hperm.trans h.addresses

end ItemTree

end ArmOd
