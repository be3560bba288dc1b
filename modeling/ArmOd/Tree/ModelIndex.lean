import ArmOd.Tree.UavTreeHeap

/-!
# The indexes of the UAV tree

A view knows the tree by indexes: a row, a column and a pointer to an item. It gets them from `index`
and `parent` and hands them back, also after the tree has changed. In every tree that is reached
`parent` undoes `index`, up to the column; and as no item is ever deleted, an index that was handed
out once may be handed back at any time.
-/

namespace ArmOd

structure QModelIndex where
  row : Int := -1
  column : Int := -1
  internalPointer : Option Nat := none
  deriving DecidableEq, Repr

def QModelIndex.isValid (index : QModelIndex) : Bool :=
  decide (0 ≤ index.row ∧ 0 ≤ index.column)

/-- `index.sibling( index.row(), 0 )`, where the index is valid. -/
def QModelIndex.first (index : QModelIndex) : QModelIndex :=
  if index.isValid then { index with column := 0 } else {}

namespace UavTreeHeap

def rowCount (parent : QModelIndex) (m : UavTreeHeap) : Option Nat :=
  let parentItem := if parent.isValid then parent.internalPointer else some m.m_rootItem
  parentItem.elim (some 0) fun parentItem => (m.items.childItems parentItem).map List.length

/-- `hasIndex`, with the number of headers for the columns. -/
def hasIndex (columnCount : Nat) (row column : Int) (parent : QModelIndex) (m : UavTreeHeap) :
    Option Bool :=
  if row < 0 ∨ column < 0 then some false
  else (m.rowCount parent).map fun rows : Nat => decide (row < rows ∧ column < columnCount)

def index (columnCount : Nat) (row column : Int) (parent : QModelIndex) (m : UavTreeHeap) :
    Option QModelIndex := do
  let isThere ← m.hasIndex columnCount row column parent
  if !isThere then return {}
  let parentItem := if !parent.isValid then some m.m_rootItem else parent.internalPointer
  parentItem.elim (some {}) fun parentItem => do
    let children ← m.items.childItems parentItem
    return children[row.toNat]?.elim {} fun childItem =>
      { row, column, internalPointer := some childItem }

/-- `TreeItem::row`. An item that is not among the children of its parent has the row -1. -/
def rowOf (item : Nat) (m : UavTreeHeap) : Option Int := do
  let parentItem ← m.items.parent item
  parentItem.elim (some 0) fun parentItem => do
    let children ← m.items.childItems parentItem
    return if item ∈ children then (children.idxOf item : Int) else -1

/-- An item without a parent is asked for the row of its parent through a null pointer. -/
def parent (index : QModelIndex) (m : UavTreeHeap) : Option QModelIndex :=
  if !index.isValid then some {}
  else index.internalPointer.elim (some {}) fun childItem => do
    let parentItem ← m.items.parent childItem
    if parentItem = some m.m_rootItem then return {}
    let parentItem ← parentItem
    let row ← m.rowOf parentItem
    return { row, column := 0, internalPointer := some parentItem }

/-- The indexes that a view can get from the model as it is. -/
inductive Handed (columnCount : Nat) (m : UavTreeHeap) : QModelIndex → Prop where
  | root : Handed columnCount m {}
  | index {row column : Int} {parent i : QModelIndex} : Handed columnCount m parent →
      m.index columnCount row column parent = some i → Handed columnCount m i
  | parent {i p : QModelIndex} : Handed columnCount m i → m.parent i = some p →
      Handed columnCount m p

/-! ### Where an index leads -/

open ItemTree Heap UavTreeModel

/-- The index is the one of an item below the root, in its row. -/
structure Located (root : ItemTree BaseItemData) (i : QModelIndex) (t : ItemTree BaseItemData) :
    Prop where
  column : 0 ≤ i.column
  pointer : i.internalPointer = some t.address
  place : ∃ a d children, ∃ r : Nat,
    Within root (node a d children) ∧ children[r]? = some t ∧ i.row = r

/-- The index of an item below the root, or the one that stands for the root. -/
def Leads (root : ItemTree BaseItemData) (i : QModelIndex) (t : ItemTree BaseItemData) : Prop :=
  (i = {} ∧ t = root) ∨ Located root i t

variable {columnCount : Nat} {m : UavTreeHeap} {i : QModelIndex} {a b : Nat} {d e : BaseItemData}
  {stations gone children : List (ItemTree BaseItemData)} {root t c : ItemTree BaseItemData}
  {row column : Int} {r : Nat}

theorem Located.isValid (h : Located root i t) : i.isValid = true := by
  obtain ⟨-, -, -, r, -, -, hrow⟩ := h.place
  rw [QModelIndex.isValid, hrow]
  exact decide_eq_true ⟨Int.natCast_nonneg r, h.column⟩

theorem Located.within (h : Located root i t) : Within root t := by
  obtain ⟨a, d, children, r, hwithin, hget, -⟩ := h.place
  exact hwithin.child (List.mem_of_getElem? hget)

theorem Leads.within (h : Leads root i t) : Within root t := by
  rcases h with ⟨-, rfl⟩ | h
  · exact .root
  · exact h.within

theorem Leads.pointer (h : Leads root i t) (hroot : m.m_rootItem = root.address) :
    (if i.isValid then i.internalPointer else some m.m_rootItem) = some t.address := by
  rcases h with ⟨rfl, rfl⟩ | h
  · rw [hroot]
    rfl
  · rw [if_pos h.isValid, h.pointer]

theorem Leads.childItems (h : Leads root i (node a d children)) (hroot : root.Stands m.items none) :
    m.items.childItems a = some (children.map ItemTree.address) := by
  obtain ⟨parent, hstands⟩ := h.within.stands hroot
  exact hstands.childItems

theorem Leads.rowCount (h : Leads root i (node a d children)) (hroot : root.Stands m.items none)
    (haddress : m.m_rootItem = root.address) : m.rowCount i = some children.length := by
  rw [UavTreeHeap.rowCount, h.pointer haddress, Option.elim_some, ItemTree.address,
    h.childItems hroot, Option.map_some, List.length_map]

/-- `index` has an outcome: the child, where there is one and the column is one of the model's. -/
theorem Leads.index (h : Leads root i (node a d children)) (hroot : root.Stands m.items none)
    (haddress : m.m_rootItem = root.address) (columnCount : Nat) (row column : Int) :
    (∃ c, 0 ≤ row ∧ children[row.toNat]? = some c ∧ 0 ≤ column ∧ column < columnCount ∧
      m.index columnCount row column i =
        some { row, column, internalPointer := some c.address }) ∨
    (¬(0 ≤ row ∧ row < children.length ∧ 0 ≤ column ∧ column < columnCount) ∧
      m.index columnCount row column i = some {}) := by
  have hhas : m.hasIndex columnCount row column i =
      some (decide (0 ≤ row ∧ row < children.length ∧ 0 ≤ column ∧ column < columnCount)) := by
    rw [hasIndex, h.rowCount hroot haddress, Option.map_some]
    split
    · exact congrArg some (decide_eq_false (by omega)).symm
    · exact congrArg some (decide_eq_decide.mpr (by omega))
  rw [UavTreeHeap.index, hhas]
  by_cases hin : 0 ≤ row ∧ row < children.length ∧ 0 ≤ column ∧ column < columnCount
  · have hlt : row.toNat < children.length := by omega
    have hget := List.getElem?_eq_getElem hlt
    have hpointer : (if !i.isValid then some m.m_rootItem else i.internalPointer) =
        some (node a d children).address := by
      rw [← h.pointer haddress]
      cases i.isValid <;> rfl
    refine Or.inl ⟨_, hin.1, hget, hin.2.2.1, hin.2.2.2, ?_⟩
    rw [decide_eq_true hin, Option.bind_eq_bind, Option.bind_some, if_neg (fun h => nomatch h),
      hpointer, Option.elim_some, ItemTree.address, h.childItems hroot, Option.bind_eq_bind,
      Option.bind_some, List.getElem?_map, hget]
    rfl
  · exact Or.inr ⟨hin, by rw [decide_eq_false hin]; rfl⟩

theorem parent_of_stands {parent : Option Nat} (h : t.Stands m.items parent) :
    m.items.parent t.address = some parent := by
  cases t with
  | node a d children => rw [ItemTree.address, Heap.parent, h.getElem?, Option.map_some]

theorem rowOf_child (hwithin : Within root (node a d children)) (hget : children[r]? = some c)
    (hroot : root.Stands m.items none) (hnodup : root.addresses.Nodup) :
    m.rowOf c.address = some (r : Int) := by
  obtain ⟨parent, hstands⟩ := hwithin.stands hroot
  have hc := hstands.child (List.mem_of_getElem? hget)
  have hmap : (children.map ItemTree.address)[r]? = some c.address := by
    rw [List.getElem?_map, hget, Option.map_some]
  obtain ⟨hlt, hr⟩ := List.getElem?_eq_some_iff.mp hmap
  have hidx := (nodup_map_address (hwithin.nodup hnodup)).idxOf_getElem r hlt
  rw [hr] at hidx
  rw [rowOf, parent_of_stands hc, Option.bind_eq_bind, Option.bind_some, Option.elim_some,
    hstands.childItems, Option.bind_eq_bind, Option.bind_some,
    if_pos (List.mem_of_getElem? hmap), hidx]
  rfl

theorem Leads.parent (h : Leads root i (node a d children)) (hget : children[r]? = some c)
    (hroot : root.Stands m.items none) (haddress : m.m_rootItem = root.address)
    (hnodup : root.addresses.Nodup) (column : Int) (hcolumn : 0 ≤ column) :
    m.parent { row := r, column, internalPointer := some c.address } = some i.first := by
  have hvalid : QModelIndex.isValid { row := r, column, internalPointer := some c.address } = true :=
    decide_eq_true ⟨Int.natCast_nonneg r, hcolumn⟩
  obtain ⟨parent, hstands⟩ := h.within.stands hroot
  have hc := hstands.child (List.mem_of_getElem? hget)
  rw [UavTreeHeap.parent, hvalid, if_neg (fun h => nomatch h), Option.elim_some,
    parent_of_stands hc, Option.bind_eq_bind, Option.bind_some]
  rcases h with ⟨rfl, rfl⟩ | h
  · rw [haddress, ItemTree.address, if_pos rfl]
    rfl
  · have hvalid := h.isValid
    have hpointer := h.pointer
    obtain ⟨b, e, below, s, hwithin, hget', hrow⟩ := h.place
    have hne := hwithin.child_ne (List.mem_of_getElem? hget') hnodup
    have hrowOf := rowOf_child hwithin hget' hroot hnodup
    rw [ItemTree.address] at hne hrowOf hpointer
    rw [haddress, if_neg (fun heq => hne (Option.some.inj heq)), Option.bind_eq_bind,
      Option.bind_some, hrowOf, Option.bind_eq_bind, Option.bind_some, QModelIndex.first,
      if_pos hvalid]
    cases i
    cases hrow
    cases hpointer
    rfl

theorem Leads.first (h : Leads root i t) : Leads root i.first t := by
  rcases h with ⟨rfl, rfl⟩ | h
  · exact Or.inl ⟨rfl, rfl⟩
  · rw [QModelIndex.first, if_pos h.isValid]
    exact Or.inr ⟨le_rfl, h.pointer, h.place⟩

theorem exists_leads (h : Within root t) : ∃ i, Leads root i t := by
  cases h with
  | root => exact ⟨{}, Or.inl ⟨rfl, rfl⟩⟩
  | @child a d children _ hwithin hc =>
      obtain ⟨r, hr⟩ := List.getElem?_of_mem hc
      exact ⟨{ row := r, column := 0, internalPointer := some t.address },
        Or.inr ⟨le_rfl, rfl, a, d, children, r, hwithin, hr, rfl⟩⟩

theorem Handed.leads (h : Handed columnCount m i) (hroot : root.Stands m.items none)
    (haddress : m.m_rootItem = root.address) (hnodup : root.addresses.Nodup) :
    ∃ t, Leads root i t := by
  induction h with
  | root => exact ⟨root, Or.inl ⟨rfl, rfl⟩⟩
  | @index row column parent i _ hindex ih =>
      obtain ⟨⟨a, d, children⟩, hleads⟩ := ih
      rcases hleads.index hroot haddress columnCount row column with
        ⟨c, hrow, hget, hcolumn, -, heq⟩ | ⟨-, heq⟩
      · cases hindex.symm.trans heq
        exact ⟨c, Or.inr ⟨hcolumn, rfl, a, d, children, row.toNat, hleads.within, hget, by
          simpa using hrow⟩⟩
      · cases hindex.symm.trans heq
        exact ⟨root, Or.inl ⟨rfl, rfl⟩⟩
  | @parent i p _ hparent ih =>
      obtain ⟨t, hleads⟩ := ih
      rcases hleads with ⟨rfl, -⟩ | hlocated
      · cases hparent
        exact ⟨root, Or.inl ⟨rfl, rfl⟩⟩
      · obtain ⟨a, d, children, r, hwithin, hget, hrow⟩ := hlocated.place
        obtain ⟨above, habove⟩ := exists_leads hwithin
        have heq := habove.parent hget hroot haddress hnodup i.column hlocated.column
        have hi : i = { row := r, column := i.column, internalPointer := some t.address } := by
          rw [← hrow, ← hlocated.pointer]
        rw [hi, heq] at hparent
        cases hparent
        exact ⟨_, habove.first⟩

variable (sprintf4 : Double → String) (role : String)

/-- **In every tree that is reached, whatever index a view has: the number of its rows is told, and
`index` and `parent` have an outcome.** Below it there is one index for each row and column, whose
item tells the row, and the parent of it is the index again, in the first column. -/
theorem index_parent (notifications : List TreeNotification) (columnCount : Nat) :
    ∃ m, notifications.foldlM (notify sprintf4) { m_targetRole := role } = some m ∧
      ∀ i, Handed columnCount m i → ∃ n, m.rowCount i = some n ∧ ∀ row column : Int,
        ∃ j, m.index columnCount row column i = some j ∧
          (j.isValid = true ↔ 0 ≤ row ∧ row < n ∧ 0 ≤ column ∧ column < columnCount) ∧
          (j.isValid = true → j.row = row ∧ j.column = column ∧
            j.internalPointer.bind m.rowOf = some row ∧ m.parent j = some i.first) := by
  obtain ⟨m, stations, gone, hrun, hholds, -⟩ := (holds_start role).run sprintf4 notifications
  have hroot := hholds.tiles.stands
  have hnodup := hholds.tiles.nodup
  refine ⟨m, hrun, fun i hi => ?_⟩
  obtain ⟨⟨a, d, children⟩, hleads⟩ := hi.leads hroot rfl hnodup
  refine ⟨children.length, hleads.rowCount hroot rfl, fun row column => ?_⟩
  rcases hleads.index hroot rfl columnCount row column with
    ⟨c, hrow, hget, hcolumn, hcolumns, heq⟩ | ⟨hout, heq⟩
  · have hnat : (row.toNat : Int) = row := Int.toNat_of_nonneg hrow
    have hlt := (List.getElem?_eq_some_iff.mp hget).1
    have hparent := hleads.parent hget hroot rfl hnodup column hcolumn
    have hrowOf := rowOf_child hleads.within hget hroot hnodup
    rw [hnat] at hparent hrowOf
    refine ⟨_, heq, ⟨fun _ => ⟨hrow, by omega, hcolumn, hcolumns⟩, fun _ => ?_⟩, fun _ => ?_⟩
    · exact decide_eq_true ⟨hrow, hcolumn⟩
    · exact ⟨rfl, rfl, hrowOf, hparent⟩
  · have hinvalid : ¬({} : QModelIndex).isValid = true := fun h => nomatch h
    exact ⟨_, heq, iff_of_false hinvalid hout, fun h => absurd h hinvalid⟩

/-! ### Indexes that were kept -/

section

variable {m' : UavTreeHeap} {p : QModelIndex} {address n : Nat} {items items' : Heap BaseItemData}

theorem childItems_of_kept (hkept : Kept items items') {below : List Nat}
    (h : items.childItems address = some below) : ∃ below', items'.childItems address = some below' := by
  obtain ⟨item, hitem, -⟩ := Option.map_eq_some_iff.mp h
  obtain ⟨item', hitem', -⟩ := hkept address item hitem
  exact ⟨item'.children, by rw [Heap.childItems, hitem', Option.map_some]⟩

theorem parent_of_kept (hkept : Kept items items') {above : Option Nat}
    (h : items.parent address = some above) : items'.parent address = some above := by
  obtain ⟨item, hitem, habove⟩ := Option.map_eq_some_iff.mp h
  obtain ⟨item', hitem', hparent⟩ := hkept address item hitem
  rw [Heap.parent, hitem', Option.map_some, hparent, habove]

theorem rowCount_of_kept (hkept : Kept m.items m'.items) (hroot : m'.m_rootItem = m.m_rootItem)
    (h : m.rowCount i = some n) : ∃ n', m'.rowCount i = some n' := by
  rw [rowCount] at h
  rw [rowCount, hroot]
  cases hitem : (if i.isValid then i.internalPointer else some m.m_rootItem) with
  | none => exact ⟨0, rfl⟩
  | some item =>
      rw [hitem, Option.elim_some] at h
      obtain ⟨below, hbelow, -⟩ := Option.map_eq_some_iff.mp h
      obtain ⟨below', hbelow'⟩ := childItems_of_kept hkept hbelow
      exact ⟨below'.length, by rw [Option.elim_some, hbelow', Option.map_some]⟩

theorem rowOf_of_kept (hkept : Kept m.items m'.items) (h : m.rowOf address = some row) :
    ∃ row', m'.rowOf address = some row' := by
  rw [rowOf] at h
  obtain ⟨above, habove, h⟩ := Option.bind_eq_some_iff.mp h
  rw [rowOf, parent_of_kept hkept habove, Option.bind_eq_bind, Option.bind_some]
  cases above with
  | none => exact ⟨0, rfl⟩
  | some above =>
      obtain ⟨below, hbelow, -⟩ := Option.bind_eq_some_iff.mp h
      obtain ⟨below', hbelow'⟩ := childItems_of_kept hkept hbelow
      rw [Option.elim_some, hbelow']
      exact ⟨_, rfl⟩

theorem parent_index_of_kept (hkept : Kept m.items m'.items) (hroot : m'.m_rootItem = m.m_rootItem)
    (h : m.parent i = some p) :
    ∃ p', m'.parent i = some p' ∧ p'.internalPointer = p.internalPointer := by
  rw [UavTreeHeap.parent] at h
  rw [UavTreeHeap.parent, hroot]
  by_cases hvalid : (!i.isValid) = true
  · rw [if_pos hvalid] at h ⊢
    exact ⟨p, h, rfl⟩
  · rw [if_neg hvalid] at h ⊢
    cases hpointer : i.internalPointer with
    | none =>
        rw [hpointer] at h
        exact ⟨p, h, rfl⟩
    | some item =>
        rw [hpointer, Option.elim_some] at h
        obtain ⟨above, habove, h⟩ := Option.bind_eq_some_iff.mp h
        rw [Option.elim_some, parent_of_kept hkept habove, Option.bind_eq_bind, Option.bind_some]
        by_cases htop : above = some m.m_rootItem
        · rw [if_pos htop] at h ⊢
          exact ⟨p, h, rfl⟩
        · rw [if_neg htop] at h ⊢
          obtain ⟨top, habove', h⟩ := Option.bind_eq_some_iff.mp h
          obtain ⟨row, hrow, h⟩ := Option.bind_eq_some_iff.mp h
          obtain ⟨row', hrow'⟩ := rowOf_of_kept hkept hrow
          cases h
          refine ⟨{ row := row', column := 0, internalPointer := some top }, ?_, rfl⟩
          rw [habove', Option.bind_eq_bind, Option.bind_some, hrow']
          rfl

end

theorem Handed.exists_parent (h : Handed columnCount m i) (hroot : root.Stands m.items none)
    (haddress : m.m_rootItem = root.address) (hnodup : root.addresses.Nodup) :
    ∃ p, m.parent i = some p := by
  obtain ⟨t, hleads⟩ := h.leads hroot haddress hnodup
  rcases hleads with ⟨rfl, -⟩ | hlocated
  · exact ⟨{}, rfl⟩
  · obtain ⟨a, d, children, r, hwithin, hget, hrow⟩ := hlocated.place
    obtain ⟨above, habove⟩ := exists_leads hwithin
    have heq := habove.parent hget hroot haddress hnodup i.column hlocated.column
    rw [← hrow, ← hlocated.pointer] at heq
    exact ⟨_, heq⟩

/-- **An index that was handed out in one tree may be handed back in any later one**: the functions of
the model have an outcome, and its parent is the item that it was. -/
theorem index_kept (before after : List TreeNotification) (columnCount : Nat) :
    ∃ m m', before.foldlM (notify sprintf4) { m_targetRole := role } = some m ∧
      after.foldlM (notify sprintf4) m = some m' ∧
      ∀ i, Handed columnCount m i → (∃ n, m'.rowCount i = some n) ∧
        ∃ p p', m.parent i = some p ∧ m'.parent i = some p' ∧
          p'.internalPointer = p.internalPointer := by
  obtain ⟨m, stations, gone, hrun, hholds, -⟩ := (holds_start role).run sprintf4 before
  obtain ⟨m', _, _, hrun', hholds', hkept⟩ := hholds.run sprintf4 after
  have hroot := hholds.tiles.stands
  have hnodup := hholds.tiles.nodup
  have hsame := hholds'.root.trans hholds.root.symm
  refine ⟨m, m', hrun, hrun', fun i hi => ?_⟩
  obtain ⟨⟨a, d, children⟩, hleads⟩ := hi.leads hroot rfl hnodup
  obtain ⟨p, hp⟩ := hi.exists_parent hroot rfl hnodup
  obtain ⟨p', hp', hpointer⟩ := parent_index_of_kept hkept hsame hp
  exact ⟨rowCount_of_kept hkept hsame (hleads.rowCount hroot rfl), p, p', hp, hp', hpointer⟩

end UavTreeHeap

end ArmOd
