import ArmOd.Base.Linked
import ArmOd.Tree.UavStates

/-!
# The items of the UAV tree in memory

`UavTreeModel` works on items that are linked by pointers: it allocates them, hangs them below their
parents, writes through the pointers it finds in its loops, and takes the item of a UAV out of the
root's children without deleting it. The tree that stands below the root is the one of the model that
knows no pointers, no pointer leads anywhere but to an item, and what was taken out is still there.
-/

namespace ArmOd

/-- The model with its items in memory. -/
structure UavTreeHeap where
  m_targetRole : String := OUR_UAV_ROLE
  m_rootItem : Nat := 0
  items : Heap BaseItemData := [{ data := {} }]

namespace UavTreeHeap

open UavTreeModel

/-! ### A UAV is added -/

/-- The properties that `addSourceNode` appends to the node. -/
def properties (sourceType : Nat) (uavId : Nat) : List BaseItemData :=
  let inProperty (id : Int32) (name : String) : BaseItemData :=
    { id, pid := Int32.ofNat uavId, name, value := some (.int 0) }
  let altitude := if sourceType ≠ UAV_SLICES_SOURCE then [inProperty ALT_PROPERTY_ID "alt"] else []
  [inProperty LAT_PROPERTY_ID "lat", inProperty LON_PROPERTY_ID "lon"] ++ altitude

def addProperty (sourceItem : Nat) (items : Heap BaseItemData) (property : BaseItemData) :
    Option (Heap BaseItemData) :=
  let childItem := items.alloc property (some sourceItem)
  childItem.1.appendChild childItem.2 sourceItem

def addSourceNode (item : Nat) (sourceType : Nat) (name : String) (uavId : Nat)
    (items : Heap BaseItemData) : Option (Heap BaseItemData) := do
  let sourceItem := items.alloc { id := Int32.ofNat sourceType, name } (some item)
  let items ← (properties sourceType uavId).foldlM (addProperty sourceItem.2) sourceItem.1
  items.appendChild sourceItem.2 item

def addSourceNodes (item : Nat) (uavRole : String) (uavId : Nat) (items : Heap BaseItemData) :
    Option (Heap BaseItemData) :=
  if uavRole = OUR_UAV_ROLE then do
    let items ← addSourceNode item UAV_AUTOPILOT_SOURCE "Autopilot" uavId items
    addSourceNode item UAV_SLICES_SOURCE "KTR" uavId items
  else if uavRole = ENEMY_UAV_ROLE then do
    let items ← addSourceNode item UAV_SOLVER_AUTO_SOURCE "Auto mode" uavId items
    let items ← addSourceNode item UAV_SOLVER_MANUAL_SOURCE "Manual mode" uavId items
    let items ← addSourceNode item UAV_SOLVER_SINGLE_1_SOURCE "Single mode: Point 1" uavId items
    addSourceNode item UAV_SOLVER_SINGLE_2_SOURCE "Single mode: Point 2" uavId items
  else some items

/-- `inSettingsNode.object`. -/
def object (uav : Uav) : BaseItemData := { id := Int32.ofNat uav.uavId, name := uav.name }

def onUavAdded (uav : Uav) (uavRole : String) (m : UavTreeHeap) : Option UavTreeHeap :=
  if uavRole ≠ m.m_targetRole then some m
  else do
    let item := m.items.alloc (object uav) (some m.m_rootItem)
    let items ← item.1.appendChild item.2 m.m_rootItem
    let items ← addSourceNodes item.2 uavRole uav.uavId items
    return { m with items }

/-! ### A UAV is removed -/

/-- The loop over the children comes to the data of the one it removes. -/
def removes (uav : Uav) (data : BaseItemData) : Bool :=
  decide (data.id.toUInt32.toNat = uav.uavId) && uav.historical != isReal data.name

/-- The first of the children that is to be removed. -/
def findRemoved (uav : Uav) (items : Heap BaseItemData) : List Nat → Option (Option Nat)
  | [] => some none
  | childItem :: rest => do
    let data ← items.data childItem
    if removes uav data then return some childItem else findRemoved uav items rest

def onUavRemoved (uav : Uav) (uavRole : String) (m : UavTreeHeap) : Option UavTreeHeap :=
  if uavRole ≠ m.m_targetRole then some m
  else do
    let children ← m.items.childItems m.m_rootItem
    let childItem ← findRemoved uav m.items children
    let items ← childItem.elim (some m.items) fun childItem =>
      m.items.removeChild childItem m.m_rootItem
    return { m with items }

/-! ### A report -/

/-- The loop over the stations goes on with the data of this one. -/
def reports (uavInfo : UavInfo) (data : BaseItemData) : Bool :=
  decide (data.id = Int32.ofNat uavInfo.uavId) && uavInfo.historical != isReal data.name

/-- The state of the station and its source, as far as the loop has come. -/
def lookAtSource (uavInfo : UavInfo) (items : Heap BaseItemData) (found : Int32 × Option Nat)
    (child : Nat) : Option (Int32 × Option Nat) := do
  let data ← items.data child
  return (if found.1 = 0 ∧ data.state = 1 then 1 else found.1,
    if found.2 = none ∧ data.id.toUInt32.toNat = uavInfo.source then some child else found.2)

/-- The loop over the properties, which ends at the first with the id. -/
def updateProperty (inProperty : BaseItemData) (items : Heap BaseItemData) :
    List Nat → Option (Heap BaseItemData)
  | [] => some items
  | child :: rest => do
    let data ← items.data child
    if data.id = inProperty.id then items.updateData inProperty child
    else updateProperty inProperty items rest

def setState (state : Int32) (item : Nat) (items : Heap BaseItemData) :
    Option (Heap BaseItemData) := do
  let data ← items.data item
  items.updateData { data with state } item

def updateSource (uavInfo : UavInfo) (inProperty : BaseItemData) (sourceItem : Nat)
    (items : Heap BaseItemData) : Option (Heap BaseItemData) := do
  let items ← setState (sourceState uavInfo) sourceItem items
  let children ← items.childItems sourceItem
  updateProperty inProperty items children

/-- The body of the loop over the stations. -/
def updateStation (uavInfo : UavInfo) (inProperty : BaseItemData) (items : Heap BaseItemData)
    (stationItem : Nat) : Option (Heap BaseItemData) := do
  let data ← items.data stationItem
  if !reports uavInfo data then return items
  let children ← items.childItems stationItem
  let found ← children.foldlM (lookAtSource uavInfo items) (sourceState uavInfo, none)
  found.2.elim (some items) fun sourceItem => do
    let items ← setState found.1 stationItem items
    updateSource uavInfo inProperty sourceItem items

def onPropertyChanged (uavInfo : UavInfo) (propId : Int32) (name : String) (value : ItemValue)
    (m : UavTreeHeap) : Option UavTreeHeap := do
  let inProperty : BaseItemData :=
    { id := propId, pid := Int32.ofNat uavInfo.uavId, name, value := some value }
  let children ← m.items.childItems m.m_rootItem
  let items ← children.foldlM (updateStation uavInfo inProperty) m.items
  return { m with items }

def onUavInfoChanged (sprintf4 : Double → String) (uavInfo : UavInfo) (uavRole : String)
    (m : UavTreeHeap) : Option UavTreeHeap :=
  if uavRole ≠ m.m_targetRole then some m
  else do
    let m ← m.onPropertyChanged uavInfo LAT_PROPERTY_ID "lat" (.text (sprintf4 uavInfo.lat))
    let m ← m.onPropertyChanged uavInfo LON_PROPERTY_ID "lon" (.text (sprintf4 uavInfo.lon))
    if UAV_SLICES_SOURCE ≠ uavInfo.source then
      m.onPropertyChanged uavInfo ALT_PROPERTY_ID "alt"
        (.text (String.ofList (Text.number uavInfo.alt.toInt32)))
    else some m

/-- What the tree is told, in memory. A pointer that leads nowhere has no outcome. -/
def notify (sprintf4 : Double → String) (m : UavTreeHeap) :
    TreeNotification → Option UavTreeHeap
  | .life (.onUavAdded uav uavRole) => m.onUavAdded uav uavRole
  | .life (.onUavRemoved uav uavRole) => m.onUavRemoved uav uavRole
  | .onUavInfoChanged uavInfo uavRole => m.onUavInfoChanged sprintf4 uavInfo uavRole

/-! ### What stands is added to -/

open ItemTree Heap

/-- The tree without the addresses. -/
def item : ItemTree BaseItemData → TreeItem
  | node _ data children => .node data (children.map item)

variable {items : Heap BaseItemData} {parent : Option Nat} {a : Nat} {d : BaseItemData}
  {children front back rest : List (ItemTree BaseItemData)} {t source property : ItemTree BaseItemData}

theorem item_node : item (node a d children) = .node d (children.map item) := by
  rw [item]

@[simp] theorem data_item : (item (node a d children)).data = d := by
  rw [item_node, TreeItem.data]

theorem addProperties_turns (properties : List BaseItemData)
    (h : (node a d children).Stands items parent)
    (hnodup : (node a d children).addresses.Nodup) :
    ∃ items' added, properties.foldlM (addProperty a) items = some items' ∧
      Turns items items' parent (node a d children) (node a d (children ++ added)) ∧
      added.map item = properties.map fun property => .node property [] := by
  induction properties generalizing items children with
  | nil => exact ⟨items, [], rfl, by rw [List.append_nil]; exact .refl h, rfl⟩
  | cons property properties ih =>
      obtain ⟨items', happend, hturns⟩ :=
        (built_alloc items property (some a)).appendChild h hnodup
      obtain ⟨items'', added, hrest, hturns', hadded⟩ :=
        ih hturns.stands (hturns.nodup h hnodup)
      refine ⟨items'', node items.length property [] :: added, ?_, ?_, ?_⟩
      · rw [List.foldlM_cons, addProperty]
        exact Option.bind_eq_some_iff.mpr ⟨items', happend, hrest⟩
      · rw [← List.append_cons] at hturns'
        exact hturns.trans hturns'
      · rw [List.map_cons, List.map_cons, hadded, item_node, List.map_nil]

theorem addSourceNode_turns (sourceType : Nat) (name : String) (uavId : Nat)
    (h : (node a d children).Stands items parent)
    (hnodup : (node a d children).addresses.Nodup) :
    ∃ items' source, addSourceNode a sourceType name uavId items = some items' ∧
      Turns items items' parent (node a d children) (node a d (children ++ [source])) ∧
      item (node a d (children ++ [source])) =
        UavTreeModel.addSourceNode (item (node a d children)) sourceType name uavId := by
  have hbuilt := built_alloc items { id := Int32.ofNat sourceType, name } (some a)
  obtain ⟨items', added, hadd, hturns, hadded⟩ :=
    addProperties_turns (properties sourceType uavId) hbuilt.stands hbuilt.nodup
  obtain ⟨items'', happend, hturns'⟩ := (hbuilt.turns hturns).appendChild h hnodup
  refine ⟨items'', _, ?_, hturns', ?_⟩
  · rw [addSourceNode]
    exact Option.bind_eq_some_iff.mpr ⟨items', hadd, happend⟩
  · rw [item_node, item_node, List.map_append, List.map_singleton, item_node, List.nil_append,
      hadded, UavTreeModel.addSourceNode, TreeItem.appendChild, properties]
    split <;> rfl

/-- An item without children becomes the one of a UAV. -/
theorem addSourceNodes_turns (uav : Uav) (uavRole : String)
    (h : (node a (object uav) []).Stands items parent)
    (hnodup : (node a (object uav) []).addresses.Nodup) :
    ∃ items' t, addSourceNodes a uavRole uav.uavId items = some items' ∧
      Turns items items' parent (node a (object uav) []) t ∧
      item t = uavItem uav uavRole := by
  rw [addSourceNodes, uavItem]
  split
  · obtain ⟨items₁, _, h₁, t₁, e₁⟩ :=
      addSourceNode_turns UAV_AUTOPILOT_SOURCE "Autopilot" uav.uavId h hnodup
    have n₁ := t₁.nodup h hnodup
    obtain ⟨items₂, _, h₂, t₂, e₂⟩ :=
      addSourceNode_turns UAV_SLICES_SOURCE "KTR" uav.uavId t₁.stands n₁
    refine ⟨items₂, _, Option.bind_eq_some_iff.mpr ⟨items₁, h₁, h₂⟩, t₁.trans t₂, ?_⟩
    rw [e₂, e₁, item_node, List.map_nil, object]
  · split
    · obtain ⟨items₁, _, h₁, t₁, e₁⟩ :=
        addSourceNode_turns UAV_SOLVER_AUTO_SOURCE "Auto mode" uav.uavId h hnodup
      have n₁ := t₁.nodup h hnodup
      obtain ⟨items₂, _, h₂, t₂, e₂⟩ :=
        addSourceNode_turns UAV_SOLVER_MANUAL_SOURCE "Manual mode" uav.uavId t₁.stands n₁
      have n₂ := t₂.nodup t₁.stands n₁
      obtain ⟨items₃, _, h₃, t₃, e₃⟩ :=
        addSourceNode_turns UAV_SOLVER_SINGLE_1_SOURCE "Single mode: Point 1" uav.uavId t₂.stands n₂
      have n₃ := t₃.nodup t₂.stands n₂
      obtain ⟨items₄, _, h₄, t₄, e₄⟩ :=
        addSourceNode_turns UAV_SOLVER_SINGLE_2_SOURCE "Single mode: Point 2" uav.uavId t₃.stands n₃
      refine ⟨items₄, _, ?_, ((t₁.trans t₂).trans t₃).trans t₄, ?_⟩
      · exact Option.bind_eq_some_iff.mpr ⟨items₁, h₁, Option.bind_eq_some_iff.mpr
          ⟨items₂, h₂, Option.bind_eq_some_iff.mpr ⟨items₃, h₃, h₄⟩⟩⟩
      · rw [e₄, e₃, e₂, e₁, item_node, List.map_nil, object]
    · exact ⟨items, _, rfl, .refl h, by rw [item_node, List.map_nil, object]⟩

/-! ### The model in memory and the one without pointers -/

/-- The tree of the model stands below the root, next to the items that were taken out of it. Each
item of a UAV that was ever added is one or the other. -/
structure Holds (m : UavTreeHeap) (model : UavTreeModel)
    (stations gone : List (ItemTree BaseItemData)) : Prop where
  role : m.m_targetRole = model.m_targetRole
  root : m.m_rootItem = 0
  tiles : Tiles m.items (node m.m_rootItem {} stations) gone
  items : stations.map item = model.m_rootItem.map Prod.snd
  numbered : (model.m_rootItem.map Prod.fst).Pairwise (· < ·)
  allocated : ∀ child ∈ model.m_rootItem, child.1 < model.allocated
  count : model.allocated = stations.length + gone.length

variable {m : UavTreeHeap} {model : UavTreeModel} {stations gone : List (ItemTree BaseItemData)}

theorem holds_start (role : String) :
    Holds { m_targetRole := role } { m_targetRole := role } [] [] where
  role := rfl
  root := rfl
  tiles := {
    stands := stands_node.mpr ⟨rfl, fun _ hc => absurd hc List.not_mem_nil⟩
    taken := fun _ ht => absurd ht List.not_mem_nil
    addresses := by
      rw [addresses_node]
      exact List.Perm.refl _ }
  items := rfl
  numbered := List.Pairwise.nil
  allocated := fun _ hchild => absurd hchild List.not_mem_nil
  count := rfl

theorem Holds.onUavAdded (h : Holds m model stations gone) (uav : Uav) (uavRole : String) :
    ∃ m' stations', m.onUavAdded uav uavRole = some m' ∧
      Holds m' (model.onUavAdded uav uavRole) stations' gone ∧ Kept m.items m'.items := by
  rw [UavTreeHeap.onUavAdded, UavTreeModel.onUavAdded, h.role]
  split
  · exact ⟨m, stations, rfl, h, .refl _⟩
  · have hbuilt := built_alloc m.items (object uav) (some m.m_rootItem)
    obtain ⟨items₁, happend, hturns⟩ := hbuilt.appendChild h.tiles.stands h.tiles.nodup
    have hnodup := hturns.nodup h.tiles.stands h.tiles.nodup
    have hmem := List.mem_append_right stations (List.mem_singleton_self
      (node m.items.length (object uav) []))
    obtain ⟨items₂, t, hadd, hturns', ht⟩ := addSourceNodes_turns uav uavRole
      (hturns.stands.child hmem) (nodup_of_mem hnodup hmem)
    have hroot := hturns.trans (hturns'.child hturns.stands hnodup)
    refine ⟨{ m with m_targetRole := model.m_targetRole, items := items₂ }, stations ++ [t], ?_, ?_,
      hroot.kept⟩
    · exact Option.bind_eq_some_iff.mpr ⟨items₁, happend, Option.bind_eq_some_iff.mpr
        ⟨items₂, hadd, rfl⟩⟩
    · exact {
        role := rfl
        root := h.root
        tiles := h.tiles.turns hroot
        items := by rw [List.map_append, List.map_append, h.items, List.map_singleton, ht]; rfl
        numbered := by
          rw [List.map_append, List.pairwise_append]
          refine ⟨h.numbered, List.pairwise_singleton _ _, fun n hn n' hn' => ?_⟩
          obtain ⟨child, hchild, rfl⟩ := List.mem_map.mp hn
          rw [List.mem_singleton.mp hn']
          exact h.allocated child hchild
        allocated := fun child hchild => by
          rcases List.mem_append.mp hchild with hchild | hchild
          · exact (h.allocated child hchild).trans (Nat.lt_succ_self _)
          · rw [List.mem_singleton.mp hchild]
            exact Nat.lt_succ_self _
        count := by
          have hcount := h.count
          rw [List.length_append, List.length_singleton]
          change model.allocated + 1 = _
          omega }

theorem exists_node (t : ItemTree BaseItemData) :
    ∃ children, t = node t.address (item t).data children := by
  cases t with
  | node a d children => exact ⟨children, by rw [data_item, ItemTree.address]⟩

theorem data_of_stands (h : t.Stands items parent) :
    items.data t.address = some (item t).data := by
  obtain ⟨children, ht⟩ := exists_node t
  rw [ht] at h
  exact h.data

theorem findRemoved_eq (uav : Uav) (h : ∀ t ∈ stations, t.Stands items parent) :
    findRemoved uav items (stations.map ItemTree.address) =
      some ((stations.find? fun t => removes uav (item t).data).map ItemTree.address) := by
  induction stations with
  | nil => rfl
  | cons t stations ih =>
      rw [List.map_cons, findRemoved, data_of_stands (h t List.mem_cons_self), List.find?_cons,
        Option.bind_eq_bind, Option.bind_some, ih fun t ht => h t (List.mem_cons_of_mem _ ht)]
      cases removes uav (item t).data <;> rfl

theorem find?_isRemoved (uav : Uav) (hitems : stations.map item = model.m_rootItem.map Prod.snd)
    (hfind : (stations.find? fun t => removes uav (item t).data) = some t) :
    ∃ front back front' back' child, stations = front ++ t :: back ∧
      model.m_rootItem = front' ++ child :: back' ∧ front.map item = front'.map Prod.snd ∧
      back.map item = back'.map Prod.snd ∧ model.m_rootItem.find? (isRemoved uav) = some child := by
  obtain ⟨ht, front, back, rfl, hfront⟩ := List.find?_eq_some_iff_append.mp hfind
  rw [List.map_append, List.map_cons] at hitems
  obtain ⟨front', rest, hroot, hfront', hrest⟩ := List.map_eq_append_iff.mp hitems.symm
  obtain ⟨child, back', rfl, hchild, hback'⟩ := List.map_eq_cons_iff.mp hrest
  refine ⟨front, back, front', back', child, rfl, hroot, hfront'.symm, hback'.symm, ?_⟩
  refine List.find?_eq_some_iff_append.mpr ⟨?_, front', back', hroot, fun x hx => ?_⟩
  · rwa [← hchild] at ht
  · have hx' : x.2 ∈ front.map item := hfront' ▸ List.mem_map_of_mem hx
    obtain ⟨t', ht', heq⟩ := List.mem_map.mp hx'
    have hnot := hfront t' ht'
    rwa [heq] at hnot

theorem Holds.onUavRemoved (h : Holds m model stations gone) (uav : Uav) (uavRole : String) :
    ∃ m' stations' gone', m.onUavRemoved uav uavRole = some m' ∧
      Holds m' (model.onUavRemoved uav uavRole) stations' gone' ∧ Kept m.items m'.items := by
  rw [UavTreeHeap.onUavRemoved, UavTreeModel.onUavRemoved, h.role]
  split
  · exact ⟨m, stations, gone, rfl, h, .refl _⟩
  · rw [h.tiles.stands.childItems, Option.bind_eq_bind, Option.bind_some,
      findRemoved_eq uav fun t ht => h.tiles.stands.child ht, Option.bind_eq_bind, Option.bind_some]
    cases hfind : stations.find? fun t => removes uav (item t).data with
    | none =>
        have hnone : model.m_rootItem.find? (isRemoved uav) = none := by
          have hmap := congrArg (List.find? fun t => removes uav t.data) h.items
          rw [List.find?_map, List.find?_map] at hmap
          exact Option.map_eq_none_iff.mp (hmap.symm.trans (Option.map_eq_none_iff.mpr hfind))
        rw [hnone]
        exact ⟨m, stations, gone, by rw [← h.role]; rfl, h, .refl _⟩
    | some t =>
        obtain ⟨front, back, front', back', child, rfl, hroot, hfront, hback, hsome⟩ :=
          find?_isRemoved uav h.items hfind
        obtain ⟨items', hremove, htiles, hkept⟩ := h.tiles.removeChild
        have hnumbered := h.numbered
        have hallocated := h.allocated
        rw [hroot] at hnumbered hallocated
        have hfilter := filter_key_ne Prod.fst (hnumbered.imp fun hlt => hlt.ne)
        rw [hsome, hroot]
        refine ⟨{ m with m_targetRole := model.m_targetRole, items := items' }, front ++ back,
          t :: gone, Option.bind_eq_some_iff.mpr ⟨items', hremove, rfl⟩, ?_, hkept⟩
        exact {
          role := rfl
          root := h.root
          tiles := htiles
          items := by
            rw [List.map_append, hfront, hback, ← List.map_append]
            exact congrArg _ hfilter.symm
          numbered := by
            change ((List.filter _ _).map Prod.fst).Pairwise _
            exact hnumbered.sublist (List.filter_sublist.map _)
          allocated := fun other hother => hallocated other (List.mem_filter.mp hother).1
          count := by
            have hcount := h.count
            rw [List.length_append, List.length_cons] at hcount ⊢
            change model.allocated = _
            omega }

/-! ### Reports -/

section

variable {α : Type} {p : α → Bool} {f : α → α} {b : α} {as before after : List α}

theorem updateFirst_of_find?_none (h : as.find? p = none) : updateFirst p f as = as := by
  rw [List.find?_eq_none] at h
  induction as with
  | nil => rfl
  | cons a as ih =>
      rw [updateFirst, if_neg (h a List.mem_cons_self), ih fun x hx => h x (List.mem_cons_of_mem a hx)]

theorem updateFirst_append (hb : p b = true) (hbefore : ∀ a ∈ before, (!p a) = true) :
    updateFirst p f (before ++ b :: after) = before ++ f b :: after := by
  induction before with
  | nil => rw [List.nil_append, updateFirst, if_pos hb, List.nil_append]
  | cons a before ih =>
      have ha : ¬p a = true := by
        have hnot := hbefore a List.mem_cons_self
        rwa [Bool.not_eq_true', ← Bool.not_eq_true] at hnot
      rw [List.cons_append, updateFirst, if_neg ha,
        ih fun x hx => hbefore x (List.mem_cons_of_mem a hx), List.cons_append]

end

theorem setState_turns (state : Int32) (h : (node a d children).Stands items parent)
    (hnodup : (node a d children).addresses.Nodup) :
    ∃ items', setState state a items = some items' ∧
      Turns items items' parent (node a d children) (node a { d with state } children) := by
  rw [setState, h.data, Option.bind_eq_bind, Option.bind_some]
  exact h.updateData hnodup { d with state }

theorem updateProperty_eq (inProperty : BaseItemData)
    (h : ∀ t ∈ children, t.Stands items parent) :
    updateProperty inProperty items (children.map ItemTree.address) =
      (children.find? fun t => (item t).data.id = inProperty.id).elim (some items) fun t =>
        items.updateData inProperty t.address := by
  induction children with
  | nil => rfl
  | cons t children ih =>
      rw [List.map_cons, updateProperty, data_of_stands (h t List.mem_cons_self), List.find?_cons,
        Option.bind_eq_bind, Option.bind_some, ih fun t ht => h t (List.mem_cons_of_mem _ ht)]
      by_cases hid : (item t).data.id = inProperty.id
      · rw [if_pos hid, decide_eq_true hid, Option.elim_some]
      · rw [if_neg hid, decide_eq_false hid]

theorem updateProperty_turns (inProperty : BaseItemData)
    (h : (node a d children).Stands items parent)
    (hnodup : (node a d children).addresses.Nodup) :
    ∃ items' children',
      updateProperty inProperty items (children.map ItemTree.address) = some items' ∧
      Turns items items' parent (node a d children) (node a d children') ∧
      children'.map item = updateFirst (fun child => decide (child.data.id = inProperty.id))
        (TreeItem.updateData inProperty) (children.map item) := by
  rw [updateProperty_eq inProperty fun t ht => h.child ht]
  cases hfind : children.find? fun t => (item t).data.id = inProperty.id with
  | none =>
      refine ⟨items, children, rfl, .refl h, ?_⟩
      rw [updateFirst_of_find?_none]
      rw [List.find?_map]
      exact Option.map_eq_none_iff.mpr hfind
  | some t =>
      obtain ⟨ht, front, back, rfl, hfront⟩ := List.find?_eq_some_iff_append.mp hfind
      have hmem : t ∈ front ++ t :: back := List.mem_append_right _ List.mem_cons_self
      have hstands := h.child hmem
      have htnodup := nodup_of_mem hnodup hmem
      obtain ⟨below, hnode⟩ := exists_node t
      have haddress := congrArg ItemTree.address hnode
      rw [hnode] at hstands htnodup
      obtain ⟨items', hupdate, hturns⟩ := hstands.updateData htnodup inProperty
      rw [← hnode] at hturns
      refine ⟨items', _, hupdate, hturns.child h hnodup, ?_⟩
      have hitem : item t = .node (item t).data (below.map item) := by
        conv_lhs => rw [hnode, item_node]
      rw [List.map_append, List.map_cons, List.map_append, List.map_cons,
        updateFirst_append (b := item t) ht (List.forall_mem_map.mpr hfront), hitem, item_node,
        TreeItem.updateData]

variable (uavInfo : UavInfo) (inProperty : BaseItemData)

theorem updateSource_turns (h : t.Stands items parent) (hnodup : t.addresses.Nodup) :
    ∃ items' t', updateSource uavInfo inProperty t.address items = some items' ∧
      Turns items items' parent t t' ∧
      item t' = UavTreeModel.updateSource uavInfo inProperty (item t) := by
  cases t with
  | node a d children =>
      obtain ⟨items₁, hstate, hturns⟩ := setState_turns (sourceState uavInfo) h hnodup
      obtain ⟨items₂, children', hproperty, hturns', hchildren'⟩ :=
        updateProperty_turns inProperty hturns.stands (hturns.nodup h hnodup)
      refine ⟨items₂, _, ?_, hturns.trans hturns', ?_⟩
      · rw [updateSource, ItemTree.address]
        refine Option.bind_eq_some_iff.mpr ⟨items₁, hstate, ?_⟩
        exact Option.bind_eq_some_iff.mpr ⟨_, hturns.stands.childItems, hproperty⟩
      · rw [item_node, hchildren', item_node, UavTreeModel.updateSource, TreeItem.data,
          TreeItem.children]

theorem lookAtSources_eq (h : ∀ t ∈ children, t.Stands items parent) (found : Int32 × Option Nat) :
    (children.map ItemTree.address).foldlM (lookAtSource uavInfo items) found =
      some ((children.map item).foldl
          (fun state child => if state = 0 ∧ child.data.state = 1 then 1 else state) found.1,
        found.2.or ((children.find? fun t => isSource uavInfo (item t)).map ItemTree.address)) := by
  induction children generalizing found with
  | nil => rw [List.find?_nil, Option.map_none, Option.or_none]; rfl
  | cons t children ih =>
      have hlook : lookAtSource uavInfo items found t.address =
          some (if found.1 = 0 ∧ (item t).data.state = 1 then 1 else found.1,
            if found.2 = none ∧ (item t).data.id.toUInt32.toNat = uavInfo.source then some t.address
            else found.2) := by
        rw [lookAtSource, data_of_stands (h t List.mem_cons_self)]
        rfl
      rw [List.map_cons, List.foldlM_cons, hlook, Option.bind_eq_bind, Option.bind_some,
        ih fun t ht => h t (List.mem_cons_of_mem _ ht), List.map_cons, List.foldl_cons,
        List.find?_cons, isSource]
      refine congrArg some (Prod.ext rfl ?_)
      rcases found with ⟨state, _ | address⟩
      · by_cases hid : (item t).data.id.toUInt32.toNat = uavInfo.source
        · simp only [hid, and_self, if_true, decide_true, Option.some_or, Option.none_or,
            Option.map_some]
        · simp only [hid, and_false, if_false, decide_false, Option.none_or]
      · simp only [reduceCtorEq, false_and, if_false, Option.some_or]

theorem any_isSource_eq : (item (node a d children)).children.any (isSource uavInfo) =
    (children.find? fun t => isSource uavInfo (item t)).isSome := by
  rw [item_node, TreeItem.children, List.any_map, List.isSome_find?]
  rfl

theorem updateStation_turns (h : t.Stands items parent) (hnodup : t.addresses.Nodup) :
    ∃ items' t', updateStation uavInfo inProperty items t.address = some items' ∧
      Turns items items' parent t t' ∧
      item t' = UavTreeModel.updateStation uavInfo inProperty (item t) := by
  cases t with
  | node a d children =>
      have hstation : reports uavInfo d = isStation uavInfo (item (node a d children)) := by
        rw [isStation, data_item, reports]
      rw [updateStation, ItemTree.address, h.data, Option.bind_eq_bind, Option.bind_some,
        UavTreeModel.updateStation, hstation]
      by_cases hreports : (!isStation uavInfo (item (node a d children))) = true
      · rw [if_pos hreports, if_pos hreports]
        exact ⟨items, _, rfl, .refl h, rfl⟩
      · rw [if_neg hreports, if_neg hreports, h.childItems, Option.bind_eq_bind, Option.bind_some,
          lookAtSources_eq uavInfo fun t ht => h.child ht, Option.bind_eq_bind, Option.bind_some,
          Option.none_or]
        cases hfind : children.find? fun t => isSource uavInfo (item t) with
        | none =>
            rw [any_isSource_eq, hfind]
            exact ⟨items, _, rfl, .refl h, rfl⟩
        | some source =>
            obtain ⟨hsource, front, back, rfl, hfront⟩ := List.find?_eq_some_iff_append.mp hfind
            have hmem : source ∈ front ++ source :: back :=
              List.mem_append_right _ List.mem_cons_self
            obtain ⟨items₁, hstate, hturns⟩ := setState_turns
              (stationState uavInfo (item (node a d (front ++ source :: back)))) h hnodup
            have hnodup₁ := hturns.nodup h hnodup
            obtain ⟨items₂, source', hupdate, hturns', hsource'⟩ :=
              updateSource_turns uavInfo inProperty (hturns.stands.child hmem)
                (nodup_of_mem hnodup₁ hmem)
            rw [any_isSource_eq, hfind, if_neg (by simp)]
            refine ⟨items₂, _, ?_, hturns.trans (hturns'.child hturns.stands hnodup₁), ?_⟩
            · rw [stationState, item_node] at hstate
              exact Option.bind_eq_some_iff.mpr ⟨items₁, hstate, hupdate⟩
            · rw [item_node, List.map_append, List.map_cons, hsource', item_node, TreeItem.data,
                TreeItem.children, List.map_append, List.map_cons,
                updateFirst_append (b := item source) hsource (List.forall_mem_map.mpr hfront)]

theorem updateStations_turns (front rest : List (ItemTree BaseItemData))
    (h : (node a d (front ++ rest)).Stands items parent)
    (hnodup : (node a d (front ++ rest)).addresses.Nodup) :
    ∃ items' rest',
      (rest.map ItemTree.address).foldlM (updateStation uavInfo inProperty) items = some items' ∧
      Turns items items' parent (node a d (front ++ rest)) (node a d (front ++ rest')) ∧
      rest'.map item = (rest.map item).map (UavTreeModel.updateStation uavInfo inProperty) := by
  induction rest generalizing items front with
  | nil => exact ⟨items, [], rfl, .refl h, rfl⟩
  | cons t rest ih =>
      have hmem : t ∈ front ++ t :: rest := List.mem_append_right _ List.mem_cons_self
      obtain ⟨items₁, t', hstation, hturns, ht'⟩ :=
        updateStation_turns uavInfo inProperty (h.child hmem) (nodup_of_mem hnodup hmem)
      have hstep := hturns.child h hnodup
      have hstands := hstep.stands
      have hnodup' := hstep.nodup h hnodup
      rw [List.append_cons] at hstands hnodup'
      obtain ⟨items₂, rest', hrest, hturns', hrest'⟩ := ih _ hstands hnodup'
      rw [← List.append_cons, ← List.append_cons] at hturns'
      refine ⟨items₂, t' :: rest', ?_, hstep.trans hturns', ?_⟩
      · rw [List.map_cons, List.foldlM_cons]
        exact Option.bind_eq_some_iff.mpr ⟨items₁, hstation, hrest⟩
      · rw [List.map_cons, List.map_cons, List.map_cons, ht', hrest']

theorem Holds.onPropertyChanged (h : Holds m model stations gone) (uavInfo : UavInfo)
    (propId : Int32) (name : String) (value : ItemValue) :
    ∃ m' stations', m.onPropertyChanged uavInfo propId name value = some m' ∧
      Holds m' (model.onPropertyChanged uavInfo propId name value) stations' gone ∧
      Kept m.items m'.items := by
  obtain ⟨items', stations', hupdate, hturns, hstations'⟩ :=
    updateStations_turns uavInfo
      { id := propId, pid := Int32.ofNat uavInfo.uavId, name, value := some value } [] stations
      h.tiles.stands h.tiles.nodup
  refine ⟨{ m with items := items' }, stations', ?_, ?_, hturns.kept⟩
  · rw [UavTreeHeap.onPropertyChanged, h.tiles.stands.childItems, Option.bind_eq_bind,
      Option.bind_some]
    exact Option.bind_eq_some_iff.mpr ⟨items', hupdate, rfl⟩
  · exact {
      role := h.role
      root := h.root
      tiles := h.tiles.turns hturns
      items := by
        rw [hstations', h.items, UavTreeModel.onPropertyChanged, List.map_map, List.map_map]
        rfl
      numbered := by
        rw [UavTreeModel.onPropertyChanged, List.map_map]
        exact h.numbered
      allocated := fun child hchild => by
        obtain ⟨child', hchild', rfl⟩ := List.mem_map.mp hchild
        exact h.allocated child' hchild'
      count := by
        have hlength := congrArg List.length hstations'
        rw [List.length_map, List.length_map, List.length_map] at hlength
        rw [hlength]
        exact h.count }

theorem Holds.onUavInfoChanged (h : Holds m model stations gone) (sprintf4 : Double → String)
    (uavInfo : UavInfo) (uavRole : String) :
    ∃ m' stations', m.onUavInfoChanged sprintf4 uavInfo uavRole = some m' ∧
      Holds m' (model.onUavInfoChanged sprintf4 uavInfo uavRole) stations' gone ∧
      Kept m.items m'.items := by
  rw [UavTreeHeap.onUavInfoChanged, UavTreeModel.onUavInfoChanged, h.role]
  split
  · exact ⟨m, stations, rfl, h, .refl _⟩
  · obtain ⟨m₁, stations₁, hlat, h₁, kept₁⟩ :=
      h.onPropertyChanged uavInfo LAT_PROPERTY_ID "lat" (.text (sprintf4 uavInfo.lat))
    obtain ⟨m₂, stations₂, hlon, h₂, kept₂⟩ :=
      h₁.onPropertyChanged uavInfo LON_PROPERTY_ID "lon" (.text (sprintf4 uavInfo.lon))
    rw [hlat, Option.bind_eq_bind, Option.bind_some, hlon, Option.bind_some]
    split
    · obtain ⟨m₃, stations₃, halt, h₃, kept₃⟩ := h₂.onPropertyChanged uavInfo ALT_PROPERTY_ID "alt" _
      exact ⟨m₃, stations₃, halt, h₃, (kept₁.trans kept₂).trans kept₃⟩
    · exact ⟨m₂, stations₂, rfl, h₂, kept₁.trans kept₂⟩

theorem Holds.notify (h : Holds m model stations gone) (sprintf4 : Double → String)
    (notification : TreeNotification) :
    ∃ m' stations' gone', m.notify sprintf4 notification = some m' ∧
      Holds m' (model.notify sprintf4 notification) stations' gone' ∧ Kept m.items m'.items := by
  cases notification with
  | life op =>
      cases op with
      | onUavAdded uav uavRole =>
          obtain ⟨m', stations', hstep, h'⟩ := h.onUavAdded uav uavRole
          exact ⟨m', stations', gone, hstep, h'⟩
      | onUavRemoved uav uavRole => exact h.onUavRemoved uav uavRole
  | onUavInfoChanged uavInfo uavRole =>
      obtain ⟨m', stations', hstep, h'⟩ := h.onUavInfoChanged sprintf4 uavInfo uavRole
      exact ⟨m', stations', gone, hstep, h'⟩

theorem Holds.run (h : Holds m model stations gone) (sprintf4 : Double → String)
    (notifications : List TreeNotification) :
    ∃ m' stations' gone', notifications.foldlM (UavTreeHeap.notify sprintf4) m = some m' ∧
      Holds m' (notifications.foldl (UavTreeModel.notify sprintf4) model) stations' gone' ∧
      Kept m.items m'.items := by
  induction notifications generalizing m model stations gone with
  | nil => exact ⟨m, stations, gone, rfl, h, .refl _⟩
  | cons notification notifications ih =>
      obtain ⟨m₁, stations₁, gone₁, hstep, h₁, hkept₁⟩ := h.notify sprintf4 notification
      obtain ⟨m₂, stations₂, gone₂, hrun, h₂, hkept₂⟩ := ih h₁
      refine ⟨m₂, stations₂, gone₂, ?_, h₂, hkept₁.trans hkept₂⟩
      rw [List.foldlM_cons]
      exact Option.bind_eq_some_iff.mpr ⟨m₁, hstep, hrun⟩

/-- **Over any notifications no pointer leads nowhere, and what stands in memory is the tree of the
model, next to every item that was ever removed.** -/
theorem notifications_hold (sprintf4 : Double → String) (role : String)
    (notifications : List TreeNotification) :
    ∃ m stations gone,
      notifications.foldlM (notify sprintf4) { m_targetRole := role } = some m ∧
      Holds m (notifications.foldl (UavTreeModel.notify sprintf4) { m_targetRole := role })
        stations gone := by
  obtain ⟨m, stations, gone, hrun, h, -⟩ := (holds_start role).run sprintf4 notifications
  exact ⟨m, stations, gone, hrun, h⟩

end UavTreeHeap

end ArmOd
