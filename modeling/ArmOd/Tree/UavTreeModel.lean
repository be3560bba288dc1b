import ArmOd.DbBla.Defines
import ArmOd.Qt.Decimal

/-!
# UavTreeModel

The tree of the UAVs of one role. Every UAV is a child of the root with the places for its positions
below it; the children of the root are pointers, so that a child is its address with its item. A
live UAV and a replayed one may have the same id, and which of the two an item stands for is told by
its name.
-/

namespace ArmOd

/-- What an item shows: a number, or the text of one. -/
inductive ItemValue where
  | int (i : Int)
  | text (s : String)
  deriving DecidableEq, Repr

/-- The data of a `TreeItem`. -/
structure BaseItemData where
  id : Int32 := 0
  pid : Int32 := 0
  name : String := ""
  value : Option ItemValue := none
  state : Int32 := 0
  isEditable : Bool := false
  deriving DecidableEq

inductive TreeItem where
  | node (m_itemData : BaseItemData) (m_childItems : List TreeItem)

namespace TreeItem

def data : TreeItem → BaseItemData
  | node m_itemData _ => m_itemData

def appendChild : TreeItem → TreeItem → TreeItem
  | node m_itemData m_childItems, child => node m_itemData (m_childItems ++ [child])

@[simp] theorem data_appendChild (item child : TreeItem) :
    (item.appendChild child).data = item.data := by
  cases item
  rfl

end TreeItem

inductive TreeSignal where
  | layoutAboutToBeChanged
  | layoutChanged
  | onItemAddedSignal
  deriving DecidableEq, Repr

structure UavTreeModel where
  m_targetRole : String := OUR_UAV_ROLE
  /-- The addresses of the children, with the items there. -/
  m_rootItem : List (Nat × TreeItem) := []
  /-- The next address. -/
  allocated : Nat := 0
  emitted : List TreeSignal := []

namespace UavTreeModel

def LAT_PROPERTY_ID : Int32 := 1
def LON_PROPERTY_ID : Int32 := 2
def ALT_PROPERTY_ID : Int32 := 3

def property (uavId : Nat) (id : Int32) (name : String) : TreeItem :=
  .node { id, pid := Int32.ofNat uavId, name, value := some (.int 0) } []

def addSourceNode (item : TreeItem) (sourceType : Nat) (name : String) (uavId : Nat) : TreeItem :=
  let altitude := if sourceType ≠ UAV_SLICES_SOURCE then [property uavId ALT_PROPERTY_ID "alt"]
    else []
  item.appendChild (.node { id := Int32.ofNat sourceType, name }
    ([property uavId LAT_PROPERTY_ID "lat", property uavId LON_PROPERTY_ID "lon"] ++ altitude))

/-- The item of a UAV. -/
def uavItem (uav : Uav) (uavRole : String) : TreeItem :=
  let item : TreeItem := .node { id := Int32.ofNat uav.uavId, name := uav.name } []
  if uavRole = OUR_UAV_ROLE then
    let item := addSourceNode item UAV_AUTOPILOT_SOURCE "Autopilot" uav.uavId
    addSourceNode item UAV_SLICES_SOURCE "KTR" uav.uavId
  else if uavRole = ENEMY_UAV_ROLE then
    let item := addSourceNode item UAV_SOLVER_AUTO_SOURCE "Auto mode" uav.uavId
    let item := addSourceNode item UAV_SOLVER_MANUAL_SOURCE "Manual mode" uav.uavId
    let item := addSourceNode item UAV_SOLVER_SINGLE_1_SOURCE "Single mode: Point 1" uav.uavId
    addSourceNode item UAV_SOLVER_SINGLE_2_SOURCE "Single mode: Point 2" uav.uavId
  else item

def onUavAdded (uav : Uav) (uavRole : String) (m : UavTreeModel) : UavTreeModel :=
  if uavRole ≠ m.m_targetRole then m
  else { m with
    m_rootItem := m.m_rootItem ++ [(m.allocated, uavItem uav uavRole)]
    allocated := m.allocated + 1
    emitted := m.emitted ++ [.layoutAboutToBeChanged, .layoutChanged, .onItemAddedSignal] }

/-- `name.toInt( &isReal )`. -/
def isReal (name : String) : Bool := (Text.toInt? name.toList).isSome

/-- The loop over the children comes to this one and goes on to remove it. -/
def isRemoved (uav : Uav) (childItem : Nat × TreeItem) : Bool :=
  -- `data().id != uav.uavId` compares as `uint`
  decide (childItem.2.data.id.toUInt32.toNat = uav.uavId) &&
    uav.historical != isReal childItem.2.data.name

def onUavRemoved (uav : Uav) (uavRole : String) (m : UavTreeModel) : UavTreeModel :=
  if uavRole ≠ m.m_targetRole then m
  else match m.m_rootItem.find? (isRemoved uav) with
    | none => m
    | some childItem => { m with
        m_rootItem := m.m_rootItem.filter fun child => child.1 ≠ childItem.1
        emitted := m.emitted ++ [.layoutAboutToBeChanged, .layoutChanged] }

/-- What the tree is told about lives. -/
inductive TreeOp where
  | onUavAdded (uav : Uav) (uavRole : String)
  | onUavRemoved (uav : Uav) (uavRole : String)
  deriving DecidableEq, Repr

def step (m : UavTreeModel) : TreeOp → UavTreeModel
  | .onUavAdded uav uavRole => m.onUavAdded uav uavRole
  | .onUavRemoved uav uavRole => m.onUavRemoved uav uavRole

/-! ### Names and ids -/

theorem data_addSourceNode (item : TreeItem) (sourceType : Nat) (name : String) (uavId : Nat) :
    (addSourceNode item sourceType name uavId).data = item.data :=
  TreeItem.data_appendChild item _

theorem data_uavItem (uav : Uav) (uavRole : String) :
    (uavItem uav uavRole).data = { id := Int32.ofNat uav.uavId, name := uav.name } := by
  rw [uavItem]
  split
  · simp only [data_addSourceNode]
    rfl
  · split
    · simp only [data_addSourceNode]
      rfl
    · rfl

theorem toUInt32_ofNat {n : Nat} (h : n < 2 ^ 32) : (Int32.ofNat n).toUInt32.toNat = n :=
  UInt32.toNat_ofNat_of_lt h

/-- The name of a replayed UAV is never an `int`. -/
theorem isReal_historyName (uavId : Nat) : isReal (QString.number uavId ++ "-H") = false := by
  have hmem : 'H' ∈ (QString.number uavId ++ "-H").toList := by
    rw [String.toList_append]
    exact List.mem_append_right _ (by decide)
  rw [isReal, Text.toInt?_eq_none hmem (by decide) (by decide) (by decide) (by decide)]
  rfl

end UavTreeModel

end ArmOd
