import ArmOd.Base.Run
import ArmOd.Qt.Double
import ArmOd.Tree.UavTreeModel

/-!
# The states of the UAV items

An item of a UAV is checked while one of its sources is in flight. The state of the item is computed
from the states its sources had before, and only then the source that was reported gets its own; but
every report comes in at least twice, for the latitude and for the longitude, so that the second time
it is computed from the new ones.
-/

namespace ArmOd

namespace TreeItem

def children : TreeItem → List TreeItem
  | node _ m_childItems => m_childItems

def updateData (itemData : BaseItemData) : TreeItem → TreeItem
  | node _ m_childItems => node itemData m_childItems

end TreeItem

/-- The first element with a property is changed. -/
def updateFirst {α : Type} (p : α → Bool) (f : α → α) : List α → List α
  | [] => []
  | a :: as => if p a then f a :: as else a :: updateFirst p f as

namespace UavTreeModel

/-- `isInFlight`. -/
def isInFlight (uavInfo : UavInfo) : Bool :=
  if uavInfo.source ≠ UAV_SLICES_SOURCE then Double.lt 0 uavInfo.alt else true

/-- The loop comes to this item and goes on to its sources. -/
def isStation (uavInfo : UavInfo) (stationItem : TreeItem) : Bool :=
  decide (stationItem.data.id = Int32.ofNat uavInfo.uavId) &&
    uavInfo.historical != isReal stationItem.data.name

/-- `data.id == uavInfo.source`, compared as `uint`. -/
def isSource (uavInfo : UavInfo) (item : TreeItem) : Bool :=
  decide (item.data.id.toUInt32.toNat = uavInfo.source)

def sourceState (uavInfo : UavInfo) : Int32 := if isInFlight uavInfo then 1 else 0

/-- The state of a station from the states its sources have. -/
def stationState (uavInfo : UavInfo) (stationItem : TreeItem) : Int32 :=
  stationItem.children.foldl
    (fun state child => if state = 0 ∧ child.data.state = 1 then 1 else state)
    (sourceState uavInfo)

def updateSource (uavInfo : UavInfo) (inProperty : BaseItemData) (sourceItem : TreeItem) :
    TreeItem :=
  .node { sourceItem.data with state := sourceState uavInfo }
    (updateFirst (fun child => decide (child.data.id = inProperty.id))
      (TreeItem.updateData inProperty) sourceItem.children)

/-- The body of the loop over the stations. -/
def updateStation (uavInfo : UavInfo) (inProperty : BaseItemData) (stationItem : TreeItem) :
    TreeItem :=
  if !isStation uavInfo stationItem then stationItem
  else if !stationItem.children.any (isSource uavInfo) then stationItem
  else .node { stationItem.data with state := stationState uavInfo stationItem }
    (updateFirst (isSource uavInfo) (updateSource uavInfo inProperty) stationItem.children)

def onPropertyChanged (uavInfo : UavInfo) (propId : Int32) (name : String) (value : ItemValue)
    (m : UavTreeModel) : UavTreeModel :=
  let inProperty : BaseItemData :=
    { id := propId, pid := Int32.ofNat uavInfo.uavId, name, value := some value }
  { m with m_rootItem := m.m_rootItem.map fun child =>
      (child.1, updateStation uavInfo inProperty child.2) }

/-- `sprintf4` is `sprintf( "%.4f", .. )`. -/
def onUavInfoChanged (sprintf4 : Double → String) (uavInfo : UavInfo) (uavRole : String)
    (m : UavTreeModel) : UavTreeModel :=
  if uavRole ≠ m.m_targetRole then m
  else
    let m := m.onPropertyChanged uavInfo LAT_PROPERTY_ID "lat" (.text (sprintf4 uavInfo.lat))
    let m := m.onPropertyChanged uavInfo LON_PROPERTY_ID "lon" (.text (sprintf4 uavInfo.lon))
    if UAV_SLICES_SOURCE ≠ uavInfo.source then
      m.onPropertyChanged uavInfo ALT_PROPERTY_ID "alt"
        (.text (String.ofList (Text.number uavInfo.alt.toInt32)))
    else m

/-- What the tree is told. -/
inductive TreeNotification where
  | life (op : TreeOp)
  | onUavInfoChanged (uavInfo : UavInfo) (uavRole : String)
  deriving DecidableEq, Repr

def notify (sprintf4 : Double → String) (m : UavTreeModel) : TreeNotification → UavTreeModel
  | .life op => m.step op
  | .onUavInfoChanged uavInfo uavRole => m.onUavInfoChanged sprintf4 uavInfo uavRole

/-- The sources of a UAV, with their states. -/
def sources (stationItem : TreeItem) : List (Int32 × Int32) :=
  stationItem.children.map fun child => (child.data.id, child.data.state)

/-- The item has the state 1 exactly when one of its sources has. -/
def Checked (stationItem : TreeItem) : Prop :=
  stationItem.data.state = 1 ↔ ∃ source ∈ sources stationItem, source.2 = 1

/-- A source after a report: the reported one is in flight or not, the others are what they were. -/
def reported (uavInfo : UavInfo) (stationItem : TreeItem) (source : Int32 × Int32) :
    Int32 × Int32 :=
  if isStation uavInfo stationItem ∧ source.1.toUInt32.toNat = uavInfo.source then
    (source.1, if uavInfo.source = UAV_SLICES_SOURCE ∨ Double.lt 0 uavInfo.alt then 1 else 0)
  else source

variable {sprintf4 : Double → String} {uavInfo : UavInfo} {inProperty : BaseItemData}
  {stationItem item : TreeItem} {m : UavTreeModel} {uavRole role : String}

/-! ### The first element -/

section

variable {α β : Type} {p : α → Bool} {f : α → α} {g h : α → β} {as : List α}

theorem map_updateFirst (hone : as.Pairwise fun a b => ¬(p a = true ∧ p b = true))
    (hf : ∀ a, p a = true → g (f a) = h a) :
    (updateFirst p f as).map g = as.map fun a => if p a = true then h a else g a := by
  induction as with
  | nil => rfl
  | cons a as ih =>
      obtain ⟨hfirst, hrest⟩ := List.pairwise_cons.mp hone
      rw [updateFirst, List.map_cons]
      by_cases ha : p a = true
      · have hothers : as.map g = as.map fun a => if p a = true then h a else g a :=
          List.map_congr_left fun b hb => (if_neg fun hpb => hfirst b hb ⟨ha, hpb⟩).symm
        rw [if_pos ha, if_pos ha, List.map_cons, hf a ha, hothers]
      · rw [if_neg ha, if_neg ha, List.map_cons, ih hrest]

end

/-! ### The states of a station -/

theorem sourceState_eq : sourceState uavInfo =
    if uavInfo.source = UAV_SLICES_SOURCE ∨ Double.lt 0 uavInfo.alt then 1 else 0 := by
  rw [sourceState, isInFlight]
  by_cases hslices : uavInfo.source = UAV_SLICES_SOURCE
  · rw [if_neg (not_not.mpr hslices), if_pos rfl, if_pos (Or.inl hslices)]
  · rw [if_pos hslices]
    exact if_congr (or_iff_right hslices).symm rfl rfl

theorem sourceState_cases : sourceState uavInfo = 0 ∨ sourceState uavInfo = 1 := by
  rw [sourceState]
  split
  · exact Or.inr rfl
  · exact Or.inl rfl

/-- A station is checked when the reported source is, or one of them was. -/
theorem stationState_eq_one_iff : stationState uavInfo stationItem = 1 ↔
    sourceState uavInfo = 1 ∨ ∃ source ∈ sources stationItem, source.2 = 1 := by
  have hloop : ∀ (items : List TreeItem) (state : Int32), state = 0 ∨ state = 1 →
      (items.foldl (fun state child => if state = 0 ∧ child.data.state = 1 then 1 else state) state
        = 1 ↔ state = 1 ∨ ∃ child ∈ items, child.data.state = 1) := by
    intro items
    induction items with
    | nil => exact fun state _ => ⟨Or.inl, fun h => h.resolve_right nofun⟩
    | cons child items ih =>
        intro state hstate
        rw [List.foldl_cons]
        by_cases hchild : child.data.state = 1
        · have hone : (if state = 0 ∧ child.data.state = 1 then 1 else state) = 1 := by
            rcases hstate with rfl | rfl
            · exact if_pos ⟨rfl, hchild⟩
            · exact if_neg fun hzero => absurd hzero.1 (by decide)
          rw [ih _ (Or.inr hone)]
          exact iff_of_true (Or.inl hone) (Or.inr ⟨child, List.mem_cons_self, hchild⟩)
        · rw [if_neg fun hboth => hchild hboth.2, ih _ hstate, List.exists_mem_cons_iff,
            or_iff_right hchild]
  rw [stationState, hloop _ _ sourceState_cases, sources]
  exact or_congr_right (by simp)

/-- The sources of a station have different ids. -/
def Distinct (stationItem : TreeItem) : Prop :=
  ((sources stationItem).map fun source => source.1.toUInt32.toNat).Nodup

theorem Distinct.pairwise (h : Distinct stationItem) :
    stationItem.children.Pairwise fun a b =>
      ¬(isSource uavInfo a = true ∧ isSource uavInfo b = true) := by
  rw [Distinct, sources, List.map_map] at h
  refine (List.pairwise_map.mp h).imp fun hne hboth => hne ?_
  exact (of_decide_eq_true hboth.1).trans (of_decide_eq_true hboth.2).symm

/-- What there is to see of an item, its state apart. -/
def named (stationItem : TreeItem) : Int32 × String := (stationItem.data.id, stationItem.data.name)

theorem isStation_congr (h : named item = named stationItem) :
    isStation uavInfo item = isStation uavInfo stationItem := by
  obtain ⟨hid, hname⟩ := Prod.mk.inj h
  rw [isStation, hid, hname, isStation]

theorem any_isSource : stationItem.children.any (isSource uavInfo) = true ↔
    ∃ source ∈ sources stationItem, source.1.toUInt32.toNat = uavInfo.source := by
  simp [sources, isSource]

/-- The report is for this station, and for one of its sources. -/
def Concerns (uavInfo : UavInfo) (stationItem : TreeItem) : Prop :=
  isStation uavInfo stationItem = true ∧
    ∃ source ∈ sources stationItem, source.1.toUInt32.toNat = uavInfo.source

theorem updateStation_of_not_concerns (h : ¬Concerns uavInfo stationItem) :
    updateStation uavInfo inProperty stationItem = stationItem := by
  rw [updateStation]
  cases hstation : isStation uavInfo stationItem with
  | false => rfl
  | true =>
      cases hany : stationItem.children.any (isSource uavInfo) with
      | false => rfl
      | true => exact absurd ⟨hstation, any_isSource.mp hany⟩ h

theorem updateStation_of_concerns (h : Concerns uavInfo stationItem) :
    updateStation uavInfo inProperty stationItem =
      .node { stationItem.data with state := stationState uavInfo stationItem }
        (updateFirst (isSource uavInfo) (updateSource uavInfo inProperty)
          stationItem.children) := by
  rw [updateStation, h.1, any_isSource.mpr h.2]
  rfl

theorem reported_of_not_concerns (h : ¬Concerns uavInfo stationItem) {source : Int32 × Int32}
    (hmem : source ∈ sources stationItem) : reported uavInfo stationItem source = source :=
  if_neg fun hboth => h ⟨hboth.1, source, hmem, hboth.2⟩

theorem named_updateStation :
    named (updateStation uavInfo inProperty stationItem) = named stationItem := by
  by_cases h : Concerns uavInfo stationItem
  · rw [updateStation_of_concerns h]
    rfl
  · rw [updateStation_of_not_concerns h]

theorem sources_updateStation (h : Distinct stationItem) :
    sources (updateStation uavInfo inProperty stationItem) =
      (sources stationItem).map (reported uavInfo stationItem) := by
  by_cases hconcerns : Concerns uavInfo stationItem
  · have hpairwise := @h.pairwise uavInfo stationItem
    have hupdated := map_updateFirst
      (g := fun child : TreeItem => (child.data.id, child.data.state))
      (h := fun child => (child.data.id, sourceState uavInfo))
      (f := updateSource uavInfo inProperty) hpairwise fun _ _ => rfl
    rw [updateStation_of_concerns hconcerns, sources, TreeItem.children, hupdated, sources,
      List.map_map]
    refine List.map_congr_left fun child _ => ?_
    rw [Function.comp_apply, reported, ← sourceState_eq]
    refine if_congr ?_ rfl rfl
    rw [isSource, decide_eq_true_iff, hconcerns.1, and_iff_right rfl]
  · rw [updateStation_of_not_concerns hconcerns]
    exact (List.map_id' _).symm.trans (List.map_congr_left fun source hmem =>
      (reported_of_not_concerns hconcerns hmem).symm)

theorem state_updateStation (h : Concerns uavInfo stationItem) :
    (updateStation uavInfo inProperty stationItem).data.state =
      stationState uavInfo stationItem := by
  rw [updateStation_of_concerns h]
  rfl

/-! ### A report comes in again -/

/-- The item is the station with its sources reported. -/
structure Reported (uavInfo : UavInfo) (stationItem item : TreeItem) : Prop where
  named : named item = named stationItem
  sources : sources item = (sources stationItem).map (reported uavInfo stationItem)

theorem fst_reported (source : Int32 × Int32) :
    (reported uavInfo stationItem source).1 = source.1 := by
  rw [reported]
  split <;> rfl

theorem reported_reported (h : named item = named stationItem) (source : Int32 × Int32) :
    reported uavInfo item (reported uavInfo stationItem source) =
      reported uavInfo stationItem source := by
  rw [reported, fst_reported, isStation_congr h, reported]
  split <;> rfl

theorem Reported.distinct (hreported : Reported uavInfo stationItem item)
    (h : Distinct stationItem) : Distinct item := by
  rw [Distinct, hreported.sources, List.map_map]
  simp only [Function.comp_def, fst_reported]
  exact h

theorem reported_updateStation (h : Distinct stationItem) :
    Reported uavInfo stationItem (updateStation uavInfo inProperty stationItem) :=
  ⟨named_updateStation, sources_updateStation h⟩

theorem Reported.updateStation (hreported : Reported uavInfo stationItem item)
    (h : Distinct stationItem) :
    Reported uavInfo stationItem (UavTreeModel.updateStation uavInfo inProperty item) := by
  refine ⟨named_updateStation.trans hreported.named, ?_⟩
  rw [sources_updateStation (hreported.distinct h), hreported.sources, List.map_map]
  exact List.map_congr_left fun source _ => reported_reported hreported.named source

theorem Reported.concerns (hreported : Reported uavInfo stationItem item)
    (h : Concerns uavInfo stationItem) : Concerns uavInfo item := by
  obtain ⟨hstation, source, hmem, hid⟩ := h
  refine ⟨isStation_congr hreported.named ▸ hstation, reported uavInfo stationItem source, ?_, ?_⟩
  · rw [hreported.sources]
    exact List.mem_map_of_mem hmem
  · rw [fst_reported, hid]

/-- **The second time**, the state of the station is computed from the reported sources. -/
theorem Reported.checked (hreported : Reported uavInfo stationItem item) (h : Distinct stationItem)
    (hconcerns : Concerns uavInfo stationItem) :
    Checked (UavTreeModel.updateStation uavInfo inProperty item) := by
  have hagain : UavTreeModel.sources (UavTreeModel.updateStation uavInfo inProperty item) =
      UavTreeModel.sources item :=
    (hreported.updateStation h).sources.trans hreported.sources.symm
  rw [Checked, hagain, state_updateStation (hreported.concerns hconcerns),
    stationState_eq_one_iff]
  refine or_iff_right_of_imp fun hflight => ?_
  -- the reported source is in flight
  obtain ⟨hstation, source, hmem, hid⟩ := hconcerns
  refine ⟨reported uavInfo stationItem source, ?_, ?_⟩
  · rw [hreported.sources]
    exact List.mem_map_of_mem hmem
  · rw [reported, if_pos ⟨hstation, hid⟩, ← sourceState_eq]
    exact hflight

/-- The item of a station after all properties of a report. -/
def afterReport (sprintf4 : Double → String) (uavInfo : UavInfo) (stationItem : TreeItem) :
    TreeItem :=
  let property (id : Int32) (name : String) (text : String) : BaseItemData :=
    { id, pid := Int32.ofNat uavInfo.uavId, name, value := some (.text text) }
  let item := updateStation uavInfo (property LAT_PROPERTY_ID "lat" (sprintf4 uavInfo.lat))
    stationItem
  let item := updateStation uavInfo (property LON_PROPERTY_ID "lon" (sprintf4 uavInfo.lon)) item
  if UAV_SLICES_SOURCE ≠ uavInfo.source then
    updateStation uavInfo
      (property ALT_PROPERTY_ID "alt" (String.ofList (Text.number uavInfo.alt.toInt32))) item
  else item

theorem rootItem_onUavInfoChanged (hrole : uavRole = m.m_targetRole) :
    (m.onUavInfoChanged sprintf4 uavInfo uavRole).m_rootItem =
      m.m_rootItem.map fun child => (child.1, afterReport sprintf4 uavInfo child.2) := by
  rw [onUavInfoChanged, if_neg (not_not.mpr hrole)]
  by_cases hslices : UAV_SLICES_SOURCE ≠ uavInfo.source
  · simp only [onPropertyChanged, afterReport, if_pos hslices, List.map_map]
    rfl
  · simp only [onPropertyChanged, afterReport, if_neg hslices, List.map_map]
    rfl

theorem reported_afterReport (h : Distinct stationItem) :
    Reported uavInfo stationItem (afterReport sprintf4 uavInfo stationItem) := by
  rw [afterReport]
  split
  · exact ((reported_updateStation h).updateStation h).updateStation h
  · exact (reported_updateStation h).updateStation h

theorem checked_afterReport (h : Distinct stationItem) (hchecked : Checked stationItem) :
    Checked (afterReport sprintf4 uavInfo stationItem) := by
  rw [afterReport]
  by_cases hconcerns : Concerns uavInfo stationItem
  · split
    · exact ((reported_updateStation h).updateStation h).checked h hconcerns
    · exact (reported_updateStation h).checked h hconcerns
  · simp only [updateStation_of_not_concerns hconcerns, ite_self]
    exact hchecked

/-! ### All the notifications -/

/-- What holds of every station of the tree. -/
def AllChecked (m : UavTreeModel) : Prop :=
  ∀ child ∈ m.m_rootItem, Distinct child.2 ∧ Checked child.2

theorem sources_uavItem (uav : Uav) (uavRole : String) :
    Distinct (uavItem uav uavRole) ∧ ∀ source ∈ sources (uavItem uav uavRole), source.2 = 0 := by
  have hnew : ∀ ids : List Nat, (ids.map fun id => (Int32.ofNat id).toUInt32.toNat).Nodup →
      ((ids.map fun id => (Int32.ofNat id, (0 : Int32))).map
        fun source => source.1.toUInt32.toNat).Nodup ∧
      ∀ source ∈ ids.map fun id => (Int32.ofNat id, (0 : Int32)), source.2 = 0 := by
    intro ids hids
    refine ⟨by rwa [List.map_map], fun source hmem => ?_⟩
    obtain ⟨id, -, rfl⟩ := List.mem_map.mp hmem
    rfl
  rw [uavItem]
  split
  · exact hnew [UAV_AUTOPILOT_SOURCE, UAV_SLICES_SOURCE] (by decide)
  · split
    · exact hnew [UAV_SOLVER_AUTO_SOURCE, UAV_SOLVER_MANUAL_SOURCE, UAV_SOLVER_SINGLE_1_SOURCE,
        UAV_SOLVER_SINGLE_2_SOURCE] (by decide)
    · exact ⟨List.nodup_nil, fun _ hmem => absurd hmem List.not_mem_nil⟩

theorem checked_uavItem (uav : Uav) (uavRole : String) : Checked (uavItem uav uavRole) := by
  rw [Checked, data_uavItem]
  have hne : (0 : Int32) ≠ 1 := by decide
  refine iff_of_false hne ?_
  rintro ⟨source, hmem, hone⟩
  rw [(sources_uavItem uav uavRole).2 source hmem] at hone
  exact hne hone

theorem AllChecked.notify (h : AllChecked m) (notification : TreeNotification) :
    AllChecked (m.notify sprintf4 notification) := by
  cases notification with
  | life op =>
      cases op with
      | onUavAdded uav uavRole =>
          change AllChecked (m.onUavAdded uav uavRole)
          rw [onUavAdded]
          split
          · exact h
          · intro child hchild
            rcases List.mem_append.mp hchild with hold | hnew
            · exact h child hold
            · rw [List.mem_singleton.mp hnew]
              exact ⟨(sources_uavItem uav uavRole).1, checked_uavItem uav uavRole⟩
      | onUavRemoved uav uavRole =>
          change AllChecked (m.onUavRemoved uav uavRole)
          rw [onUavRemoved]
          split
          · exact h
          · split
            · exact h
            · exact fun child hchild => h child (List.mem_of_mem_filter hchild)
  | onUavInfoChanged uavInfo uavRole =>
      change AllChecked (m.onUavInfoChanged sprintf4 uavInfo uavRole)
      by_cases hrole : uavRole = m.m_targetRole
      · intro child hchild
        rw [rootItem_onUavInfoChanged hrole] at hchild
        obtain ⟨before, hbefore, rfl⟩ := List.mem_map.mp hchild
        obtain ⟨hdistinct, hchecked⟩ := h before hbefore
        exact ⟨(reported_afterReport hdistinct).distinct hdistinct,
          checked_afterReport hdistinct hchecked⟩
      · rw [onUavInfoChanged, if_pos hrole]
        exact h

theorem allChecked_foldl (sprintf4 : Double → String) (role : String)
    (notifications : List TreeNotification) :
    AllChecked (notifications.foldl (notify sprintf4) { m_targetRole := role }) := by
  refine Along.invariant (fun _ notification h (_ : True) => h.notify notification) ?_
    (Along.of_forall fun _ _ => trivial)
  exact fun child hchild => absurd hchild List.not_mem_nil

theorem targetRole_foldl (sprintf4 : Double → String) (m : UavTreeModel)
    (notifications : List TreeNotification) :
    (notifications.foldl (notify sprintf4) m).m_targetRole = m.m_targetRole := by
  refine foldl_keeps (notify sprintf4) m_targetRole (fun m notification => ?_) m notifications
  cases notification with
  | life op =>
      cases op with
      | onUavAdded uav uavRole =>
          change (m.onUavAdded uav uavRole).m_targetRole = _
          rw [onUavAdded]
          split <;> rfl
      | onUavRemoved uav uavRole =>
          change (m.onUavRemoved uav uavRole).m_targetRole = _
          rw [onUavRemoved]
          split
          · rfl
          · split <;> rfl
  | onUavInfoChanged uavInfo uavRole =>
      change (m.onUavInfoChanged sprintf4 uavInfo uavRole).m_targetRole = _
      rw [onUavInfoChanged]
      split
      · rfl
      · split <;> rfl

/-- **The states of the tree.** After any notifications every UAV is checked while one of its sources
is in flight; and a report of the role of the tree sets the state of the source it is for, and of no
other one. -/
theorem checked_and_reported (sprintf4 : Double → String) (role : String)
    (notifications : List TreeNotification) :
    let m := notifications.foldl (notify sprintf4) { m_targetRole := role }
    (∀ child ∈ m.m_rootItem, Checked child.2) ∧
    ∀ uavInfo, (m.onUavInfoChanged sprintf4 uavInfo role).m_rootItem.map
        (fun child => (child.1, sources child.2)) =
      m.m_rootItem.map fun child =>
        (child.1, (sources child.2).map (reported uavInfo child.2)) := by
  intro m
  have h : AllChecked m := allChecked_foldl sprintf4 role notifications
  refine ⟨fun child hchild => (h child hchild).2, fun uavInfo => ?_⟩
  have hrole : role = m.m_targetRole :=
    (targetRole_foldl sprintf4 { m_targetRole := role } notifications).symm
  rw [rootItem_onUavInfoChanged hrole, List.map_map]
  refine List.map_congr_left fun child hchild => ?_
  rw [Function.comp_apply, (reported_afterReport (h child hchild).1).sources]

end UavTreeModel

end ArmOd
