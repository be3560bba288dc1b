import ArmOd.Base.Latest
import ArmOd.Base.Run
import ArmOd.Qt.Values

/-!
# TabManager

A tab for every station of the configuration: its page, the controller whose view the page is, and
the `Station`. A new list of stations tears the tabs down and opens them again. The objects are
known by their addresses, and a teardown says which of them it deletes, in the order it does.

Deleting a page of a `QTabWidget` removes its tab; `removeTab` and `clear` remove tabs and leave the
pages. What becomes of the UAVs of the database is not a part of this model.
-/

namespace ArmOd

structure StationConfiguration where
  id : UInt32
  name : String
  latitude : Double := 0
  longitude : Double := 0
  deriving DecidableEq, Repr

structure Station where
  address : Nat
  id : Int
  name : String
  latitude : Double
  longitude : Double
  deriving DecidableEq, Repr

structure MapTabWidgetController where
  address : Nat
  m_station : Station
  deriving DecidableEq, Repr

/-- A page, with the controller it was appended to as its view. -/
structure MapTabWidget where
  address : Nat
  controller : MapTabWidgetController
  deriving DecidableEq, Repr

/-- A tab of the `QTabWidget`. -/
structure Tab where
  widget : MapTabWidget
  text : String
  deriving DecidableEq, Repr

/-- An object that is deleted. -/
inductive Deleted where
  | widget (address : Nat)
  | controller (address : Nat)
  | station (address : Nat)
  deriving DecidableEq, Repr

structure TabManager where
  m_tabWidget : List Tab := []
  m_stationsMap : QMap Int Station := ∅
  m_tabWidgetsMap : QMap String MapTabWidgetController := ∅
  /-- The address of the next object. -/
  next : Nat := 1

namespace TabManager

/-- `new Station()`, and its place in the map. -/
def insertStation (m : TabManager) (stationConf : StationConfiguration) : TabManager :=
  let station : Station :=
    { address := m.next, id := stationConf.id.toInt32.toInt, name := stationConf.name,
      latitude := stationConf.latitude, longitude := stationConf.longitude }
  { m with m_stationsMap := m.m_stationsMap.insert station.id station, next := m.next + 1 }

def setStationsConfiguration (m : TabManager) (stationList : List StationConfiguration) :
    TabManager :=
  stationList.foldl insertStation { m with m_stationsMap := ∅ }

def addStationTab (m : TabManager) (station : Station) : TabManager :=
  let tabWidgetController : MapTabWidgetController := { address := m.next, m_station := station }
  let tabWidget : MapTabWidget := { address := m.next + 1, controller := tabWidgetController }
  { m with
    m_tabWidget := m.m_tabWidget ++ [{ widget := tabWidget, text := station.name }]
    m_tabWidgetsMap := m.m_tabWidgetsMap.insert station.name tabWidgetController
    next := m.next + 2 }

def addStationTabs (m : TabManager) : TabManager :=
  (QMap.values m.m_stationsMap).foldl addStationTab m

/-- `take( station->name )`: there is no controller where it was taken before. -/
def takeController (s : QMap String MapTabWidgetController × List Deleted) (station : Station) :
    QMap String MapTabWidgetController × List Deleted :=
  match s.1[station.name]? with
  | some tabWidgetController =>
      (s.1.erase station.name, s.2 ++ [.controller tabWidgetController.address])
  | none => s

/-- The loop over the tabs, from an index: the tabs that are left, and the pages it deletes. -/
def closeTabs (tabs : List Tab) (index : Nat) : List Tab × List Deleted :=
  if h : index < tabs.length then
    -- the page takes its tab with it, and `removeTab( index )` finds the tab that came after
    let (left, deleted) := closeTabs ((tabs.eraseIdx index).eraseIdx index) (index + 1)
    (left, .widget tabs[index].widget.address :: deleted)
  else (tabs, [])
termination_by tabs.length - index
decreasing_by
  have hfirst := List.length_eraseIdx_of_lt h
  have hsecond := List.length_eraseIdx_le (tabs.eraseIdx index) index
  omega

def clearAllInformation (m : TabManager) : TabManager × List Deleted :=
  let stations := QMap.values m.m_stationsMap
  let controllers := (stations.foldl takeController (m.m_tabWidgetsMap, [])).2
  let widgets := (closeTabs m.m_tabWidget 0).2
  ({ m with m_tabWidgetsMap := ∅, m_tabWidget := [], m_stationsMap := ∅ },
    controllers ++ widgets ++ stations.map fun station => .station station.address)

/-- The answer with the list of stations, in `MainWindowController::onMethodCalled`. -/
def onStationList (m : TabManager) (stationList : List StationConfiguration) : TabManager :=
  (m.clearAllInformation.1.setStationsConfiguration stationList).addStationTabs

/-- The teardown deletes the page, the controller and the station of every tab exactly once, and
leaves no tab and two empty maps. -/
def TornDown (m : TabManager) : Prop :=
  (∀ tab ∈ m.m_tabWidget,
    m.clearAllInformation.2.count (.widget tab.widget.address) = 1 ∧
      m.clearAllInformation.2.count (.controller tab.widget.controller.address) = 1 ∧
      m.clearAllInformation.2.count (.station tab.widget.controller.m_station.address) = 1) ∧
    m.clearAllInformation.1.m_tabWidget = [] ∧
    m.clearAllInformation.1.m_stationsMap.isEmpty = true ∧
    m.clearAllInformation.1.m_tabWidgetsMap.isEmpty = true

/-! ### The loop over the tabs -/

/-- The first of every three. -/
def everyThird {α : Type} : List α → List α
  | [] => []
  | [a] => [a]
  | [a, _] => [a]
  | a :: _ :: _ :: as => a :: everyThird as

theorem everyThird_sublist {α : Type} (as : List α) : (everyThird as).Sublist as := by
  induction as using everyThird.induct with
  | case1 => exact List.Sublist.refl _
  | case2 a => exact List.Sublist.refl _
  | case3 a b => exact List.Sublist.cons_cons a (List.nil_sublist _)
  | case4 a b c as ih => exact List.Sublist.cons_cons a ((ih.cons c).cons b)

theorem everyThird_cons_cons_sublist {α : Type} (a b : α) (as : List α) :
    (everyThird (a :: b :: as)).Sublist (a :: as) := by
  cases as with
  | nil => exact List.Sublist.refl _
  | cons c as => exact List.Sublist.cons_cons a ((everyThird_sublist as).cons c)

theorem length_everyThird {α : Type} (as : List α) :
    (everyThird as).length = (as.length + 2) / 3 := by
  induction as using everyThird.induct with
  | case1 | case2 | case3 => simp [everyThird]
  | case4 a b c as ih =>
      rw [everyThird, List.length_cons, ih, List.length_cons, List.length_cons, List.length_cons]
      omega

/-- One round: the page is deleted, and the next tab is removed without its page. -/
theorem closeTabs_cons (front tabs : List Tab) (tab : Tab) :
    (closeTabs (front ++ tab :: tabs) front.length).2 =
      .widget tab.widget.address :: (closeTabs (front ++ tabs.tail) (front.length + 1)).2 := by
  have hindex : front.length < (front ++ tab :: tabs).length := by simp
  have herase : ((front ++ tab :: tabs).eraseIdx front.length).eraseIdx front.length =
      front ++ tabs.tail := by
    rw [List.eraseIdx_append_of_length_le (Nat.le_refl _), Nat.sub_self, List.eraseIdx_cons_zero,
      List.eraseIdx_append_of_length_le (Nat.le_refl _), Nat.sub_self, List.eraseIdx_zero]
  have hget : (front ++ tab :: tabs)[front.length] = tab := by simp
  rw [closeTabs, dif_pos hindex, herase, hget]

/-- The tab that comes to the place of the index is skipped, so that of three pages one is
deleted. -/
theorem closeTabs_append (front tabs : List Tab) :
    (closeTabs (front ++ tabs) front.length).2 =
      (everyThird tabs).map fun tab => .widget tab.widget.address := by
  induction tabs using everyThird.induct generalizing front with
  | case1 =>
      rw [closeTabs, dif_neg (by simp)]
      rfl
  | case2 a =>
      rw [closeTabs_cons, closeTabs, dif_neg (by simp)]
      rfl
  | case3 a b =>
      rw [closeTabs_cons, closeTabs, dif_neg (by simp)]
      rfl
  | case4 a b c tabs ih =>
      have hskip : front ++ (b :: c :: tabs).tail = (front ++ [c]) ++ tabs := by simp
      have hlength : front.length + 1 = (front ++ [c]).length := by simp
      rw [closeTabs_cons, hskip, hlength, ih]
      rfl

theorem closeTabs_zero (tabs : List Tab) :
    (closeTabs tabs 0).2 = (everyThird tabs).map fun tab => .widget tab.widget.address :=
  closeTabs_append [] tabs

theorem length_closeTabs (tabs : List Tab) :
    (closeTabs tabs 0).2.length = (tabs.length + 2) / 3 := by
  rw [closeTabs_zero, List.length_map, length_everyThird]

/-! ### The tabs that are open -/

/-- The tabs are those of the stations, each page is an object of its own, and the map has the
controllers under the texts of the tabs. -/
structure Opened (m : TabManager) (stations : List Station) : Prop where
  stations_eq : (m.m_tabWidget.map fun tab => tab.widget.controller.m_station) = stations
  named : ∀ tab ∈ m.m_tabWidget, tab.text = tab.widget.controller.m_station.name
  controllers_eq : m.m_tabWidgetsMap =
    insertAll Tab.text (fun tab => tab.widget.controller) m.m_tabWidget ∅
  below : ∀ tab ∈ m.m_tabWidget, tab.widget.address < m.next
  nodup : (m.m_tabWidget.map fun tab => tab.widget.address).Nodup

theorem Opened.addStationTab {m : TabManager} {stations : List Station} (h : m.Opened stations)
    (station : Station) : (m.addStationTab station).Opened (stations ++ [station]) where
  stations_eq := by
    rw [TabManager.addStationTab, List.map_append, h.stations_eq]
    rfl
  named tab htab := by
    rcases List.mem_append.mp htab with hold | hnew
    · exact h.named tab hold
    · rw [List.mem_singleton.mp hnew]
  controllers_eq := by
    rw [TabManager.addStationTab, h.controllers_eq, insertAll, insertAll, List.foldl_concat]
  below tab htab := by
    rcases List.mem_append.mp htab with hold | hnew
    · exact (h.below tab hold).trans (by simp [TabManager.addStationTab])
    · rw [List.mem_singleton.mp hnew]
      simp [TabManager.addStationTab]
  nodup := by
    rw [TabManager.addStationTab, List.map_append]
    refine List.nodup_append'.mpr ⟨h.nodup, List.nodup_singleton _, ?_⟩
    intro address hold hnew
    obtain ⟨tab, htab, rfl⟩ := List.mem_map.mp hold
    have hbelow := h.below tab htab
    have heq : tab.widget.address = m.next + 1 := List.mem_singleton.mp hnew
    omega

theorem Opened.addStationTabs {m : TabManager} {stations : List Station} (h : m.Opened stations)
    (more : List Station) :
    (more.foldl TabManager.addStationTab m).Opened (stations ++ more) := by
  induction more generalizing m stations with
  | nil => rwa [List.append_nil]
  | cons station more ih =>
      rw [List.foldl_cons, List.append_cons]
      exact ih (h.addStationTab station)

theorem m_stationsMap_onStationList (m : TabManager) (stationList : List StationConfiguration) :
    (m.onStationList stationList).m_stationsMap =
      (m.clearAllInformation.1.setStationsConfiguration stationList).m_stationsMap :=
  foldl_keeps TabManager.addStationTab TabManager.m_stationsMap (fun _ _ => rfl) _ _

theorem opened_onStationList (m : TabManager) (stationList : List StationConfiguration) :
    (m.onStationList stationList).Opened
      (QMap.values (m.onStationList stationList).m_stationsMap) := by
  have htabs : (m.clearAllInformation.1.setStationsConfiguration stationList).m_tabWidget = [] :=
    foldl_keeps insertStation TabManager.m_tabWidget (fun _ _ => rfl) _ _
  have hwidgets :
      (m.clearAllInformation.1.setStationsConfiguration stationList).m_tabWidgetsMap = ∅ :=
    foldl_keeps insertStation TabManager.m_tabWidgetsMap (fun _ _ => rfl) _ _
  have hempty : (m.clearAllInformation.1.setStationsConfiguration stationList).Opened [] :=
    { stations_eq := by rw [htabs]; rfl
      named := by rw [htabs]; exact List.forall_mem_nil _
      controllers_eq := by rw [htabs, hwidgets]; rfl
      below := by rw [htabs]; exact List.forall_mem_nil _
      nodup := by rw [htabs]; exact List.nodup_nil }
  rw [m_stationsMap_onStationList]
  exact hempty.addStationTabs _

theorem opened_run (history : List (List StationConfiguration)) :
    (history.foldl onStationList {}).Opened
      (QMap.values (history.foldl onStationList {}).m_stationsMap) := by
  induction history using List.reverseRecOn with
  | nil =>
      exact ⟨rfl, List.forall_mem_nil _, rfl, List.forall_mem_nil _, List.nodup_nil⟩
  | append_singleton history stationList =>
      rw [List.foldl_concat]
      exact opened_onStationList _ stationList

theorem length_tabs_eq {m : TabManager} (h : m.Opened (QMap.values m.m_stationsMap)) :
    m.m_tabWidget.length = m.m_stationsMap.keys.length := by
  have hstations := congrArg List.length h.stations_eq
  rwa [List.length_map, QMap.values, List.length_map, Std.TreeMap.length_toList,
    ← Std.TreeMap.length_keys] at hstations

theorem mem_insertStations {m : TabManager} {stationList : List StationConfiguration} {id : Int} :
    id ∈ (stationList.foldl insertStation m).m_stationsMap ↔
      id ∈ m.m_stationsMap ∨ ∃ conf ∈ stationList, conf.id.toInt32.toInt = id := by
  induction stationList generalizing m with
  | nil => simp
  | cons conf stationList ih =>
      rw [List.foldl_cons, ih, insertStation, QMap.mem_insert, List.exists_mem_cons_iff]
      tauto

theorem mem_stationsMap_iff {m : TabManager} {stationList : List StationConfiguration} {id : Int} :
    id ∈ (m.onStationList stationList).m_stationsMap ↔
      ∃ conf ∈ stationList, conf.id.toInt32.toInt = id := by
  rw [m_stationsMap_onStationList, setStationsConfiguration, mem_insertStations]
  exact or_iff_right Std.TreeMap.not_mem_emptyc

/-- There is at most one tab just where all stations of the list have one id. -/
theorem length_tabs_le_one_iff (m : TabManager) (stationList : List StationConfiguration) :
    (m.onStationList stationList).m_tabWidget.length ≤ 1 ↔
      ∀ a ∈ stationList, ∀ b ∈ stationList, a.id = b.id := by
  rw [length_tabs_eq (opened_onStationList m stationList),
    ← List.toFinset_card_of_nodup Std.TreeMap.nodup_keys, Finset.card_le_one]
  simp only [List.mem_toFinset, Std.TreeMap.mem_keys, mem_stationsMap_iff]
  constructor
  · intro h a ha b hb
    have heq := h _ ⟨a, ha, rfl⟩ _ ⟨b, hb, rfl⟩
    exact congrArg Int32.toUInt32 (Int32.toInt_inj.mp heq)
  · rintro h _ ⟨a, ha, rfl⟩ _ ⟨b, hb, rfl⟩
    rw [h a ha b hb]

/-- Every station of the map is an object of its own. -/
structure Held (m : TabManager) : Prop where
  below : ∀ (id : Int) (s : Station), m.m_stationsMap[id]? = some s → s.address < m.next
  distinct : ∀ (id id' : Int) (s s' : Station), m.m_stationsMap[id]? = some s →
    m.m_stationsMap[id']? = some s' → s.address = s'.address → id = id'

theorem held_empty (m : TabManager) : Held { m with m_stationsMap := ∅ } where
  below _ _ h := absurd (QMap.mem_of_getElem? h) Std.TreeMap.not_mem_emptyc
  distinct _ _ _ _ h _ _ := absurd (QMap.mem_of_getElem? h) Std.TreeMap.not_mem_emptyc

theorem Held.insertStation {m : TabManager} (h : m.Held) (conf : StationConfiguration) :
    (m.insertStation conf).Held := by
  have hget : ∀ (id : Int) (s : Station), (m.insertStation conf).m_stationsMap[id]? = some s →
      conf.id.toInt32.toInt = id ∧ s.address = m.next ∨ m.m_stationsMap[id]? = some s := by
    intro id s hs
    rw [TabManager.insertStation, QMap.getElem?_insert] at hs
    split at hs
    · rename_i hid
      exact Or.inl ⟨hid, by rw [← Option.some.inj hs]⟩
    · exact Or.inr hs
  constructor
  · intro id s hs
    have hlt : m.next < (m.insertStation conf).next := Nat.lt_succ_self _
    rcases hget id s hs with ⟨-, hnew⟩ | hold
    · rwa [hnew]
    · exact (h.below id s hold).trans hlt
  · intro id id' s s' hs hs' heq
    rcases hget id s hs with ⟨hid, hnew⟩ | hold <;>
      rcases hget id' s' hs' with ⟨hid', hnew'⟩ | hold'
    · rw [← hid, hid']
    · exact absurd (h.below id' s' hold') (by omega)
    · exact absurd (h.below id s hold) (by omega)
    · exact h.distinct id id' s s' hold hold' heq

theorem Held.insertStations {m : TabManager} (h : m.Held)
    (stationList : List StationConfiguration) :
    (stationList.foldl TabManager.insertStation m).Held := by
  induction stationList generalizing m with
  | nil => exact h
  | cons conf stationList ih => exact ih (h.insertStation conf)

theorem Held.nodup {m : TabManager} (h : m.Held) :
    ((QMap.values m.m_stationsMap).map fun station => station.address).Nodup :=
  QMap.nodup_map_values _ h.distinct

theorem nodup_stations_run (history : List (List StationConfiguration)) :
    ((QMap.values (history.foldl onStationList {}).m_stationsMap).map
      fun station => station.address).Nodup := by
  induction history using List.reverseRecOn with
  | nil => exact List.nodup_nil
  | append_singleton history stationList =>
      rw [List.foldl_concat, m_stationsMap_onStationList]
      exact ((held_empty _).insertStations stationList).nodup

/-! ### The teardown -/

variable {m : TabManager}

theorem exists_of_mem_takeController {stations : List Station}
    {s : QMap String MapTabWidgetController × List Deleted} {d : Deleted}
    (h : d ∈ (stations.foldl takeController s).2) :
    d ∈ s.2 ∨ ∃ address, d = .controller address := by
  induction stations generalizing s with
  | nil => exact Or.inl h
  | cons station stations ih =>
      rcases ih h with htaken | hlater
      · rw [takeController] at htaken
        split at htaken
        · rcases List.mem_append.mp htaken with hold | hnew
          · exact Or.inl hold
          · exact Or.inr ⟨_, List.mem_singleton.mp hnew⟩
        · exact Or.inl htaken
      · exact Or.inr hlater

theorem notMem_takeController {stations : List Station}
    {map : QMap String MapTabWidgetController} {d : Deleted}
    (hd : ∀ address, d ≠ .controller address) :
    d ∉ (stations.foldl takeController (map, [])).2 := by
  intro h
  rcases exists_of_mem_takeController h with hnone | ⟨address, heq⟩
  · cases hnone
  · exact hd address heq

theorem widget_mem_deleted_iff {address : Nat} :
    .widget address ∈ m.clearAllInformation.2 ↔
      ∃ tab ∈ everyThird m.m_tabWidget, tab.widget.address = address := by
  rw [clearAllInformation, closeTabs_zero]
  simp only [List.mem_append, List.mem_map, reduceCtorEq, and_false, exists_false, or_false,
    Deleted.widget.injEq]
  exact or_iff_right (notMem_takeController (by simp))

theorem controller_mem_takeController {stations : List Station} {address : Nat}
    {s : QMap String MapTabWidgetController × List Deleted} :
    .controller address ∈ (stations.foldl takeController s).2 ↔
      .controller address ∈ s.2 ∨ ∃ station ∈ stations, ∃ c : MapTabWidgetController,
        s.1[station.name]? = some c ∧ c.address = address := by
  induction stations generalizing s with
  | nil => simp
  | cons station stations ih =>
      rw [List.foldl_cons, ih, List.exists_mem_cons_iff, takeController]
      split
      · rename_i c hc
        simp only [QMap.getElem?_erase_eq_some, List.mem_append, List.mem_singleton,
          Deleted.controller.injEq, hc, Option.some.injEq, exists_eq_left']
        by_cases haddress : c.address = address
        · exact iff_of_true (Or.inl (Or.inr haddress.symm)) (Or.inr (Or.inl haddress))
        · have hrest : ∀ station' : Station, ∀ c' : MapTabWidgetController,
              (station.name ≠ station'.name ∧ s.1[station'.name]? = some c') ∧
                c'.address = address ↔ s.1[station'.name]? = some c' ∧ c'.address = address := by
            refine fun station' c' => ⟨fun h => ⟨h.1.2, h.2⟩, fun h => ⟨⟨fun hname => ?_, h.1⟩, h.2⟩⟩
            -- under the same name there is the controller that was taken
            obtain rfl : c = c' := Option.some.inj (hc.symm.trans (hname ▸ h.1))
            exact haddress h.2
          simp only [hrest, Ne.symm haddress, haddress, or_false, false_or]
      · rename_i hnone
        rw [hnone]
        simp

/-- The controllers that are deleted are those of the last tab of every name. -/
theorem controller_mem_deleted_iff (h : m.Opened (QMap.values m.m_stationsMap)) {address : Nat} :
    .controller address ∈ m.clearAllInformation.2 ↔
      ∃ tab ∈ latest Tab.text m.m_tabWidget, tab.widget.controller.address = address := by
  have hnames : ∀ station : Station, station ∈ QMap.values m.m_stationsMap ↔
      ∃ tab ∈ m.m_tabWidget, tab.widget.controller.m_station = station := fun station => by
    rw [← h.stations_eq, List.mem_map]
  rw [clearAllInformation, closeTabs_zero]
  simp only [List.mem_append, List.mem_map, reduceCtorEq, and_false, exists_false, or_false]
  rw [controller_mem_takeController, h.controllers_eq, or_iff_right List.not_mem_nil]
  constructor
  · rintro ⟨station, hstation, c, hget, rfl⟩
    obtain ⟨tab, htab, hname⟩ := exists_of_mem_insertAll (QMap.mem_of_getElem? hget)
    have hlatest : (insertAll Tab.text (fun tab => tab.widget.controller) m.m_tabWidget ∅)[tab.text]?
      = some tab.widget.controller := getElem?_insertAll_of_mem htab
    rw [hname, hget] at hlatest
    exact ⟨tab, htab, by rw [Option.some.inj hlatest]⟩
  · rintro ⟨tab, htab, rfl⟩
    have hmem := mem_of_mem_latest htab
    refine ⟨_, (hnames _).mpr ⟨tab, hmem, rfl⟩, tab.widget.controller, ?_, rfl⟩
    rw [← h.named tab hmem]
    exact getElem?_insertAll_of_mem htab

/-- The stations of the map are deleted once each, however many tabs there are. -/
theorem count_station_eq_one (history : List (List StationConfiguration)) {station : Station}
    (h : station ∈ QMap.values (history.foldl onStationList {}).m_stationsMap) :
    (history.foldl onStationList {}).clearAllInformation.2.count (.station station.address) =
      1 := by
  rw [clearAllInformation, closeTabs_zero, List.count_append, List.count_append]
  have hcontrollers : ∀ (stations : List Station) (map : QMap String MapTabWidgetController),
      (stations.foldl takeController (map, [])).2.count (.station station.address) = 0 :=
    fun _ _ => List.count_eq_zero.mpr (notMem_takeController (by simp))
  have hwidgets : ∀ tabs : List Tab, (tabs.map fun tab => Deleted.widget tab.widget.address).count
      (.station station.address) = 0 := fun tabs => List.count_eq_zero.mpr (by simp)
  have hnodup : ((QMap.values (history.foldl onStationList {}).m_stationsMap).map
      fun station => Deleted.station station.address).Nodup := by
    have hinj : Function.Injective Deleted.station := fun _ _ h => by
      cases h
      rfl
    have hmap := (nodup_stations_run history).map hinj
    rwa [List.map_map] at hmap
  rw [hcontrollers, hwidgets, List.count_eq_one_of_mem hnodup (List.mem_map_of_mem h)]

/-! ### Stations of one id -/

theorem exists_station_insertStation {p : Int → Prop} {address : Nat} (conf : StationConfiguration)
    (hold : address < m.next) :
    (∃ id s, p id ∧ (m.insertStation conf).m_stationsMap[id]? = some s ∧ s.address = address) ↔
      ∃ id s, (conf.id.toInt32.toInt ≠ id ∧ p id) ∧ m.m_stationsMap[id]? = some s ∧
        s.address = address := by
  refine exists_congr fun id => exists_congr fun s => ?_
  rw [insertStation, QMap.getElem?_insert]
  split
  · rename_i hid
    refine iff_of_false ?_ fun h => h.1.1 hid
    rintro ⟨-, hs, haddress⟩
    rw [← Option.some.inj hs] at haddress
    exact absurd haddress hold.ne'
  · rename_i hid
    rw [ne_eq, and_iff_right hid]

theorem exists_station_insertStations {p : Int → Prop} {address : Nat}
    (stationList : List StationConfiguration) (hold : address < m.next) :
    (∃ id s, p id ∧ (stationList.foldl insertStation m).m_stationsMap[id]? = some s ∧
      s.address = address) ↔
      ∃ id s, ((∀ conf ∈ stationList, conf.id.toInt32.toInt ≠ id) ∧ p id) ∧
        m.m_stationsMap[id]? = some s ∧ s.address = address := by
  induction stationList generalizing m with
  | nil => simp
  | cons conf stationList ih =>
      rw [List.foldl_cons, ih (hold.trans (Nat.lt_succ_self _)),
        exists_station_insertStation conf hold]
      simp only [List.forall_mem_cons, and_assoc]

theorem next_insertStations (stationList : List StationConfiguration) :
    (stationList.foldl insertStation m).next = m.next + stationList.length := by
  induction stationList generalizing m with
  | nil => rfl
  | cons conf stationList ih =>
      rw [List.foldl_cons, ih, List.length_cons, insertStation]
      dsimp only
      omega

theorem station_mem_clearAllInformation_iff {address : Nat} :
    .station address ∈ m.clearAllInformation.2 ↔
      ∃ (id : Int) (s : Station), m.m_stationsMap[id]? = some s ∧ s.address = address := by
  have hcontrollers : .station address ∉
      ((QMap.values m.m_stationsMap).foldl takeController (m.m_tabWidgetsMap, [])).2 :=
    notMem_takeController (by simp)
  rw [clearAllInformation, closeTabs_zero]
  simp only [List.mem_append, hcontrollers, List.mem_map, reduceCtorEq, and_false, exists_false,
    false_or, Deleted.station.injEq, QMap.mem_values_iff]
  constructor
  · rintro ⟨s, ⟨id, hs⟩, haddress⟩
    exact ⟨id, s, hs, haddress⟩
  · rintro ⟨id, s, hs, haddress⟩
    exact ⟨s, ⟨id, hs⟩, haddress⟩

/-- **A station whose id comes again** in its list is replaced in the map, and the teardown deletes
it as little as any page it skips; every other one is deleted. -/
theorem station_mem_deleted_iff (m : TabManager) (before after : List StationConfiguration)
    (conf : StationConfiguration) :
    .station (m.next + before.length) ∈
      (m.onStationList (before ++ conf :: after)).clearAllInformation.2 ↔
      ∀ conf' ∈ after, conf'.id ≠ conf.id := by
  -- `m₁` is the manager when the station is made
  let m₁ := before.foldl insertStation { m.clearAllInformation.1 with m_stationsMap := ∅ }
  have hnext : m₁.next = m.next + before.length := next_insertStations before
  have hheld : m₁.Held := (held_empty m.clearAllInformation.1).insertStations before
  rw [station_mem_clearAllInformation_iff, m_stationsMap_onStationList, setStationsConfiguration,
    List.foldl_append, List.foldl_cons, ← hnext]
  have hiff := exists_station_insertStations (m := m₁.insertStation conf) (p := fun _ => True)
    after (Nat.lt_succ_self m₁.next)
  simp only [true_and, and_true] at hiff
  refine hiff.trans ⟨?_, fun hlast => ?_⟩
  · rintro ⟨id, s, hlast, hs, haddress⟩ conf' hconf' heq
    refine hlast conf' hconf' ?_
    rw [insertStation, QMap.getElem?_insert] at hs
    split at hs
    · rename_i hid
      rwa [heq]
    · exact absurd (hheld.below id s hs) (by omega)
  · refine ⟨conf.id.toInt32.toInt, _, fun conf' hconf' heq => hlast conf' hconf' ?_,
      Std.TreeMap.getElem?_insert_self, rfl⟩
    exact congrArg Int32.toUInt32 (Int32.toInt_inj.mp heq)

/-! ### What is torn down -/

theorem tornDown_of_le_one (h : m.Opened (QMap.values m.m_stationsMap))
    (hone : m.m_tabWidget.length ≤ 1) : m.TornDown := by
  refine ⟨fun tab htab => ?_, rfl, Std.TreeMap.isEmpty_emptyc, Std.TreeMap.isEmpty_emptyc⟩
  obtain ⟨tab', heq⟩ : ∃ tab', m.m_tabWidget = [tab'] :=
    List.length_eq_one_iff.mp (le_antisymm hone (List.length_pos_of_mem htab))
  rw [heq, List.mem_singleton] at htab
  subst htab
  have hstations : QMap.values m.m_stationsMap = [tab.widget.controller.m_station] := by
    rw [← h.stations_eq, heq]
    rfl
  have hname : tab.text = tab.widget.controller.m_station.name :=
    h.named tab (heq ▸ List.mem_singleton_self tab)
  have hcontroller : m.m_tabWidgetsMap[tab.widget.controller.m_station.name]? =
      some tab.widget.controller := by
    rw [h.controllers_eq, heq, ← hname]
    exact Std.TreeMap.getElem?_insert_self
  have hdeleted : m.clearAllInformation.2 = [.controller tab.widget.controller.address,
      .widget tab.widget.address, .station tab.widget.controller.m_station.address] := by
    rw [clearAllInformation, closeTabs_zero, heq, hstations]
    simp only [List.foldl_cons, List.foldl_nil, takeController, hcontroller, everyThird]
    rfl
  rw [hdeleted]
  simp

theorem le_one_of_tornDown (h : m.Opened (QMap.values m.m_stationsMap)) (htorn : m.TornDown) :
    m.m_tabWidget.length ≤ 1 := by
  cases htabs : m.m_tabWidget with
  | nil => exact Nat.zero_le 1
  | cons first tabs =>
      cases tabs with
      | nil => exact Nat.le_refl 1
      | cons second tabs =>
          exfalso
          have hsecond := (htorn.1 second (by simp [htabs])).1
          have hmem : .widget second.widget.address ∈ m.clearAllInformation.2 :=
            List.count_pos_iff.mp (by omega)
          obtain ⟨tab, htab, haddress⟩ := widget_mem_deleted_iff.mp hmem
          rw [htabs] at htab
          have hkept : tab ∈ first :: tabs :=
            (everyThird_cons_cons_sublist first second tabs).subset htab
          have hnodup : ((first :: second :: tabs).map fun tab => tab.widget.address).Nodup :=
            htabs ▸ h.nodup
          obtain rfl : tab = second := List.inj_on_of_nodup_map hnodup
            ((everyThird_sublist _).subset htab) (by simp) haddress
          have hdistinct := hnodup.of_map
          rw [List.nodup_cons, List.nodup_cons] at hdistinct
          rcases List.mem_cons.mp hkept with rfl | hrest
          · exact hdistinct.1 List.mem_cons_self
          · exact hdistinct.2.1 hrest

/-- **The teardown is complete** just where there is at most one tab. -/
theorem tornDown_iff (history : List (List StationConfiguration)) :
    (history.foldl onStationList {}).TornDown ↔
      (history.foldl onStationList {}).m_tabWidget.length ≤ 1 :=
  ⟨le_one_of_tornDown (opened_run history), tornDown_of_le_one (opened_run history)⟩

/-- With two stations the second page is not deleted. -/
theorem not_tornDown :
    ¬∀ history : List (List StationConfiguration), (history.foldl onStationList {}).TornDown := by
  intro h
  have htwo := le_one_of_tornDown (opened_run _)
    (h [[{ id := 1, name := "DD-1" }, { id := 2, name := "DD-2" }]])
  exact absurd htwo (by decide +kernel)

end TabManager

end ArmOd
