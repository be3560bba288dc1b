import ArmOd.Base.ObjectMap
import ArmOd.Base.Run
import ArmOd.DbBla.HistoryNotifications

/-!
# The UAV features of the map

The features of the UAVs stand in two lists under their extended ids, in which the source of the
slices counts as the autopilot. To remove those of one UAV the map asks for its ids with every
source it has ever been given, which is enough since no other UAV has one of these ids and every id
on the lists has a source that was given.

What is not on the lists is left out: the texts of the features and the timers that hide them.
-/

namespace ArmOd

theorem historical_eq_of_getExtendedId {a b : UavInfo} (h : getExtendedId a = getExtendedId b) :
    a.historical = b.historical := by
  have hlast : ∀ info : UavInfo, (getExtendedId info).toList.getLast? =
      some (if info.historical then '1' else '0') := by
    intro info
    rw [getExtendedId, String.toList_append, List.getLast?_append]
    cases info.historical <;> rfl
  have hflag := hlast a
  rw [h, hlast b] at hflag
  revert hflag
  cases a.historical <;> cases b.historical <;> decide

namespace UavModel

/-- The id of a UAV with a source. -/
def getExtendedId (uav : Uav) (source : Nat) : String :=
  ArmOd.getExtendedId
    { uavId := uav.uavId, historical := uav.historical, source, lat := 0, lon := 0, latStddev := 0,
      lonStddev := 0, alt := 0, speed := 0, yaw := 0, restTime := 0, statusId := 0,
      dateTime := .null }

end UavModel

namespace MapFeature

def TRACK_LENGTH : Nat := 100

structure BplaAbstract where
  m_sourceId : Nat
  m_isHistorical : Bool
  m_position : QPointF
  m_altitude : Double
  m_speed : Double
  m_angle : Double
  m_lattitudeStddev : Double := 0
  m_longtitudeStddev : Double := 0
  m_tail : List QPointF := []
  m_slices : List QPointF := []
  m_tailEnabled : Bool := true
  m_autoTail : Bool := true
  deriving DecidableEq, Repr

/-- A point at the end of a track, of which the last points are kept. -/
def appendPoint (points : List QPointF) (point : QPointF) : List QPointF :=
  (points ++ [point]).drop ((points ++ [point]).length - TRACK_LENGTH)

namespace BplaAbstract

def setPosition (position : QPointF) (bpla : BplaAbstract) : BplaAbstract :=
  { bpla with
    m_position := position
    m_tail := if bpla.m_tailEnabled && bpla.m_autoTail then appendPoint bpla.m_tail position
      else bpla.m_tail }

def create (uav : UavInfo) : BplaAbstract :=
  setPosition ⟨uav.lon, uav.lat⟩
    { m_sourceId := uav.source, m_isHistorical := uav.historical, m_position := ⟨uav.lon, uav.lat⟩,
      m_altitude := uav.alt, m_speed := uav.speed, m_angle := uav.yaw }

/-- The points of the tail have latitude and longitude the other way round. -/
def setTail (tail _tailStdDev : List QPointF) (bpla : BplaAbstract) : BplaAbstract :=
  { bpla with m_tail := tail.map (fun point => ⟨point.y, point.x⟩) ++ [bpla.m_position] }

def setSlice (slice : QPointF) (bpla : BplaAbstract) : BplaAbstract :=
  { bpla with m_slices := appendPoint bpla.m_slices slice }

/-- `same` is `==` of two positions. A number that is equal to the old one is not assigned, which
comes to the same. -/
def update (same : QPointF → QPointF → Bool) (uav : UavInfo) (bpla : BplaAbstract) :
    BplaAbstract :=
  let point : QPointF := ⟨uav.lon, uav.lat⟩
  { if same point bpla.m_position then bpla else bpla.setPosition point with
    m_altitude := uav.alt
    m_angle := uav.yaw
    m_speed := uav.speed
    m_lattitudeStddev := uav.latStddev
    m_longtitudeStddev := uav.lonStddev }

end BplaAbstract

abbrev FriendBpla := BplaAbstract

structure EnemyBpla extends BplaAbstract where
  m_styleName : String
  deriving DecidableEq, Repr

end MapFeature

/-- `MapStyleManager::getEnemyBplaStyleName`. -/
def getEnemyBplaStyleName (source : Nat) : String := "EmenyBPLA_" ++ QString.number source

namespace MapFeature

namespace EnemyBpla

def create (uav : UavInfo) : EnemyBpla :=
  let bpla := BplaAbstract.create uav
  { bpla with
    m_styleName := getEnemyBplaStyleName uav.source
    m_autoTail := if uav.historical then bpla.m_autoTail else false
    m_tailEnabled := if uav.source = UAV_SOLVER_SINGLE_1_SOURCE ∨
      uav.source = UAV_SOLVER_SINGLE_2_SOURCE then false else bpla.m_tailEnabled }

/-- Data of another source than the feature's own is dropped. -/
def update (same : QPointF → QPointF → Bool) (uav : UavInfo) (bpla : EnemyBpla) : EnemyBpla :=
  if bpla.m_sourceId ≠ uav.source then bpla
  else { bpla with toBplaAbstract := bpla.toBplaAbstract.update same uav }

def setTail (tail tailStdDev : List QPointF) (bpla : EnemyBpla) : EnemyBpla :=
  { bpla with toBplaAbstract := bpla.toBplaAbstract.setTail tail tailStdDev }

end EnemyBpla

end MapFeature

namespace MapClient1

open MapFeature

structure BplaFeatures where
  m_friendBplaList : ObjectMap String FriendBpla := .empty
  m_enemyBplaList : ObjectMap String EnemyBpla := .empty
  m_uavKnownSources : List Nat := []

/-- A source other than these two makes no feature, and is a known source all the same. -/
def addFriendBplaInternal (same : QPointF → QPointF → Bool) (uav : UavInfo) (s : BplaFeatures) :
    BplaFeatures :=
  let id := getExtendedId uav
  let s := { s with m_uavKnownSources := s.m_uavKnownSources.insert uav.source }
  if uav.source = UAV_SLICES_SOURCE then
    { s with
      m_friendBplaList := s.m_friendBplaList.update id (BplaAbstract.setSlice ⟨uav.lon, uav.lat⟩)
        (BplaAbstract.create uav) }
  else if uav.source = UAV_AUTOPILOT_SOURCE then
    { s with
      m_friendBplaList := s.m_friendBplaList.update id (BplaAbstract.update same uav)
        (BplaAbstract.create uav) }
  else s

/-- The tail is set in the feature that was found or made. -/
def addEnemyBplaInternal (same : QPointF → QPointF → Bool) (uav : UavInfo)
    (tail tailStdDev : List QPointF) (s : BplaFeatures) : BplaFeatures :=
  let tailed (bpla : EnemyBpla) := if uav.historical then bpla else bpla.setTail tail tailStdDev
  { s with
    m_uavKnownSources := s.m_uavKnownSources.insert uav.source
    m_enemyBplaList := s.m_enemyBplaList.update (getExtendedId uav)
      (fun bpla => tailed (bpla.update same uav)) (tailed (EnemyBpla.create uav)) }

/-- One feature in the loop of `removeAllonePointTimer`. -/
def removeOnePoint (m_enemyBplaList : ObjectMap String EnemyBpla) (bla : Nat) :
    ObjectMap String EnemyBpla :=
  if m_enemyBplaList.heap[bla]?.map EnemyBpla.m_styleName = some (getEnemyBplaStyleName 104) then
    m_enemyBplaList.forget bla
  else m_enemyBplaList

/-- The loop is over a copy of the list. -/
def removeAllonePointTimer (s : BplaFeatures) : BplaFeatures :=
  { s with
    m_enemyBplaList := (QMap.values s.m_enemyBplaList.addresses).foldl removeOnePoint
      s.m_enemyBplaList }

/-- One source in the loop of `removeBplaInternal`. -/
def removeSource (uav : Uav) (s : BplaFeatures) (source : Nat) : BplaFeatures :=
  let id := UavModel.getExtendedId uav source
  { s with
    m_friendBplaList := s.m_friendBplaList.take id
    m_enemyBplaList := s.m_enemyBplaList.take id }

def removeBplaInternal (uav : Uav) (s : BplaFeatures) : BplaFeatures :=
  s.m_uavKnownSources.foldl (removeSource uav) s

inductive BplaCall where
  | addFriendBpla (uav : UavInfo)
  | addEnemyBpla (uav : UavInfo) (tail tailStdDev : List QPointF)
  | onePointTimer
  | removeBpla (uav : Uav)

def BplaCall.run (same : QPointF → QPointF → Bool) (s : BplaFeatures) : BplaCall → BplaFeatures
  | addFriendBpla uav => addFriendBplaInternal same uav s
  | addEnemyBpla uav tail tailStdDev => addEnemyBplaInternal same uav tail tailStdDev s
  | onePointTimer => removeAllonePointTimer s
  | removeBpla uav => removeBplaInternal uav s

variable {same : QPointF → QPointF → Bool} {s s' : BplaFeatures} {uav : Uav} {key : String}
  {sources : List Nat} {source : Nat}

/-! ### What the lists hold -/

/-- Every id on the lists is that of a UAV with a known source. -/
def BplaFeatures.Known (s : BplaFeatures) : Prop :=
  ∀ key, (s.m_friendBplaList.value key).isSome ∨ (s.m_enemyBplaList.value key).isSome →
    ∃ info : UavInfo, info.source ∈ s.m_uavKnownSources ∧ getExtendedId info = key

theorem BplaFeatures.Known.mono (h : s.Known)
    (hfriend : ∀ key, (s'.m_friendBplaList.value key).isSome →
      (s.m_friendBplaList.value key).isSome)
    (henemy : ∀ key, (s'.m_enemyBplaList.value key).isSome → (s.m_enemyBplaList.value key).isSome)
    (hsources : s.m_uavKnownSources ⊆ s'.m_uavKnownSources) : s'.Known := by
  intro key hkey
  obtain ⟨info, hsource, hid⟩ := h key (hkey.imp (hfriend key) (henemy key))
  exact ⟨info, hsources hsource, hid⟩

theorem BplaFeatures.Known.add (h : s.Known) (uav : UavInfo)
    (hfriend : ∀ key, (s'.m_friendBplaList.value key).isSome →
      getExtendedId uav = key ∨ (s.m_friendBplaList.value key).isSome)
    (henemy : ∀ key, (s'.m_enemyBplaList.value key).isSome →
      getExtendedId uav = key ∨ (s.m_enemyBplaList.value key).isSome)
    (hsources : s'.m_uavKnownSources = s.m_uavKnownSources.insert uav.source) : s'.Known := by
  intro key hkey
  have hcases : getExtendedId uav = key ∨
      (s.m_friendBplaList.value key).isSome ∨ (s.m_enemyBplaList.value key).isSome :=
    hkey.elim (fun hf => (hfriend key hf).imp_right Or.inl)
      fun he => (henemy key he).imp_right Or.inr
  rw [hsources]
  rcases hcases with heq | hold
  · exact ⟨uav, List.mem_insert_self, heq⟩
  · obtain ⟨info, hsource, hid⟩ := h key hold
    exact ⟨info, List.mem_insert_of_mem hsource, hid⟩

theorem isSome_value_update {ν : Type} {m : ObjectMap String ν} {id key : String} {f : ν → ν}
    {v : ν} (h : ((m.update id f v).value key).isSome) : id = key ∨ (m.value key).isSome := by
  rw [ObjectMap.value_update] at h
  split at h
  · exact Or.inl ‹_›
  · exact Or.inr h

theorem BplaFeatures.Known.addFriendBplaInternal (h : s.Known) (uav : UavInfo) :
    (addFriendBplaInternal same uav s).Known := by
  rw [MapClient1.addFriendBplaInternal]
  dsimp only
  split
  · exact h.add uav (fun _ => isSome_value_update) (fun _ => Or.inr) rfl
  · split
    · exact h.add uav (fun _ => isSome_value_update) (fun _ => Or.inr) rfl
    · exact h.add uav (fun _ => Or.inr) (fun _ => Or.inr) rfl

theorem BplaFeatures.Known.addEnemyBplaInternal (h : s.Known) (uav : UavInfo)
    (tail tailStdDev : List QPointF) :
    (addEnemyBplaInternal same uav tail tailStdDev s).Known :=
  h.add uav (fun _ => Or.inr) (fun _ => isSome_value_update) rfl

theorem isSome_value_removeOnePoint {m : ObjectMap String EnemyBpla} {bla : Nat}
    (h : ((removeOnePoint m bla).value key).isSome) : (m.value key).isSome := by
  rw [removeOnePoint] at h
  split at h
  · rw [ObjectMap.value_forget] at h
    split at h
    · cases h
    · exact h
  · exact h

theorem isSome_value_removeOnePoints {blas : List Nat} {m : ObjectMap String EnemyBpla}
    (h : ((blas.foldl removeOnePoint m).value key).isSome) : (m.value key).isSome := by
  induction blas generalizing m with
  | nil => exact h
  | cons bla blas ih => exact isSome_value_removeOnePoint (ih h)

theorem BplaFeatures.Known.removeAllonePointTimer (h : s.Known) :
    (removeAllonePointTimer s).Known :=
  h.mono (fun _ hf => hf) (fun _ he => isSome_value_removeOnePoints he) (List.Subset.refl _)

/-! ### Removal -/

theorem value_takeAll {ν : Type} (uav : Uav) (sources : List Nat) (m : ObjectMap String ν)
    (key : String) :
    (sources.foldl (fun m source => m.take (UavModel.getExtendedId uav source)) m).value key =
      if ∃ source ∈ sources, UavModel.getExtendedId uav source = key then none
      else m.value key := by
  induction sources generalizing m with
  | nil => rw [if_neg (by simp), List.foldl_nil]
  | cons source sources ih =>
      rw [List.foldl_cons, ih, ObjectMap.value_take]
      by_cases hfirst : UavModel.getExtendedId uav source = key
      · rw [if_pos hfirst, ite_self, if_pos ⟨source, List.mem_cons_self, hfirst⟩]
      · rw [if_neg hfirst]
        refine if_congr ?_ rfl rfl
        rw [List.exists_mem_cons_iff, or_iff_right hfirst]

theorem removeSources_eq : sources.foldl (removeSource uav) s =
    { s with
      m_friendBplaList := sources.foldl
        (fun m source => m.take (UavModel.getExtendedId uav source)) s.m_friendBplaList
      m_enemyBplaList := sources.foldl
        (fun m source => m.take (UavModel.getExtendedId uav source)) s.m_enemyBplaList } := by
  induction sources generalizing s with
  | nil => rfl
  | cons source sources ih => exact ih

theorem isSome_value_takeAll {ν : Type} {m : ObjectMap String ν}
    (h : ((sources.foldl
      (fun m source => m.take (UavModel.getExtendedId uav source)) m).value key).isSome) :
    (m.value key).isSome := by
  rw [value_takeAll] at h
  split at h
  · cases h
  · exact h

theorem BplaFeatures.Known.removeBplaInternal (h : s.Known) (uav : Uav) :
    (removeBplaInternal uav s).Known := by
  rw [MapClient1.removeBplaInternal, removeSources_eq]
  exact h.mono (fun _ => isSome_value_takeAll) (fun _ => isSome_value_takeAll) (List.Subset.refl _)

theorem BplaFeatures.Known.run (h : s.Known) (call : BplaCall) : (call.run same s).Known := by
  cases call with
  | addFriendBpla uav => exact h.addFriendBplaInternal uav
  | addEnemyBpla uav tail tailStdDev => exact h.addEnemyBplaInternal uav tail tailStdDev
  | onePointTimer => exact h.removeAllonePointTimer
  | removeBpla uav => exact h.removeBplaInternal uav

theorem BplaFeatures.known_start : BplaFeatures.Known {} := by
  intro key hkey
  rw [ObjectMap.value_empty, ObjectMap.value_empty] at hkey
  rcases hkey with hkey | hkey <;> cases hkey

variable {info : UavInfo}

theorem UavModel.getExtendedId_of_eq (hid : info.uavId = uav.uavId)
    (hhistorical : info.historical = uav.historical) :
    UavModel.getExtendedId uav info.source = getExtendedId info := by
  rw [UavModel.getExtendedId, ArmOd.getExtendedId, ArmOd.getExtendedId, hid, hhistorical]

/-- The ids that are asked for are those of the UAV, as far as there are any. -/
theorem BplaFeatures.Known.exists_source_iff (h : s.Known)
    (hkey : (s.m_friendBplaList.value (getExtendedId info)).isSome ∨
      (s.m_enemyBplaList.value (getExtendedId info)).isSome) :
    (∃ source ∈ s.m_uavKnownSources, UavModel.getExtendedId uav source = getExtendedId info) ↔
      info.uavId = uav.uavId ∧ info.historical = uav.historical := by
  constructor
  · rintro ⟨source, -, heq⟩
    exact ⟨(uavId_eq_of_getExtendedId heq).symm, (historical_eq_of_getExtendedId heq).symm⟩
  · rintro ⟨hid, hhistorical⟩
    obtain ⟨known, hsource, heq⟩ := h _ hkey
    refine ⟨known.source, hsource, heq ▸ UavModel.getExtendedId_of_eq ?_ ?_⟩
    · exact (uavId_eq_of_getExtendedId heq).trans hid
    · exact (historical_eq_of_getExtendedId heq).trans hhistorical

/-- On either list: the ids of the UAV are empty, and what stands under another id stays. -/
theorem BplaFeatures.Known.value_takeAll {ν : Type} {m : ObjectMap String ν} (h : s.Known)
    (hm : (m.value (getExtendedId info)).isSome →
      (s.m_friendBplaList.value (getExtendedId info)).isSome ∨
        (s.m_enemyBplaList.value (getExtendedId info)).isSome) :
    (s.m_uavKnownSources.foldl
      (fun m source => m.take (UavModel.getExtendedId uav source)) m).value (getExtendedId info) =
      if info.uavId = uav.uavId ∧ info.historical = uav.historical then none
      else m.value (getExtendedId info) := by
  rw [MapClient1.value_takeAll]
  cases hvalue : m.value (getExtendedId info) with
  | none => rw [ite_self, ite_self]
  | some v => exact if_congr (h.exists_source_iff (hm (by rw [hvalue]; rfl))) rfl rfl

/-- **After any calls, removing a UAV empties its ids, with every source, and no other one.** -/
theorem value_removeBplaInternal (same : QPointF → QPointF → Bool) (calls : List BplaCall)
    (uav : Uav) (info : UavInfo) :
    let s := calls.foldl (BplaCall.run same) {}
    ((removeBplaInternal uav s).m_friendBplaList.value (getExtendedId info) =
      if info.uavId = uav.uavId ∧ info.historical = uav.historical then none
      else s.m_friendBplaList.value (getExtendedId info)) ∧
    ((removeBplaInternal uav s).m_enemyBplaList.value (getExtendedId info) =
      if info.uavId = uav.uavId ∧ info.historical = uav.historical then none
      else s.m_enemyBplaList.value (getExtendedId info)) := by
  intro s
  have hrun : Along (BplaCall.run same) (fun _ _ => True) {} calls :=
    Along.of_forall fun _ _ => trivial
  have hknown : s.Known :=
    hrun.invariant (fun s call h _ => h.run call) BplaFeatures.known_start
  rw [removeBplaInternal, removeSources_eq]
  exact ⟨hknown.value_takeAll Or.inl, hknown.value_takeAll Or.inr⟩

end MapClient1

end ArmOd
