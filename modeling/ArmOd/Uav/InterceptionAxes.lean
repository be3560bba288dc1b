import ArmOd.DbBla.Defines
import ArmOd.Qt.QDataStream
import ArmOd.Uav.ZInterception

/-!
# The axes of an interception

A position passes from the map client to `ZInterception` through two byte streams, as a `QPointF`
whose `x` is the longitude. The projection takes `x` for the latitude, and its inverse puts the axes
back as they came, so that the reported point is one of the map again. What the swapped axes leave
behind is the cosine at the wrong angle, and a target whose course is taken from the east.

Records that the map client packs hold finite numbers, which the exact arithmetic takes over.
-/

namespace ArmOd

/-- The values of the functions that are used at the courses 0 and 90. -/
structure Trigonometry (K : Type) [Field K] extends Functions K where
  sin_zero : sin 0 = 0
  cos_zero : cos 0 = 1
  sin_ninety : sin (90 / 180 * ZInterception.pi) = 1
  cos_ninety : cos (90 / 180 * ZInterception.pi) = 0

/-- The numbers of a record. -/
structure Fix (K : Type) where
  lat : K
  lon : K
  alt : K
  speed : K
  yaw : K
  deriving DecidableEq, Repr

variable {K : Type} [Field K]

namespace Double

/-- A finite number without rounding. -/
def value? : Double → Option K
  | .fin q => some q
  | _ => none

end Double

def QPointF.value? (p : QPointF) : Option (Point K) := do
  return ⟨← p.x.value?, ← p.y.value?⟩

def UavInfo.fix? (info : UavInfo) : Option (Fix K) := do
  return ⟨← info.lat.value?, ← info.lon.value?, ← info.alt.value?, ← info.speed.value?,
    ← info.yaw.value?⟩

theorem value?_of_fix? {info : UavInfo} {fix : Fix K} (h : info.fix? = some fix) :
    info.lat.value? = some fix.lat ∧ info.lon.value? = some fix.lon ∧
      info.alt.value? = some fix.alt ∧ info.speed.value? = some fix.speed ∧
      info.yaw.value? = some fix.yaw := by
  simp only [UavInfo.fix?, Option.bind_eq_bind, Option.bind_eq_some_iff] at h
  obtain ⟨lat, hlat, lon, hlon, alt, halt, speed, hspeed, yaw, hyaw, hfix⟩ := h
  cases hfix
  exact ⟨hlat, hlon, halt, hspeed, hyaw⟩

namespace MapClient1

/-- The bytes for the interceptor. -/
def packPer (tempInfo : UavInfo) : QByteArray :=
  [.qPointF ⟨tempInfo.lon, tempInfo.lat⟩, .double tempInfo.alt, .double tempInfo.speed,
    .double tempInfo.yaw, .int 1]

/-- The bytes for the target. -/
def packTarget (tempInfo : UavInfo) : QByteArray :=
  let sko : QPointF := ⟨tempInfo.lon, tempInfo.lat⟩
  [.int 1, .int 1, .qPointF sko] ++ QDataStream.write (fun p => [.qPointF p]) [sko] ++
    [.double tempInfo.speed, .double tempInfo.alt, .double tempInfo.yaw]

/-- The arguments of `ZInterception::set`. An empty list has no last record. -/
def addPerehvatData (blaInfoList bplaInfoList : List UavInfo) :
    Option (QByteArray × QByteArray) := do
  return (packPer (← blaInfoList.getLast?), packTarget (← bplaInfoList.getLast?))

end MapClient1

namespace ZInterception

open QDataStream

variable [LinearOrder K]

/-- The interceptor's position and height; its speed, course and state are read and not used. -/
def readPer : Reader Item (QPointF × Double) := do
  let point1 ← readQPointF
  let alt1 ← readDouble
  let _speed1 ← readDouble
  let _course1 ← readDouble
  let _state1 ← readInt
  return (point1, alt1)

/-- The target's last position, and its speed, height and course. -/
def readTarget : Reader Item (QPointF × Double × Double × Double) := do
  let _time ← readInt
  let _state ← readInt
  let _sko ← readQPointF
  let track ← readAll readQPointF
  let speed ← readDouble
  let alt ← readDouble
  let bearing ← readDouble
  match track.getLast? with
  | some last => return (last, speed, alt, bearing)
  | none => failure

/-! ### The courses to the north and to the east -/

variable {t : Trigonometry K} {z : ZInterception K}

theorem coord_of_north (hcourse : z.mCurrentAimCourse = 0) (hspeed : 1 / 10 ≤ z.mCurrentAimSpd)
    (i : Nat) : (perehvatPoint t.toFunctions z i).coord.y = z.mCoordCurrentAim.y := by
  rw [perehvatPoint, tempInterceptionCoord_of_le hspeed, hcourse, zero_div, zero_mul, t.sin_zero,
    decartToGeogr, zero_mul, zero_mul, zero_mul, zero_div, zero_div, zero_div, add_zero]

theorem coord_of_east (hcourse : z.mCurrentAimCourse = 90) (hspeed : 1 / 10 ≤ z.mCurrentAimSpd)
    (i : Nat) : (perehvatPoint t.toFunctions z i).coord.x = z.mCoordCurrentAim.x := by
  rw [perehvatPoint, tempInterceptionCoord_of_le hspeed, hcourse, t.cos_ninety, decartToGeogr,
    zero_mul, zero_mul, zero_mul, zero_div, zero_div, add_zero]

variable [IsStrictOrderedRing K]

/-! ### What is received -/

/-- `_slot_set`, as far as `mainProcessing`. -/
def slotSet (bla bpla : Int) (per target : QByteArray) : Option (ZInterception K) := do
  let ((last, speed, alt, bearing), _) ← readTarget.run target
  let ((point1, alt1), _) ← readPer.run per
  return {
    _bla := bla
    _bpla := bpla
    mCoordCurrentIntc := ← point1.value?
    mHgtCurrentIntc := ← alt1.value?
    mMaxSpd := 30
    mMaxHgtSpd := 5
    mCoordCurrentAim := ← last.value?
    mHgtCurrentAim := ← alt.value?
    mCurrentAimSpd := ← speed.value?
    mCurrentAimCourse := ← bearing.value?
    mMaxSpd_pos := by norm_num
    mMaxHgtSpd_pos := by norm_num }

/-- What `ZInterception` has when `mainProcessing` begins. -/
def received (bla bpla : Int) (blaInfoList bplaInfoList : List UavInfo) :
    Option (ZInterception K) := do
  let (per, target) ← MapClient1.addPerehvatData blaInfoList bplaInfoList
  slotSet bla bpla per target

/-- **The axes.** On the plane around the target `x` leads to the east and `y` to the north, as the
motion of a target has it. -/
structure AxesRight (f : Functions K) (friend enemy : Fix K) (z : ZInterception K) : Prop where
  /-- The differences of longitude are scaled by the cosine of the target's latitude. -/
  scaled : decartCoordIntc f z =
    ⟨(friend.lon - enemy.lon) * pi * ERadius / 180 * f.cos (enemy.lat * pi / 180),
      (friend.lat - enemy.lat) * pi * ERadius / 180⟩
  /-- A target that flies to the north is expected at its longitude, in the north. -/
  north : enemy.yaw = 0 → 1 / 10 ≤ enemy.speed → ∀ i, 0 < i → i < aAllTime →
    (perehvatPoint f z i).coord.x = enemy.lon ∧ enemy.lat < (perehvatPoint f z i).coord.y
  /-- A target that flies to the east is expected in the east. -/
  east : enemy.yaw = 90 → 1 / 10 ≤ enemy.speed → ∀ i, 0 < i → i < aAllTime →
    enemy.lon < (perehvatPoint f z i).coord.x
  /-- The reported point has its axes in the order of the positions that were packed. -/
  order : f.cos (z.mCoordCurrentAim.x * pi / 180) ≠ 0 → ∀ p,
    geogrToDecart f (decartToGeogr f p z.mCoordCurrentAim) z.mCoordCurrentAim = p

variable {f : Functions K} {friend enemy : Fix K} {blaInfoList bplaInfoList : List UavInfo}

theorem run_readTarget (tempInfo : UavInfo) : readTarget.run (MapClient1.packTarget tempInfo) =
    some ((⟨tempInfo.lon, tempInfo.lat⟩, tempInfo.speed, tempInfo.alt, tempInfo.yaw), []) := rfl

theorem run_readPer (tempInfo : UavInfo) : readPer.run (MapClient1.packPer tempInfo) =
    some ((⟨tempInfo.lon, tempInfo.lat⟩, tempInfo.alt), []) := rfl

/-- What is packed is what is read, with the longitude first. -/
theorem received_eq (bla bpla : Int)
    (hfriend : (blaInfoList.getLast?.bind UavInfo.fix?) = some friend)
    (henemy : (bplaInfoList.getLast?.bind UavInfo.fix?) = some enemy) :
    received bla bpla blaInfoList bplaInfoList = some {
      _bla := bla
      _bpla := bpla
      mCoordCurrentIntc := ⟨friend.lon, friend.lat⟩
      mHgtCurrentIntc := friend.alt
      mMaxSpd := 30
      mMaxHgtSpd := 5
      mCoordCurrentAim := ⟨enemy.lon, enemy.lat⟩
      mHgtCurrentAim := enemy.alt
      mCurrentAimSpd := enemy.speed
      mCurrentAimCourse := enemy.yaw
      mMaxSpd_pos := by norm_num
      mMaxHgtSpd_pos := by norm_num } := by
  obtain ⟨info, hinfo, hfix⟩ := Option.bind_eq_some_iff.mp hfriend
  obtain ⟨info', hinfo', hfix'⟩ := Option.bind_eq_some_iff.mp henemy
  obtain ⟨hlat, hlon, halt, -, -⟩ := value?_of_fix? hfix
  obtain ⟨hlat', hlon', halt', hspeed', hyaw'⟩ := value?_of_fix? hfix'
  simp only [received, MapClient1.addPerehvatData, hinfo, hinfo', slotSet, run_readTarget,
    run_readPer, QPointF.value?, hlat, hlon, halt, hlat', hlon', halt', hspeed', hyaw',
    Option.bind_eq_bind, Option.bind_some, Option.pure_def]

/-! ### Where the axes do not matter -/

theorem pi_pos : 0 < (pi : K) := by
  rw [pi]
  norm_num

theorem ERadius_pos : 0 < (ERadius : K) := by
  rw [ERadius]
  norm_num

theorem geogrToDecart_decartToGeogr {c : Point K} (hcos : f.cos (c.x * pi / 180) ≠ 0) (p : Point K) :
    geogrToDecart f (decartToGeogr f p c) c = p := by
  have hpi : (pi : K) ≠ 0 := pi_pos.ne'
  have hradius : (ERadius : K) ≠ 0 := ERadius_pos.ne'
  have hx : (c.y + p.x * 180 / f.cos (c.x * pi / 180) / ERadius / pi - c.y) * pi * ERadius / 180 *
      f.cos (c.x * pi / 180) = p.x := by
    rw [add_sub_cancel_left]
    field_simp
  have hy : (c.x + p.y * 180 / pi / ERadius - c.x) * pi * ERadius / 180 = p.y := by
    rw [add_sub_cancel_left]
    field_simp
  exact congrArg₂ Point.mk hx hy

/-- The scale is right where the two differences are the same, and so are the two cosines unless
there is no difference. -/
theorem scaled_iff {lat lon c c' : K} :
    (⟨lat * pi * ERadius / 180 * c, lon * pi * ERadius / 180⟩ : Point K) =
      ⟨lon * pi * ERadius / 180 * c', lat * pi * ERadius / 180⟩ ↔
      lon = lat ∧ (lat = 0 ∨ c = c') := by
  have hscale : (pi * ERadius / 180 : K) ≠ 0 :=
    (div_pos (mul_pos pi_pos ERadius_pos) (by norm_num)).ne'
  have hassoc : ∀ x : K, x * pi * ERadius / 180 = x * (pi * ERadius / 180) := fun x => by ring
  rw [Point.mk.injEq, hassoc, hassoc, mul_left_inj' hscale]
  constructor
  · rintro ⟨hx, rfl⟩
    rcases mul_eq_mul_left_iff.mp hx with hc | hzero
    · exact ⟨rfl, Or.inr hc⟩
    · exact ⟨rfl, Or.inl ((mul_eq_zero.mp hzero).resolve_right hscale)⟩
  · rintro ⟨rfl, hzero | hc⟩
    · exact ⟨by rw [hzero, zero_mul, zero_mul, zero_mul], rfl⟩
    · exact ⟨by rw [hc], rfl⟩

/-- **The axes of an interception** are right exactly where the interceptor is as far to the east of
the target as to the north, with no difference at all or one cosine for the longitude and the
latitude, and the target stands still or flies neither to the north nor to the east. -/
theorem axesRight_iff (t : Trigonometry K) (bla bpla : Int) (blaInfoList bplaInfoList : List UavInfo)
    (friend enemy : Fix K)
    (hfriend : (blaInfoList.getLast?.bind UavInfo.fix?) = some friend)
    (henemy : (bplaInfoList.getLast?.bind UavInfo.fix?) = some enemy) :
    (∃ z, received bla bpla blaInfoList bplaInfoList = some z ∧
      AxesRight t.toFunctions friend enemy z) ↔
    (friend.lon - enemy.lon = friend.lat - enemy.lat ∧
      (friend.lat - enemy.lat = 0 ∨
        t.cos (enemy.lon * pi / 180) = t.cos (enemy.lat * pi / 180))) ∧
    (enemy.speed < 1 / 10 ∨ enemy.yaw ≠ 0 ∧ enemy.yaw ≠ 90) := by
  rw [received_eq bla bpla hfriend henemy]
  constructor
  · rintro ⟨z, hz, hscaled, hnorth, heast, -⟩
    cases hz
    refine ⟨scaled_iff.mp hscaled, ?_⟩
    rcases lt_or_ge enemy.speed (1 / 10) with hslow | hspeed
    · exact Or.inl hslow
    · refine Or.inr ⟨fun hyaw => ?_, fun hyaw => ?_⟩
      · have hlt := (hnorth hyaw hspeed 1 one_pos (by decide)).2
        rw [coord_of_north hyaw hspeed] at hlt
        exact lt_irrefl _ hlt
      · have hlt := heast hyaw hspeed 1 one_pos (by decide)
        rw [coord_of_east hyaw hspeed] at hlt
        exact lt_irrefl _ hlt
  · rintro ⟨hscaled, hcourse⟩
    refine ⟨_, rfl, scaled_iff.mpr hscaled, fun hyaw hspeed => ?_, fun hyaw hspeed => ?_,
      geogrToDecart_decartToGeogr⟩
    · exact absurd hyaw (hcourse.resolve_left (not_lt.mpr hspeed)).1
    · exact absurd hyaw (hcourse.resolve_left (not_lt.mpr hspeed)).2

/-- The values the courses need, and one at every other angle. -/
def sampleTrigonometry : Trigonometry ℚ where
  sin := fun x => if x = 0 then 0 else 1
  cos := fun x => if x = 90 / 180 * pi then 0 else 1
  sqrt := fun x => x
  atan2 := fun _ _ => 0
  sin_zero := by decide +kernel
  cos_zero := by decide +kernel
  sin_ninety := by decide +kernel
  cos_ninety := by decide +kernel

def recordAt (lat lon yaw : ℚ) : UavInfo where
  uavId := 1
  source := 1
  lat := .fin lat
  lon := .fin lon
  latStddev := 0
  lonStddev := 0
  alt := 500
  speed := 10
  yaw := .fin yaw
  restTime := 0
  statusId := 1
  dateTime := ⟨0, 0⟩

/-- An interceptor over its target. -/
theorem axesRight_samePlace : ∃ z, received 1 2 [recordAt 60 30 0] [recordAt 60 30 45] = some z ∧
    AxesRight sampleTrigonometry.toFunctions ⟨60, 30, 500, 10, 0⟩ ⟨60, 30, 500, 10, 45⟩ z :=
  (axesRight_iff sampleTrigonometry 1 2 [recordAt 60 30 0] [recordAt 60 30 45]
    ⟨60, 30, 500, 10, 0⟩ ⟨60, 30, 500, 10, 45⟩ (by decide +kernel) (by decide +kernel)).mpr
    (by decide +kernel)

/-- A target one degree to the north that flies to the north. -/
theorem not_axesRight : ¬∀ (t : Trigonometry ℚ) (bla bpla : Int)
    (blaInfoList bplaInfoList : List UavInfo) (friend enemy : Fix ℚ),
    (blaInfoList.getLast?.bind UavInfo.fix?) = some friend →
    (bplaInfoList.getLast?.bind UavInfo.fix?) = some enemy →
    ∃ z, received bla bpla blaInfoList bplaInfoList = some z ∧
      AxesRight t.toFunctions friend enemy z := by
  intro h
  have hfriend : ([recordAt 60 30 0].getLast?.bind UavInfo.fix?) =
      some (⟨60, 30, 500, 10, 0⟩ : Fix ℚ) := by decide +kernel
  have henemy : ([recordAt 61 30 0].getLast?.bind UavInfo.fix?) =
      some (⟨61, 30, 500, 10, 0⟩ : Fix ℚ) := by decide +kernel
  obtain ⟨z, hz, hright⟩ := h sampleTrigonometry 1 2 _ _ _ _ hfriend henemy
  rw [received_eq 1 2 hfriend henemy] at hz
  cases hz
  have hnorth := (hright.north rfl (by decide +kernel) 1 one_pos (by decide)).2
  rw [coord_of_north rfl (by decide +kernel)] at hnorth
  exact absurd hnorth (by decide +kernel)

end ZInterception

end ArmOd
