import ArmOd.Base.While

/-!
# ZInterception

The search for the point at which a target can be intercepted, second by second for an hour. The
arithmetic is exact: the numbers are those of an ordered field, and the functions of `qmath.h` are
any functions on it.

The search tests the time the interceptor needs to climb from the height it has to the height over
the target. The height it then reports is the one it would have had it started on the ground.
-/

namespace ArmOd

/-- A `QPointF` without rounding. -/
structure Point (K : Type) where
  x : K
  y : K
  deriving DecidableEq, Repr

/-- The functions of `qmath.h`. -/
structure Functions (K : Type) where
  sin : K → K
  cos : K → K
  sqrt : K → K
  atan2 : K → K → K

/-- The interceptor and its target. The speeds of the interceptor are positive: `_slot_set` sets them
to 30 and 5. -/
structure ZInterception (K : Type) [Field K] [LinearOrder K] where
  _bla : Int
  _bpla : Int
  mCoordCurrentIntc : Point K
  mHgtCurrentIntc : K
  mMaxSpd : K
  mMaxHgtSpd : K
  mCoordCurrentAim : Point K
  mHgtCurrentAim : K
  mCurrentAimSpd : K
  mCurrentAimCourse : K
  mMaxSpd_pos : 0 < mMaxSpd
  mMaxHgtSpd_pos : 0 < mMaxHgtSpd

/-- A call of `addPerehvatPoint`. -/
structure PerehvatPoint (K : Type) where
  blaId : Int
  bplaId : Int
  coord : Point K
  hgt : K
  radius : K
  time : Nat
  intcCourse : K
  intcSpeed : K
  deriving DecidableEq, Repr

namespace ZInterception

variable {K : Type} [Field K] [LinearOrder K]

def pi : K := 31415926535897932385 / 10 ^ 19
def ERadius : K := 6366197724 / 10 ^ 3

/-- An hour for the interception. -/
def aAllTime : Nat := 60 * 60

variable (f : Functions K)

def geogrToDecart (aGeogrCoord aCentrCoord : Point K) : Point K :=
  let popravka := f.cos (aCentrCoord.x * pi / 180)
  let dY := (aGeogrCoord.x - aCentrCoord.x) * pi * ERadius / 180
  let dX := (aGeogrCoord.y - aCentrCoord.y) * pi * ERadius / 180
  ⟨dX * popravka, dY⟩

def decartToGeogr (aDecartCoord aCentrCoord : Point K) : Point K where
  x := aCentrCoord.x + aDecartCoord.y * 180 / pi / ERadius
  y := aCentrCoord.y + aDecartCoord.x * 180 / f.cos (aCentrCoord.x * pi / 180) / ERadius / pi

def getDistance (aDecartCoordA aDecartCoordB : Point K) : K :=
  let aTempA := aDecartCoordA.x - aDecartCoordB.x
  let aTempB := aDecartCoordA.y - aDecartCoordB.y
  f.sqrt (aTempA * aTempA + aTempB * aTempB)

/-- The speed along the axes is computed for nobody, and left out. -/
def getAngle (aDecartCoordA aDecartCoordB : Point K) : K :=
  f.atan2 (aDecartCoordB.x - aDecartCoordA.x) (aDecartCoordB.y - aDecartCoordA.y) / pi * 180

def getNextCoord (aDecartCoordAim : Point K) (aAngle aSpeed : K) (aTimeSec : Nat) : Point K :=
  let aXSpd := f.sin (aAngle / 180 * pi) * aSpeed
  let aYSpd := f.cos (aAngle / 180 * pi) * aSpeed
  ⟨aDecartCoordAim.x + aXSpd * aTimeSec, aDecartCoordAim.y + aYSpd * aTimeSec⟩

variable (z : ZInterception K)

/-- Where the target will be, on the plane around the place where it is. -/
def tempInterceptionCoord (i : Nat) : Point K :=
  if z.mCurrentAimSpd < 1 / 10 then ⟨0, 0⟩
  else getNextCoord f ⟨0, 0⟩ z.mCurrentAimCourse z.mCurrentAimSpd i

def decartCoordIntc : Point K := geogrToDecart f z.mCoordCurrentIntc z.mCoordCurrentAim

/-- The time the interceptor needs to fly there. -/
def timeToIntercept (i : Nat) : K :=
  getDistance f (tempInterceptionCoord f z i) (decartCoordIntc f z) / z.mMaxSpd

/-- The time it needs to climb. -/
def timeToHgtIntercept : K := (z.mHgtCurrentAim + 1000 - z.mHgtCurrentIntc) / z.mMaxHgtSpd

/-- The call for the second `i`. -/
def perehvatPoint (i : Nat) : PerehvatPoint K where
  blaId := z._bla
  bplaId := z._bpla
  coord := decartToGeogr f (tempInterceptionCoord f z i) z.mCoordCurrentAim
  hgt := i * z.mMaxHgtSpd
  radius := i * z.mMaxHgtSpd - z.mHgtCurrentAim
  time := i
  intcCourse := getAngle f (decartCoordIntc f z) (tempInterceptionCoord f z i)
  intcSpeed := z.mMaxSpd

/-- The interception is possible at the second `i`. -/
def CanIntercept (i : Nat) : Prop := timeToIntercept f z i < i ∧ timeToHgtIntercept z < i

instance (i : Nat) : Decidable (CanIntercept f z i) := inferInstanceAs (Decidable (_ ∧ _))

/-- The counter of the loop, and the calls made so far. -/
structure Search (K : Type) where
  i : Nat := 0
  calls : List (PerehvatPoint K) := []
  deriving DecidableEq, Repr

/-- A round of the loop; setting the counter past the hour is how it is left. -/
def searchSecond (s : Search K) : Search K :=
  let s := if CanIntercept f z s.i then
    { i := aAllTime + 10, calls := s.calls ++ [perehvatPoint f z s.i] } else s
  { s with i := s.i + 1 }

/-- `mainProcessing` after so many rounds. -/
def mainProcessing (n : Nat) : Search K :=
  rounds (fun s => decide (s.i < aAllTime)) (searchSecond f z) n {}

variable {f : Functions K} {z : ZInterception K} {i n : Nat} {s : Search K}

theorem tempInterceptionCoord_of_le (h : 1 / 10 ≤ z.mCurrentAimSpd) (i : Nat) :
    tempInterceptionCoord f z i =
      ⟨f.sin (z.mCurrentAimCourse / 180 * pi) * z.mCurrentAimSpd * i,
        f.cos (z.mCurrentAimCourse / 180 * pi) * z.mCurrentAimSpd * i⟩ := by
  rw [tempInterceptionCoord, if_neg (not_lt.mpr h), getNextCoord, zero_add, zero_add]

theorem searchSecond_of_canIntercept (h : CanIntercept f z s.i) :
    searchSecond f z s = { i := aAllTime + 11, calls := s.calls ++ [perehvatPoint f z s.i] } := by
  rw [searchSecond, if_pos h]

theorem searchSecond_of_not_canIntercept (h : ¬CanIntercept f z s.i) :
    searchSecond f z s = { s with i := s.i + 1 } := by
  rw [searchSecond, if_neg h]

/-- What the loop knows: nothing before the counter will do, or it is past the hour with the first
second that did. -/
structure Searched (f : Functions K) (z : ZInterception K) (s : Search K) : Prop where
  found : aAllTime < s.i → ∃ i < aAllTime, CanIntercept f z i ∧ (∀ j < i, ¬CanIntercept f z j) ∧
    s.calls = [perehvatPoint f z i]
  notFound : s.i ≤ aAllTime → (∀ j < s.i, ¬CanIntercept f z j) ∧ s.calls = []

theorem searched_start : Searched f z {} where
  found := fun hlt => absurd hlt (Nat.not_lt_zero _)
  notFound := fun _ => ⟨fun _ hj => absurd hj (Nat.not_lt_zero _), rfl⟩

theorem Searched.searchSecond (h : Searched f z s) (hs : s.i < aAllTime) :
    Searched f z (searchSecond f z s) := by
  obtain ⟨hbefore, hcalls⟩ := h.notFound hs.le
  by_cases hcan : CanIntercept f z s.i
  · rw [searchSecond_of_canIntercept hcan, hcalls]
    exact ⟨fun _ => ⟨s.i, hs, hcan, hbefore, rfl⟩, fun hle => absurd hle (by simp)⟩
  · rw [searchSecond_of_not_canIntercept hcan]
    refine ⟨fun hlt => absurd hlt (Nat.not_lt.mpr hs), fun _ => ⟨fun j hj => ?_, hcalls⟩⟩
    rcases Nat.lt_succ_iff_lt_or_eq.mp hj with hlt | rfl
    · exact hbefore j hlt
    · exact hcan

theorem lt_searchSecond (hs : s.i < aAllTime) :
    aAllTime + 11 - (searchSecond f z s).i < aAllTime + 11 - s.i := by
  by_cases hcan : CanIntercept f z s.i
  · rw [searchSecond_of_canIntercept hcan]
    dsimp only
    omega
  · rw [searchSecond_of_not_canIntercept hcan]
    dsimp only
    omega

/-- What the search comes to. -/
def Earliest (f : Functions K) (z : ZInterception K) (calls : List (PerehvatPoint K)) : Prop :=
  (∃ i < aAllTime, CanIntercept f z i ∧ (∀ j < i, ¬CanIntercept f z j) ∧
    calls = [perehvatPoint f z i]) ∨ (∀ i < aAllTime, ¬CanIntercept f z i) ∧ calls = []

theorem Searched.earliest (h : Searched f z s) (hs : aAllTime ≤ s.i) : Earliest f z s.calls := by
  rcases hs.lt_or_eq with hlt | heq
  · exact Or.inl (h.found hlt)
  · exact Or.inr (heq ▸ h.notFound heq.ge)

theorem exists_searched (f : Functions K) (z : ZInterception K) :
    ∃ n, aAllTime ≤ (mainProcessing f z n).i ∧ Searched f z (mainProcessing f z n) := by
  have hround : ∀ s, Searched f z s → decide (s.i < aAllTime) = true →
      Searched f z (searchSecond f z s) ∧
        aAllTime + 11 - (searchSecond f z s).i < aAllTime + 11 - s.i := fun s h hs =>
    ⟨h.searchSecond (of_decide_eq_true hs), lt_searchSecond (of_decide_eq_true hs)⟩
  obtain ⟨n, -, hended, hpost⟩ := exists_ended (fun s => aAllTime + 11 - s.i) (Searched f z)
    (Searched f z) hround (fun s h _ => h) searched_start
  exact ⟨n, Nat.not_lt.mp (of_decide_eq_false hended), hpost⟩

/-! ### What the search is for -/

/-- Where the target is expected after `i` seconds, on the plane around the place where it is: it
keeps its course and its speed, and where that is below 0.1 it stays. -/
def predicted (f : Functions K) (z : ZInterception K) (i : Nat) : Point K :=
  if z.mCurrentAimSpd < 1 / 10 then ⟨0, 0⟩
  else ⟨f.sin (z.mCurrentAimCourse / 180 * pi) * z.mCurrentAimSpd * i,
    f.cos (z.mCurrentAimCourse / 180 * pi) * z.mCurrentAimSpd * i⟩

/-- In `i` seconds the interceptor has the time to fly to where the target will be, and to climb to
a kilometre above it. -/
structure Reachable (f : Functions K) (z : ZInterception K) (i : Nat) : Prop where
  flight : getDistance f (predicted f z i)
    (geogrToDecart f z.mCoordCurrentIntc z.mCoordCurrentAim) / z.mMaxSpd < i
  climb : (z.mHgtCurrentAim + 1000 - z.mHgtCurrentIntc) / z.mMaxHgtSpd < i

/-- The call is for the first second of the hour in which the target can be reached, at the place
where the target is expected then. -/
structure EarliestCall (f : Functions K) (z : ZInterception K) (call : PerehvatPoint K) : Prop where
  blaId : call.blaId = z._bla
  bplaId : call.bplaId = z._bpla
  inHour : call.time < 3600
  reachable : Reachable f z call.time
  first : ∀ j < call.time, ¬Reachable f z j
  coord : call.coord = decartToGeogr f (predicted f z call.time) z.mCoordCurrentAim

theorem tempInterceptionCoord_eq (i : Nat) : tempInterceptionCoord f z i = predicted f z i := by
  rcases lt_or_ge z.mCurrentAimSpd (1 / 10) with hslow | hfast
  · rw [tempInterceptionCoord, predicted, if_pos hslow, if_pos hslow]
  · rw [tempInterceptionCoord_of_le hfast, predicted, if_neg (not_lt.mpr hfast)]

theorem canIntercept_iff (i : Nat) : CanIntercept f z i ↔ Reachable f z i := by
  rw [CanIntercept, timeToIntercept, timeToHgtIntercept, decartCoordIntc, tempInterceptionCoord_eq]
  exact ⟨fun h => ⟨h.1, h.2⟩, fun h => ⟨h.flight, h.climb⟩⟩

theorem earliestCall_perehvatPoint (hi : i < aAllTime) (hcan : CanIntercept f z i)
    (hfirst : ∀ j < i, ¬CanIntercept f z j) : EarliestCall f z (perehvatPoint f z i) where
  blaId := rfl
  bplaId := rfl
  inHour := hi
  reachable := (canIntercept_iff i).mp hcan
  first := fun j hj hreachable => hfirst j hj ((canIntercept_iff j).mpr hreachable)
  coord := by rw [perehvatPoint, tempInterceptionCoord_eq]

/-- **The earliest interception.** The loop ends, with one call for the first second at which the
target can be reached, and with none where there is no such second. -/
theorem mainProcessing_earliest (f : Functions K) (z : ZInterception K) :
    ∃ n, aAllTime ≤ (mainProcessing f z n).i ∧
      ((∃ call, (mainProcessing f z n).calls = [call] ∧ EarliestCall f z call) ∨
        (mainProcessing f z n).calls = [] ∧ ∀ i < 3600, ¬Reachable f z i) := by
  obtain ⟨n, hended, hsearched⟩ := exists_searched f z
  refine ⟨n, hended, ?_⟩
  rcases hsearched.earliest hended with ⟨i, hi, hcan, hfirst, hcalls⟩ | ⟨hnone, hcalls⟩
  · exact Or.inl ⟨_, hcalls, earliestCall_perehvatPoint hi hcan hfirst⟩
  · exact Or.inr ⟨hcalls, fun i hi hreachable => hnone i hi ((canIntercept_iff i).mpr hreachable)⟩

/-- Functions for points at one place, between which every distance is zero. -/
def atOnePlace : Functions ℚ := ⟨fun _ => 0, fun _ => 1, fun x => x, fun _ _ => 0⟩

/-- An interceptor on the ground, below a target that stands still. -/
def onGround : ZInterception ℚ where
  _bla := 1
  _bpla := 2
  mCoordCurrentIntc := ⟨30, 60⟩
  mHgtCurrentIntc := 0
  mMaxSpd := 30
  mMaxHgtSpd := 600
  mCoordCurrentAim := ⟨30, 60⟩
  mHgtCurrentAim := 0
  mCurrentAimSpd := 0
  mCurrentAimCourse := 0
  mMaxSpd_pos := by decide
  mMaxHgtSpd_pos := by decide

/-- The climb of a kilometre takes more than one second, and the call is for the second one. -/
theorem mainProcessing_earliest_onGround : ∃ n call,
    (mainProcessing atOnePlace onGround n).calls = [call] ∧ call.time = 2 ∧
      call.coord = ⟨30, 60⟩ := by
  have hreachable : Reachable atOnePlace onGround 2 := ⟨by decide +kernel, by decide +kernel⟩
  obtain ⟨n, -, ⟨call, hcalls, hcall⟩ | ⟨-, hnone⟩⟩ := mainProcessing_earliest atOnePlace onGround
  · have htime : call.time = 2 := by
      refine le_antisymm (not_lt.mp fun hlt => hcall.first 2 hlt hreachable) ?_
      have hclimb := hcall.reachable.climb
      rw [show (onGround.mHgtCurrentAim + 1000 - onGround.mHgtCurrentIntc) / onGround.mMaxHgtSpd =
        5 / 3 by decide +kernel] at hclimb
      by_contra hlt
      have hle : (call.time : ℚ) ≤ 1 := by exact_mod_cast Nat.lt_succ_iff.mp (not_le.mp hlt)
      linarith
    refine ⟨n, call, hcalls, htime, ?_⟩
    rw [hcall.coord, htime]
    decide +kernel
  · exact absurd hreachable (hnone 2 (by decide))

/-! ### The height of the interception -/

/-- The reported height is one the interceptor can have climbed to, and lies over the target. -/
structure HeightReached (z : ZInterception K) (call : PerehvatPoint K) : Prop where
  climbed : call.hgt = z.mHgtCurrentIntc + call.time * z.mMaxHgtSpd
  aboveAim : z.mHgtCurrentAim + 1000 ≤ call.hgt
  radius : 1000 ≤ call.radius

theorem exists_of_mem_calls {call : PerehvatPoint K} (h : call ∈ (mainProcessing f z n).calls) :
    ∃ i < aAllTime, CanIntercept f z i ∧ call = perehvatPoint f z i := by
  have hsearched : Searched f z (mainProcessing f z n) :=
    rounds_invariant (fun s hs hlt => hs.searchSecond (of_decide_eq_true hlt)) searched_start n
  rcases le_or_gt aAllTime (mainProcessing f z n).i with hle | hlt
  · rcases hsearched.earliest hle with ⟨i, hi, hcan, -, hcalls⟩ | ⟨-, hcalls⟩
    · rw [hcalls] at h
      exact ⟨i, hi, hcan, List.mem_singleton.mp h⟩
    · rw [hcalls] at h
      cases h
  · rw [(hsearched.notFound hlt.le).2] at h
    cases h

theorem climbed_perehvatPoint_iff :
    (perehvatPoint f z i).hgt = z.mHgtCurrentIntc + i * z.mMaxHgtSpd ↔ z.mHgtCurrentIntc = 0 :=
  right_eq_add

variable [IsStrictOrderedRing K]

/-- An interceptor that starts on the ground is over the target when its climb is over. -/
theorem heightReached_perehvatPoint (hground : z.mHgtCurrentIntc = 0) (hcan : CanIntercept f z i) :
    HeightReached z (perehvatPoint f z i) := by
  have hclimb : z.mHgtCurrentAim + 1000 < i * z.mMaxHgtSpd := by
    have hlt := (div_lt_iff₀ z.mMaxHgtSpd_pos).mp hcan.2
    rwa [hground, sub_zero] at hlt
  refine ⟨climbed_perehvatPoint_iff.mpr hground, hclimb.le, ?_⟩
  rw [perehvatPoint]
  linarith

/-- **The height of the interception.** Every reported height is one the interceptor has climbed to
exactly when it starts on the ground, or when nothing is reported because there is no second at which
the interception is possible. -/
theorem heightReached_iff (f : Functions K) (z : ZInterception K) :
    (∀ n, ∀ call ∈ (mainProcessing f z n).calls, HeightReached z call) ↔
      z.mHgtCurrentIntc = 0 ∨ ∀ i < aAllTime, ¬CanIntercept f z i := by
  constructor
  · intro hreached
    obtain ⟨n, hended, hsearched⟩ := exists_searched f z
    rcases hsearched.earliest hended with ⟨i, -, -, -, hcalls⟩ | ⟨hnone, -⟩
    · have hmem : perehvatPoint f z i ∈ (mainProcessing f z n).calls := by simp [hcalls]
      exact Or.inl (climbed_perehvatPoint_iff.mp (hreached n _ hmem).climbed)
    · exact Or.inr hnone
  · rintro (hground | hnone) n call hmem
    · obtain ⟨i, -, hcan, rfl⟩ := exists_of_mem_calls hmem
      exact heightReached_perehvatPoint hground hcan
    · obtain ⟨i, hi, hcan, -⟩ := exists_of_mem_calls hmem
      exact absurd hcan (hnone i hi)

theorem heightReached_onGround :
    ∃ call ∈ (mainProcessing atOnePlace onGround 3).calls, HeightReached onGround call := by
  have hreached := (heightReached_iff atOnePlace onGround).mpr (Or.inl rfl)
  have hcalls : (mainProcessing atOnePlace onGround 3).calls ≠ [] := by decide +kernel
  obtain ⟨call, hmem⟩ := List.exists_mem_of_ne_nil _ hcalls
  exact ⟨call, hmem, hreached 3 call hmem⟩

/-- An interceptor a kilometre above a target that stands still on the ground. -/
def aboveTarget : ZInterception ℚ where
  _bla := 1
  _bpla := 2
  mCoordCurrentIntc := ⟨30, 60⟩
  mHgtCurrentIntc := 1000
  mMaxSpd := 30
  mMaxHgtSpd := 5
  mCoordCurrentAim := ⟨30, 60⟩
  mHgtCurrentAim := 0
  mCurrentAimSpd := 0
  mCurrentAimCourse := 0
  mMaxSpd_pos := by decide
  mMaxHgtSpd_pos := by decide

/-- The interception after one second is reported at a height of five metres. -/
theorem not_heightReached : ¬∀ (f : Functions ℚ) (z : ZInterception ℚ) (n : Nat),
    ∀ call ∈ (mainProcessing f z n).calls, HeightReached z call := by
  intro h
  have hcalls : (mainProcessing atOnePlace aboveTarget 2).calls.map PerehvatPoint.hgt = [5] := by
    decide +kernel
  obtain ⟨call, hmem, hhgt⟩ := List.mem_map.mp (hcalls ▸ List.mem_singleton.mpr rfl)
  have habove := (h atOnePlace aboveTarget 2 call hmem).aboveAim
  rw [hhgt] at habove
  exact absurd habove (by decide +kernel)

end ZInterception

end ArmOd
