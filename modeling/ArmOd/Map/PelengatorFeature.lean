import ArmOd.Base.Run
import ArmOd.Map.Shapes

/-!
# The bearings of the direction finders

Every post has one feature, a sector one degree wide. An update sets the angles of the sector where
the bearing differs from the last one. The constructor takes the bearing over and leaves the angles
of the sector as they are, so that the first bearing of a post, and every equal one after it, is not
shown.
-/

namespace ArmOd

namespace MapFeature

structure Pelengator where
  m_postId : Int
  m_position : QPointF
  m_angle : Double
  m_sector : MapShape Sector

namespace Pelengator

/-- The constructor. `sector` is what `createSector` makes. -/
def create (sector : Sector) (postId : Int) (position : QPointF) (angle : Double) : Pelengator where
  m_postId := postId
  m_position := position
  m_angle := angle
  m_sector := { attributes := { sector with originPoint := position, radius := 170000 } }

def setPosition (position : QPointF) (p : Pelengator) : Pelengator :=
  { p with
    m_position := position
    m_sector.attributes.originPoint := position }

def setAngle (angle : Double) (p : Pelengator) : Pelengator :=
  let startAngle := -angle + 90
  { p with
    m_angle := angle
    m_sector.attributes.startAngle := startAngle
    m_sector.attributes.endAngle := startAngle + 1 }

def updateMap (p : Pelengator) : Pelengator :=
  if p.m_sector.attributes.radius.le 0 then p
  else { p with m_sector := p.m_sector.updateMap }

/-- `same` is `==` of two positions. -/
def update (same : QPointF → QPointF → Bool) (position : QPointF) (angle : Double)
    (p : Pelengator) : Pelengator :=
  let moved := !same position p.m_position
  let p := if moved then p.setPosition position else p
  let turned := !angle.eq p.m_angle
  let p := if turned then p.setAngle angle else p
  if moved || turned then p.updateMap else p

end Pelengator

end MapFeature

namespace MapClient1

open MapFeature

/-- A call of `addPeleng`. -/
structure Peleng where
  id : Int
  idPost : Int
  lat : Double
  lon : Double
  direction : Double
  deriving DecidableEq, Repr

def Peleng.position (call : Peleng) : QPointF := ⟨call.lon, call.lat⟩

/-- `list` is `m_pelengatorList`. -/
def addPeleng (same : QPointF → QPointF → Bool) (sector : Sector) (list : QMap Int Pelengator)
    (call : Peleng) : QMap Int Pelengator :=
  match list[call.idPost]? with
  | some p => list.insert call.idPost (p.update same call.position call.direction)
  | none => list.insert call.idPost
      (Pelengator.create sector call.idPost call.position call.direction).updateMap

/-- The sector of the post shows the direction of the call, at its position. -/
def Points (list : QMap Int Pelengator) (call : Peleng) : Prop :=
  ∃ p : Pelengator, list[call.idPost]? = some p ∧
    p.m_sector.attributes.startAngle = 90 - call.direction ∧
    p.m_sector.attributes.endAngle = 91 - call.direction ∧
    p.m_sector.attributes.originPoint = call.position

/-- The first direction of a post is the one that a sector has when it is made; a position that
compares equal to the one of the feature is that position. -/
def Settled (same : QPointF → QPointF → Bool) (sector : Sector) (list : QMap Int Pelengator)
    (call : Peleng) : Prop :=
  match list[call.idPost]? with
  | some p => same call.position p.m_position = true → p.m_position = call.position
  | none => sector.startAngle = 90 - call.direction ∧ sector.endAngle = 91 - call.direction

variable {same : QPointF → QPointF → Bool} {sector : Sector} {list : QMap Int Pelengator}
  {call : Peleng} {p : Pelengator} {position : QPointF} {angle : Double}

/-! ### The feature -/

/-- The sector has the angle and the position of its feature. -/
structure InStep (p : Pelengator) : Prop where
  startAngle : p.m_sector.attributes.startAngle = 90 - p.m_angle
  endAngle : p.m_sector.attributes.endAngle = 91 - p.m_angle
  originPoint : p.m_sector.attributes.originPoint = p.m_position

theorem startAngle_setAngle : (p.setAngle angle).m_sector.attributes.startAngle = 90 - angle :=
  Double.neg_add angle _

theorem endAngle_setAngle : (p.setAngle angle).m_sector.attributes.endAngle = 91 - angle := by
  have hsum : (((90 : ℕ) : ℚ) + (1 : ℕ)) = (91 : ℕ) := by norm_num
  calc -angle + 90 + 1 = 90 - angle + 1 := congrArg (· + 1) (Double.neg_add angle _)
    _ = .fin (((90 : ℕ) : ℚ) + (1 : ℕ)) - angle := Double.sub_add_fin angle _ _
    _ = 91 - angle := by rw [hsum]; rfl

theorem updateMap_keeps (p : Pelengator) : p.updateMap.m_angle = p.m_angle ∧
    p.updateMap.m_position = p.m_position ∧
    p.updateMap.m_sector.attributes = p.m_sector.attributes := by
  rw [Pelengator.updateMap]
  split
  · exact ⟨rfl, rfl, rfl⟩
  · exact ⟨rfl, rfl, rfl⟩

theorem InStep.updateMap (h : InStep p) : InStep p.updateMap := by
  obtain ⟨hangle, hposition, hattributes⟩ := updateMap_keeps p
  refine ⟨?_, ?_, ?_⟩
  · rw [hattributes, hangle, h.startAngle]
  · rw [hattributes, hangle, h.endAngle]
  · rw [hattributes, hposition, h.originPoint]

def movedTo (same : QPointF → QPointF → Bool) (position : QPointF) (p : Pelengator) : Pelengator :=
  if !same position p.m_position then p.setPosition position else p

def turnedTo (angle : Double) (p : Pelengator) : Pelengator :=
  if !angle.eq p.m_angle then p.setAngle angle else p

theorem update_eq : p.update same position angle =
    if !same position p.m_position || !angle.eq (movedTo same position p).m_angle then
      (turnedTo angle (movedTo same position p)).updateMap
    else turnedTo angle (movedTo same position p) := rfl

theorem m_angle_turnedTo : (turnedTo angle p).m_angle = angle := by
  cases heq : angle.eq p.m_angle with
  | true =>
      rw [turnedTo, heq]
      exact (Double.eq_of_eq heq).symm
  | false =>
      rw [turnedTo, heq]
      rfl

theorem m_position_turnedTo : (turnedTo angle p).m_position = p.m_position := by
  rw [turnedTo]
  split <;> rfl

theorem m_position_movedTo : (movedTo same position p).m_position =
    if same position p.m_position = true then p.m_position else position := by
  rw [movedTo]
  cases same position p.m_position <;> rfl

theorem InStep.movedTo (h : InStep p) : InStep (MapClient1.movedTo same position p) := by
  rw [MapClient1.movedTo]
  split
  · exact ⟨h.startAngle, h.endAngle, rfl⟩
  · exact h

theorem InStep.turnedTo (h : InStep p) : InStep (MapClient1.turnedTo angle p) := by
  rw [MapClient1.turnedTo]
  split
  · exact ⟨startAngle_setAngle, endAngle_setAngle, h.originPoint⟩
  · exact h

theorem update_keeps : (p.update same position angle).m_angle = angle ∧
    (p.update same position angle).m_position =
      (if same position p.m_position = true then p.m_position else position) := by
  rw [update_eq, ← m_position_movedTo]
  split
  · obtain ⟨hangle, hposition, -⟩ := updateMap_keeps (turnedTo angle (movedTo same position p))
    exact ⟨hangle.trans m_angle_turnedTo, hposition.trans m_position_turnedTo⟩
  · exact ⟨m_angle_turnedTo, m_position_turnedTo⟩

theorem InStep.update (h : InStep p) : InStep (p.update same position angle) := by
  rw [update_eq]
  split
  · exact h.movedTo.turnedTo.updateMap
  · exact h.movedTo.turnedTo

/-! ### The calls -/

/-- Every feature is in step with its sector. -/
def AllInStep (list : QMap Int Pelengator) : Prop :=
  ∀ (idPost : Int) (p : Pelengator), list[idPost]? = some p → InStep p

theorem addPeleng_of_some (h : list[call.idPost]? = some p) : addPeleng same sector list call =
    list.insert call.idPost (p.update same call.position call.direction) := by
  rw [addPeleng, h]

theorem addPeleng_of_none (h : list[call.idPost]? = none) : addPeleng same sector list call =
    list.insert call.idPost
      (Pelengator.create sector call.idPost call.position call.direction).updateMap := by
  rw [addPeleng, h]

theorem points_insert : Points (list.insert call.idPost p) call ↔
    p.m_sector.attributes.startAngle = 90 - call.direction ∧
      p.m_sector.attributes.endAngle = 91 - call.direction ∧
      p.m_sector.attributes.originPoint = call.position := by
  rw [Points, QMap.getElem?_insert, if_pos rfl]
  exact ⟨fun ⟨_, heq, h⟩ => Option.some.inj heq ▸ h, fun h => ⟨p, rfl, h⟩⟩

/-- **One call.** -/
theorem points_addPeleng_iff (h : AllInStep list) :
    Points (addPeleng same sector list call) call ↔ Settled same sector list call := by
  rw [Settled]
  cases hpost : list[call.idPost]? with
  | some p =>
      have hstep : InStep (p.update same call.position call.direction) := (h _ _ hpost).update
      obtain ⟨hangle, hposition⟩ := @update_keeps same p call.position call.direction
      rw [addPeleng_of_some hpost, points_insert, hstep.startAngle, hstep.endAngle,
        hstep.originPoint, hangle, hposition, and_iff_right rfl, and_iff_right rfl]
      by_cases hsame : same call.position p.m_position = true
      · rw [if_pos hsame]
        exact ⟨fun heq _ => heq, fun heq => heq hsame⟩
      · rw [if_neg hsame]
        exact iff_of_true rfl fun heq => absurd heq hsame
  | none =>
      obtain ⟨-, -, hattributes⟩ := updateMap_keeps
        (Pelengator.create sector call.idPost call.position call.direction)
      rw [addPeleng_of_none hpost, points_insert, hattributes]
      exact and_congr_right fun _ => and_iff_left rfl

theorem AllInStep.addPeleng (h : AllInStep list) (hsettled : Settled same sector list call) :
    AllInStep (MapClient1.addPeleng same sector list call) := by
  intro idPost q hget
  cases hpost : list[call.idPost]? with
  | some p =>
      rw [addPeleng_of_some hpost, QMap.getElem?_insert] at hget
      split at hget
      · cases hget
        exact (h _ _ hpost).update
      · exact h _ _ hget
  | none =>
      rw [addPeleng_of_none hpost, QMap.getElem?_insert] at hget
      rw [Settled, hpost] at hsettled
      split at hget
      · cases hget
        exact InStep.updateMap ⟨hsettled.1, hsettled.2, rfl⟩
      · exact h _ _ hget

theorem allInStep_empty : AllInStep ∅ :=
  fun _ _ hget => absurd (QMap.mem_of_getElem? hget) Std.TreeMap.not_mem_emptyc

/-- **The bearings are shown** exactly in the runs in which every post starts with the direction that
a sector has when it is made, and no position is taken for another one. -/
theorem along_points_iff (same : QPointF → QPointF → Bool) (sector : Sector)
    (calls : List Peleng) :
    Along (addPeleng same sector) (fun list call => Points (addPeleng same sector list call) call)
      ∅ calls ↔ Along (addPeleng same sector) (Settled same sector) ∅ calls := by
  refine Along.congr (fun list call (h : AllInStep list) hpoints => ?_)
    (fun list call h => points_addPeleng_iff h) allInStep_empty
  exact h.addPeleng ((points_addPeleng_iff h).mp hpoints)

/-- Whatever angles a sector is made with, some first direction is not theirs. -/
theorem not_along_points : ¬∃ same sector, ∀ calls,
    Along (addPeleng same sector)
      (fun list call => Points (addPeleng same sector list call) call) ∅ calls := by
  rintro ⟨same, sector, h⟩
  have hfirst : ∀ direction : Double, sector.startAngle = 90 - direction := by
    intro direction
    have hpoints := (h [{ id := 0, idPost := 1, lat := 0, lon := 0, direction }]).1
    have hsettled := (points_addPeleng_iff allInStep_empty).mp hpoints
    rw [Settled, Std.TreeMap.getElem?_emptyc] at hsettled
    exact hsettled.1
  exact absurd ((hfirst 0).symm.trans (hfirst 1)) (by decide +kernel)

end MapClient1

end ArmOd
