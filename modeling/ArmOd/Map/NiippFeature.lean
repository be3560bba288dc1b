import ArmOd.Base.Run
import ArmOd.Map.Shapes

/-!
# The feature of a NIIPP complex

A sector for the directed antenna and a circle for the other one, of which the one of the current
mode is on the map. An update sets what differs and draws the shape when something did. But what the
angle says about that takes the place of what the position, the mode and the radius said: when the
angle of a complex with the other antenna changes, nothing is drawn.
-/

namespace ArmOd

namespace MapFeature

/-- What the feature reads of a NIIPP complex. -/
structure NiippModel where
  m_latlon : QPointF
  m_antenaType : Int
  m_radiusSector : Double
  m_radiusCircle : Double
  m_angel : Double
  deriving DecidableEq, Repr

def Directed : Int := 0
def NotDirected : Int := 1

namespace NiippModel

def getRadius (niipp : NiippModel) : Double :=
  if niipp.m_antenaType = Directed then niipp.m_radiusSector
  else if niipp.m_antenaType = NotDirected then niipp.m_radiusCircle
  else 0

/-- The position on the map, with the longitude first. -/
def position (niipp : NiippModel) : QPointF := ⟨niipp.m_latlon.y, niipp.m_latlon.x⟩

end NiippModel

structure Niipp where
  m_position : QPointF
  m_mode : Int
  m_radius : Double
  m_angle : Double
  m_circle : MapShape Circle
  m_sector : MapShape Sector

namespace Niipp

/-- `FeatureAbstract::setPosition`, and the origin of the shapes. -/
def setPosition (position : QPointF) (f : Niipp) : Niipp :=
  let m_position : QPointF := ⟨position.y, position.x⟩
  { f with
    m_position
    m_circle.attributes.originPoint := m_position
    m_sector.attributes.originPoint := m_position }

def setMode (mode : Int) (f : Niipp) : Niipp :=
  let f := { f with m_mode := mode }
  if mode = Directed then { f with m_circle := f.m_circle.removeFromMap }
  else if mode = NotDirected then { f with m_sector := f.m_sector.removeFromMap }
  else f

def setRadius (value : Double) (f : Niipp) : Niipp :=
  { f with
    m_radius := value
    m_circle.attributes.radius := value.toInt32
    m_sector.attributes.radius := value }

/-- The angle in front of the sector, as `setAngle` reduces it. -/
def reduced (value : Double) : Double :=
  let startAngle := value + .fin 12.5
  if startAngle.lt 0 then 360 + startAngle else startAngle

def setAngle (value : Double) (f : Niipp) : Niipp :=
  let startAngle := -reduced value + 90
  { f with
    m_angle := value
    m_sector.attributes.startAngle := startAngle
    m_sector.attributes.endAngle := startAngle + 25 }

def updateMap (f : Niipp) : Niipp :=
  if f.m_mode = Directed then
    if f.m_sector.attributes.radius.le 0 then f
    else { f with m_sector := f.m_sector.updateMap }
  else if f.m_mode = NotDirected then
    if f.m_circle.attributes.radius ≤ 0 then f
    else { f with m_circle := f.m_circle.updateMap }
  else f

/-- The constructor. All attributes that `circle` and `sector` were made with are set. -/
def create (circle : Circle) (sector : Sector) (niipp : NiippModel) : Niipp :=
  let f : Niipp := {
    m_position := ⟨0, 0⟩
    m_mode := niipp.m_antenaType
    m_radius := 0
    m_angle := 0
    m_circle := { attributes := circle }
    m_sector := { attributes := sector } }
  ((f.setPosition niipp.m_latlon).setRadius niipp.getRadius).setAngle niipp.m_angel

/-- `same` is `==` of two positions. -/
def update (same : QPointF → QPointF → Bool) (f : Niipp) (niipp : NiippModel) : Niipp :=
  let moved := !same niipp.position f.m_position
  let f := if moved then f.setPosition niipp.m_latlon else f
  let switched := niipp.m_antenaType ≠ f.m_mode
  let f := if switched then f.setMode niipp.m_antenaType else f
  let resized := !niipp.getRadius.eq f.m_radius
  let f := if resized then f.setRadius niipp.getRadius else f
  let turned := !niipp.m_angel.eq f.m_angle
  let f := if turned then f.setAngle niipp.m_angel else f
  -- the angle overwrites what the others said
  let changed := if turned then decide (f.m_mode = Directed) else moved || switched || resized
  if changed then f.updateMap else f

/-- The feature that `addNiipInternal` puts on its list. -/
def start (circle : Circle) (sector : Sector) (niipp : NiippModel) : Niipp :=
  (create circle sector niipp).updateMap

/-! ### What is on the map -/

/-- The sector was last drawn with these. -/
def SectorShown (f : Niipp) (position : QPointF) (radius angle : Double) : Prop :=
  ∃ drawn, f.m_sector.onMap = some drawn ∧ drawn.originPoint = position ∧
    drawn.radius = radius ∧ drawn.startAngle = 90 - reduced angle

/-- The circle was last drawn with these. -/
def CircleShown (f : Niipp) (position : QPointF) (radius : Double) : Prop :=
  ∃ drawn, f.m_circle.onMap = some drawn ∧ drawn.originPoint = position ∧
    Double.fin drawn.radius = radius

/-- The map shows the model, where its radius is positive. -/
def Shows (niipp : NiippModel) (f : Niipp) : Prop :=
  Double.lt 0 niipp.getRadius = true →
    (niipp.m_antenaType = Directed →
      f.SectorShown niipp.position niipp.getRadius niipp.m_angel ∧ f.m_circle.onMap = none) ∧
    (niipp.m_antenaType = NotDirected →
      f.CircleShown niipp.position niipp.getRadius ∧ f.m_sector.onMap = none)

/-- The map shows the model, and the feature is where it is. -/
def InSync (niipp : NiippModel) (f : Niipp) : Prop :=
  Shows niipp f ∧ (Double.lt 0 niipp.getRadius = true → f.m_position = niipp.position)

/-- The radius is one that an `int` can be. -/
def Whole (radius : Double) : Prop := Double.fin radius.toInt32 = radius

/-- Where the radius is positive: a position that compares equal to the one of the feature is that
position; and without the directed antenna the radius is an `int`, and the angle does not change,
unless the circle already stands on the map as it should. -/
def Redraws (same : QPointF → QPointF → Bool) (f : Niipp) (niipp : NiippModel) : Prop :=
  Double.lt 0 niipp.getRadius = true →
    (same niipp.position f.m_position = true → f.m_position = niipp.position) ∧
    (niipp.m_antenaType = NotDirected → Whole niipp.getRadius ∧
      (niipp.m_angel.eq f.m_angle = false → f.CircleShown niipp.position niipp.getRadius))

variable {same : QPointF → QPointF → Bool} {f : Niipp} {niipp : NiippModel}

/-! ### The parts of an update -/

def moveTo (same : QPointF → QPointF → Bool) (niipp : NiippModel) (f : Niipp) : Niipp :=
  if !same niipp.position f.m_position then f.setPosition niipp.m_latlon else f

def switchTo (niipp : NiippModel) (f : Niipp) : Niipp :=
  if niipp.m_antenaType ≠ f.m_mode then f.setMode niipp.m_antenaType else f

def resizeTo (niipp : NiippModel) (f : Niipp) : Niipp :=
  if !niipp.getRadius.eq f.m_radius then f.setRadius niipp.getRadius else f

def turnTo (niipp : NiippModel) (f : Niipp) : Niipp :=
  if !niipp.m_angel.eq f.m_angle then f.setAngle niipp.m_angel else f

/-- The feature with all that differs set. -/
def taken (same : QPointF → QPointF → Bool) (niipp : NiippModel) (f : Niipp) : Niipp :=
  turnTo niipp (resizeTo niipp (switchTo niipp (moveTo same niipp f)))

/-- Whether the update draws. -/
def draws (same : QPointF → QPointF → Bool) (niipp : NiippModel) (f : Niipp) : Bool :=
  if !niipp.m_angel.eq f.m_angle then decide (niipp.m_antenaType = Directed)
  else !same niipp.position f.m_position || decide (niipp.m_antenaType ≠ f.m_mode) ||
    !niipp.getRadius.eq f.m_radius

/-- The attributes of the shapes are those of the feature. -/
structure Attributes (f : Niipp) : Prop where
  circleOrigin : f.m_circle.attributes.originPoint = f.m_position
  circleRadius : f.m_circle.attributes.radius = f.m_radius.toInt32
  sectorOrigin : f.m_sector.attributes.originPoint = f.m_position
  sectorRadius : f.m_sector.attributes.radius = f.m_radius
  startAngle : f.m_sector.attributes.startAngle = 90 - reduced f.m_angle

theorem moveTo_spec (h : Attributes f) : Attributes (moveTo same niipp f) ∧
    (moveTo same niipp f).m_mode = f.m_mode ∧ (moveTo same niipp f).m_radius = f.m_radius ∧
    (moveTo same niipp f).m_angle = f.m_angle ∧
    (moveTo same niipp f).m_circle.onMap = f.m_circle.onMap ∧
    (moveTo same niipp f).m_sector.onMap = f.m_sector.onMap ∧
    (moveTo same niipp f).m_position =
      (if same niipp.position f.m_position = true then f.m_position else niipp.position) := by
  rw [moveTo]
  cases same niipp.position f.m_position with
  | true => exact ⟨h, rfl, rfl, rfl, rfl, rfl, rfl⟩
  | false => exact ⟨⟨rfl, h.circleRadius, rfl, h.sectorRadius, h.startAngle⟩, rfl, rfl, rfl, rfl,
      rfl, rfl⟩

theorem Attributes.of_eq {g : Niipp} (h : Attributes f)
    (hcircle : g.m_circle.attributes = f.m_circle.attributes)
    (hsector : g.m_sector.attributes = f.m_sector.attributes)
    (hposition : g.m_position = f.m_position) (hradius : g.m_radius = f.m_radius)
    (hangle : g.m_angle = f.m_angle) : Attributes g := by
  refine ⟨?_, ?_, ?_, ?_, ?_⟩
  · rw [hcircle, hposition, h.circleOrigin]
  · rw [hcircle, hradius, h.circleRadius]
  · rw [hsector, hposition, h.sectorOrigin]
  · rw [hsector, hradius, h.sectorRadius]
  · rw [hsector, hangle, h.startAngle]

theorem switchTo_spec (h : Attributes f) : Attributes (switchTo niipp f) ∧
    (switchTo niipp f).m_mode = niipp.m_antenaType ∧ (switchTo niipp f).m_radius = f.m_radius ∧
    (switchTo niipp f).m_angle = f.m_angle ∧ (switchTo niipp f).m_position = f.m_position ∧
    (switchTo niipp f).m_circle.onMap =
      (if niipp.m_antenaType ≠ f.m_mode ∧ niipp.m_antenaType = Directed then none
      else f.m_circle.onMap) ∧
    (switchTo niipp f).m_sector.onMap =
      (if niipp.m_antenaType ≠ f.m_mode ∧ niipp.m_antenaType = NotDirected then none
      else f.m_sector.onMap) := by
  rw [switchTo]
  by_cases hmode : niipp.m_antenaType ≠ f.m_mode
  · rw [if_pos hmode, setMode]
    by_cases hdirected : niipp.m_antenaType = Directed
    · have hother : niipp.m_antenaType ≠ NotDirected := hdirected ▸ by decide
      rw [if_pos hdirected, if_pos ⟨hmode, hdirected⟩, if_neg fun hboth => hother hboth.2]
      exact ⟨h.of_eq rfl rfl rfl rfl rfl, rfl, rfl, rfl, rfl, rfl, rfl⟩
    · rw [if_neg hdirected, if_neg (c := _ ∧ _) fun hboth => hdirected hboth.2]
      by_cases hother : niipp.m_antenaType = NotDirected
      · rw [if_pos hother, if_pos ⟨hmode, hother⟩]
        exact ⟨h.of_eq rfl rfl rfl rfl rfl, rfl, rfl, rfl, rfl, rfl, rfl⟩
      · rw [if_neg hother, if_neg fun hboth => hother hboth.2]
        exact ⟨h.of_eq rfl rfl rfl rfl rfl, rfl, rfl, rfl, rfl, rfl, rfl⟩
  · rw [if_neg hmode, if_neg fun hboth => hmode hboth.1, if_neg fun hboth => hmode hboth.1]
    exact ⟨h, (not_not.mp hmode).symm, rfl, rfl, rfl, rfl, rfl⟩

theorem resizeTo_spec (h : Attributes f) : Attributes (resizeTo niipp f) ∧
    (resizeTo niipp f).m_mode = f.m_mode ∧ (resizeTo niipp f).m_radius = niipp.getRadius ∧
    (resizeTo niipp f).m_angle = f.m_angle ∧ (resizeTo niipp f).m_position = f.m_position ∧
    (resizeTo niipp f).m_circle.onMap = f.m_circle.onMap ∧
    (resizeTo niipp f).m_sector.onMap = f.m_sector.onMap := by
  rw [resizeTo]
  cases heq : niipp.getRadius.eq f.m_radius with
  | true => exact ⟨h, rfl, (Double.eq_of_eq heq).symm, rfl, rfl, rfl, rfl⟩
  | false =>
      exact ⟨⟨h.circleOrigin, rfl, h.sectorOrigin, rfl, h.startAngle⟩, rfl, rfl, rfl, rfl, rfl, rfl⟩

theorem turnTo_spec (h : Attributes f) : Attributes (turnTo niipp f) ∧
    (turnTo niipp f).m_mode = f.m_mode ∧ (turnTo niipp f).m_radius = f.m_radius ∧
    (turnTo niipp f).m_angle = niipp.m_angel ∧ (turnTo niipp f).m_position = f.m_position ∧
    (turnTo niipp f).m_circle.onMap = f.m_circle.onMap ∧
    (turnTo niipp f).m_sector.onMap = f.m_sector.onMap := by
  rw [turnTo]
  cases heq : niipp.m_angel.eq f.m_angle with
  | true => exact ⟨h, rfl, rfl, (Double.eq_of_eq heq).symm, rfl, rfl, rfl⟩
  | false => exact ⟨⟨h.circleOrigin, h.circleRadius, h.sectorOrigin, h.sectorRadius,
      Double.neg_add _ _⟩, rfl, rfl, rfl, rfl, rfl, rfl⟩

/-- What is taken over. -/
structure Taken (same : QPointF → QPointF → Bool) (niipp : NiippModel) (f g : Niipp) : Prop
    extends Attributes g where
  mode : g.m_mode = niipp.m_antenaType
  radius : g.m_radius = niipp.getRadius
  angle : g.m_angle = niipp.m_angel
  position : g.m_position =
    if same niipp.position f.m_position = true then f.m_position else niipp.position
  circle : g.m_circle.onMap =
    if niipp.m_antenaType ≠ f.m_mode ∧ niipp.m_antenaType = Directed then none
    else f.m_circle.onMap
  sector : g.m_sector.onMap =
    if niipp.m_antenaType ≠ f.m_mode ∧ niipp.m_antenaType = NotDirected then none
    else f.m_sector.onMap

theorem taken_spec (h : Attributes f) : Taken same niipp f (taken same niipp f) ∧
    f.update same niipp =
      if draws same niipp f then (taken same niipp f).updateMap else taken same niipp f := by
  obtain ⟨hmove, hmode₁, hradius₁, hangle₁, hcircle₁, hsector₁, hposition₁⟩ :=
    @moveTo_spec same f niipp h
  obtain ⟨hswitch, hmode₂, hradius₂, hangle₂, hposition₂, hcircle₂, hsector₂⟩ :=
    @switchTo_spec _ niipp hmove
  obtain ⟨hresize, hmode₃, hradius₃, hangle₃, hposition₃, hcircle₃, hsector₃⟩ :=
    @resizeTo_spec _ niipp hswitch
  obtain ⟨hturn, hmode, hradius, hangle, hposition, hcircle, hsector⟩ :=
    @turnTo_spec _ niipp hresize
  rw [hmode₁, hcircle₁] at hcircle₂
  rw [hmode₁, hsector₁] at hsector₂
  refine ⟨⟨hturn, hmode.trans (hmode₃.trans hmode₂), hradius.trans hradius₃, hangle,
    hposition.trans (hposition₃.trans (hposition₂.trans hposition₁)),
    hcircle.trans (hcircle₃.trans hcircle₂), hsector.trans (hsector₃.trans hsector₂)⟩, ?_⟩
  -- the tests of the parts read what the parts before them leave alone
  have hdraws : draws same niipp f =
      if !niipp.m_angel.eq (resizeTo niipp (switchTo niipp (moveTo same niipp f))).m_angle then
        decide ((taken same niipp f).m_mode = Directed)
      else !same niipp.position f.m_position ||
        decide (niipp.m_antenaType ≠ (moveTo same niipp f).m_mode) ||
        !niipp.getRadius.eq (switchTo niipp (moveTo same niipp f)).m_radius := by
    rw [hangle₃, hangle₂, hangle₁, hmode₁, hradius₂, hradius₁, taken, hmode, hmode₃, hmode₂, draws]
  rw [hdraws]
  rfl

/-- What every update keeps. -/
structure Kept (f : Niipp) : Prop extends Attributes f where
  whole : ∀ drawn, f.m_circle.onMap = some drawn → Whole (.fin drawn.radius)
  directed : f.m_mode = Directed → f.m_circle.onMap = none ∧
    (Double.lt 0 f.m_radius = true → f.SectorShown f.m_position f.m_radius f.m_angle)
  notDirected : f.m_mode = NotDirected → f.m_sector.onMap = none ∧
    (Double.lt 0 f.m_radius = true → Whole f.m_radius → f.CircleShown f.m_position f.m_radius)

/-! ### Drawing -/

theorem updateMap_directed (h : f.m_mode = Directed) : f.updateMap =
    if f.m_sector.attributes.radius.le 0 then f
    else { f with m_sector := f.m_sector.updateMap } := by
  rw [updateMap, if_pos h]

theorem updateMap_notDirected (h : f.m_mode = NotDirected) : f.updateMap =
    if f.m_circle.attributes.radius ≤ 0 then f
    else { f with m_circle := f.m_circle.updateMap } := by
  rw [updateMap, if_neg (h ▸ by decide), if_pos h]

theorem updateMap_keeps (f : Niipp) : f.updateMap.m_mode = f.m_mode ∧
    f.updateMap.m_radius = f.m_radius ∧ f.updateMap.m_angle = f.m_angle ∧
    f.updateMap.m_position = f.m_position ∧
    f.updateMap.m_circle.attributes = f.m_circle.attributes ∧
    f.updateMap.m_sector.attributes = f.m_sector.attributes := by
  rw [updateMap]
  split_ifs <;> exact ⟨rfl, rfl, rfl, rfl, rfl, rfl⟩

theorem Attributes.updateMap (h : Attributes f) : Attributes f.updateMap := by
  obtain ⟨-, hradius, hangle, hposition, hcircle, hsector⟩ := updateMap_keeps f
  exact h.of_eq hcircle hsector hposition hradius hangle

theorem Attributes.sectorShown (h : Attributes f) (hmode : f.m_mode = Directed)
    (hpos : Double.lt 0 f.m_radius = true) :
    f.updateMap.SectorShown f.m_position f.m_radius f.m_angle := by
  rw [updateMap_directed hmode, if_neg (by rw [h.sectorRadius]; exact Double.not_le_of_pos hpos)]
  exact ⟨_, rfl, h.sectorOrigin, h.sectorRadius, h.startAngle⟩

theorem pos_of_whole {radius : Double} (hpos : Double.lt 0 radius = true) (hwhole : Whole radius) :
    0 < radius.toInt32 := by
  rw [← hwhole] at hpos
  have hlt : ((0 : ℕ) : ℚ) < (radius.toInt32 : ℚ) := of_decide_eq_true hpos
  exact_mod_cast hlt

theorem Attributes.circleShown (h : Attributes f) (hmode : f.m_mode = NotDirected)
    (hpos : Double.lt 0 f.m_radius = true) (hwhole : Whole f.m_radius) :
    f.updateMap.CircleShown f.m_position f.m_radius := by
  have hradius := pos_of_whole hpos hwhole
  have hdrawn : Double.fin f.m_circle.attributes.radius = f.m_radius := by
    rw [h.circleRadius]
    exact hwhole
  rw [updateMap_notDirected hmode, if_neg (by rw [h.circleRadius]; omega)]
  exact ⟨_, rfl, h.circleOrigin, hdrawn⟩

/-! ### One update -/

theorem update_of_draws (h : Attributes f) (hdraws : draws same niipp f = true) :
    f.update same niipp = (taken same niipp f).updateMap := by
  rw [(taken_spec h).2, if_pos hdraws]

theorem update_of_not_draws (h : Attributes f) (hdraws : draws same niipp f = false) :
    f.update same niipp = taken same niipp f := by
  rw [(taken_spec h).2, hdraws]
  rfl

theorem update_keeps (h : Attributes f) : (f.update same niipp).m_mode = niipp.m_antenaType ∧
    (f.update same niipp).m_radius = niipp.getRadius ∧
    (f.update same niipp).m_angle = niipp.m_angel ∧
    (f.update same niipp).m_position =
      (if same niipp.position f.m_position = true then f.m_position else niipp.position) ∧
    Attributes (f.update same niipp) := by
  have htaken : Taken same niipp f (taken same niipp f) := (taken_spec h).1
  cases hdraws : draws same niipp f with
  | true =>
      obtain ⟨hmode, hradius, hangle, hposition, -⟩ := updateMap_keeps (taken same niipp f)
      rw [update_of_draws h hdraws]
      exact ⟨hmode.trans htaken.mode, hradius.trans htaken.radius, hangle.trans htaken.angle,
        hposition.trans htaken.position, htaken.toAttributes.updateMap⟩
  | false =>
      rw [update_of_not_draws h hdraws]
      exact ⟨htaken.mode, htaken.radius, htaken.angle, htaken.position, htaken.toAttributes⟩

theorem Kept.circle_off (h : Kept f) (hmode : niipp.m_antenaType = Directed) :
    (f.update same niipp).m_circle.onMap = none := by
  have htaken : Taken same niipp f (taken same niipp f) := (taken_spec h.toAttributes).1
  have hoff : (taken same niipp f).m_circle.onMap = none := by
    rw [htaken.circle]
    split
    · rfl
    · rename_i hkept
      refine (h.directed ?_).1
      by_contra hne
      exact hkept ⟨fun heq => hne (heq ▸ hmode), hmode⟩
  cases hdraws : draws same niipp f with
  | true =>
      rw [update_of_draws h.toAttributes hdraws, updateMap_directed (htaken.mode.trans hmode)]
      split <;> exact hoff
  | false => rwa [update_of_not_draws h.toAttributes hdraws]

theorem Kept.sector_off (h : Kept f) (hmode : niipp.m_antenaType = NotDirected) :
    (f.update same niipp).m_sector.onMap = none := by
  have htaken : Taken same niipp f (taken same niipp f) := (taken_spec h.toAttributes).1
  have hoff : (taken same niipp f).m_sector.onMap = none := by
    rw [htaken.sector]
    split
    · rfl
    · rename_i hkept
      refine (h.notDirected ?_).1
      by_contra hne
      exact hkept ⟨fun heq => hne (heq ▸ hmode), hmode⟩
  cases hdraws : draws same niipp f with
  | true =>
      rw [update_of_draws h.toAttributes hdraws, updateMap_notDirected (htaken.mode.trans hmode)]
      split <;> exact hoff
  | false => rwa [update_of_not_draws h.toAttributes hdraws]

/-- A circle is only ever drawn with an `int`. -/
theorem Kept.whole_update (h : Kept f) (drawn : Circle)
    (hdrawn : (f.update same niipp).m_circle.onMap = some drawn) : Whole (.fin drawn.radius) := by
  have htaken : Taken same niipp f (taken same niipp f) := (taken_spec h.toAttributes).1
  have hbefore : (taken same niipp f).m_circle.onMap = some drawn → Whole (.fin drawn.radius) := by
    rw [htaken.circle]
    split
    · exact nofun
    · exact h.whole drawn
  cases hdraws : draws same niipp f with
  | false => exact hbefore (update_of_not_draws h.toAttributes hdraws ▸ hdrawn)
  | true =>
      rw [update_of_draws h.toAttributes hdraws, updateMap] at hdrawn
      split_ifs at hdrawn
      · exact hbefore hdrawn
      · exact hbefore hdrawn
      · exact hbefore hdrawn
      · obtain rfl := Option.some.inj hdrawn
        rw [htaken.circleRadius, Whole, Double.toInt32_toInt32]
      · exact hbefore hdrawn

/-- An update that does not draw changes nothing, or the angle without the directed antenna. -/
theorem eq_of_not_draws (hdraws : draws same niipp f = false)
    (hangle : niipp.m_angel.eq f.m_angle = true ∨ niipp.m_antenaType = Directed) :
    same niipp.position f.m_position = true ∧ niipp.m_antenaType = f.m_mode ∧
      niipp.getRadius = f.m_radius ∧ niipp.m_angel = f.m_angle := by
  rw [draws] at hdraws
  cases heq : niipp.m_angel.eq f.m_angle with
  | false =>
      rw [heq] at hdraws hangle
      have hmode := hangle.resolve_left Bool.false_ne_true
      rw [Bool.not_false, if_pos rfl] at hdraws
      exact absurd hmode (of_decide_eq_false hdraws)
  | true =>
      rw [heq, Bool.not_true, if_neg Bool.false_ne_true, Bool.or_eq_false_iff,
        Bool.or_eq_false_iff, Bool.not_eq_false', Bool.not_eq_false'] at hdraws
      obtain ⟨⟨hposition, hmode⟩, hradius⟩ := hdraws
      exact ⟨hposition, not_not.mp (of_decide_eq_false hmode), Double.eq_of_eq hradius,
        Double.eq_of_eq heq⟩

theorem Kept.sectorShown_update (h : Kept f) (hmode : niipp.m_antenaType = Directed)
    (hpos : Double.lt 0 niipp.getRadius = true) :
    (f.update same niipp).SectorShown (f.update same niipp).m_position niipp.getRadius
      niipp.m_angel := by
  have htaken : Taken same niipp f (taken same niipp f) := (taken_spec h.toAttributes).1
  cases hdraws : draws same niipp f with
  | true =>
      have hshown := htaken.toAttributes.sectorShown (htaken.mode.trans hmode)
        (by rwa [htaken.radius])
      rw [htaken.radius, htaken.angle] at hshown
      rw [update_of_draws h.toAttributes hdraws,
        (updateMap_keeps (taken same niipp f)).2.2.2.1]
      exact hshown
  | false =>
      obtain ⟨hsame, hmode', hradius, hangle⟩ := eq_of_not_draws hdraws (Or.inr hmode)
      have hshown := (h.directed (hmode' ▸ hmode)).2 (hradius ▸ hpos)
      rw [SectorShown, update_of_not_draws h.toAttributes hdraws, htaken.sector, htaken.position,
        if_pos hsame, if_neg fun hboth => hboth.1 hmode', hradius, hangle]
      exact hshown

/-- Without the directed antenna the circle stands where the feature is, where its radius is an `int`
and the angle did not change. -/
theorem Kept.circleShown_update (h : Kept f) (hmode : niipp.m_antenaType = NotDirected)
    (hpos : Double.lt 0 niipp.getRadius = true) (hwhole : Whole niipp.getRadius)
    (hangle : niipp.m_angel.eq f.m_angle = true) :
    (f.update same niipp).CircleShown (f.update same niipp).m_position niipp.getRadius := by
  have htaken : Taken same niipp f (taken same niipp f) := (taken_spec h.toAttributes).1
  cases hdraws : draws same niipp f with
  | true =>
      have hshown := htaken.toAttributes.circleShown (htaken.mode.trans hmode)
        (by rwa [htaken.radius]) (by rwa [htaken.radius])
      rw [htaken.radius] at hshown
      rw [update_of_draws h.toAttributes hdraws,
        (updateMap_keeps (taken same niipp f)).2.2.2.1]
      exact hshown
  | false =>
      obtain ⟨hsame, hmode', hradius, -⟩ := eq_of_not_draws hdraws (Or.inl hangle)
      have hshown := (h.notDirected (hmode' ▸ hmode)).2 (hradius ▸ hpos) (hradius ▸ hwhole)
      rw [CircleShown, update_of_not_draws h.toAttributes hdraws, htaken.circle, htaken.position,
        if_pos hsame, if_neg fun hboth => hboth.1 hmode', hradius]
      exact hshown

/-- Where the angle changed without the directed antenna, the circle is the old one. -/
theorem Kept.circleShown_of_turned (h : Kept f) (hmode : niipp.m_antenaType = NotDirected)
    (hangle : niipp.m_angel.eq f.m_angle = false) {position : QPointF} {radius : Double} :
    (f.update same niipp).CircleShown position radius ↔ f.CircleShown position radius := by
  have htaken : Taken same niipp f (taken same niipp f) := (taken_spec h.toAttributes).1
  have hdraws : draws same niipp f = false := by
    rw [draws, hangle, Bool.not_false, if_pos rfl, hmode]
    decide
  have hother : ¬(niipp.m_antenaType ≠ f.m_mode ∧ niipp.m_antenaType = Directed) := by
    rw [hmode]
    exact fun hboth => absurd hboth.2 (by decide)
  rw [CircleShown, update_of_not_draws h.toAttributes hdraws, htaken.circle, if_neg hother,
    CircleShown]

theorem antenna_of_pos (hpos : Double.lt 0 niipp.getRadius = true) :
    niipp.m_antenaType = Directed ∨ niipp.m_antenaType = NotDirected := by
  by_contra hnone
  rw [not_or] at hnone
  rw [NiippModel.getRadius, if_neg hnone.1, if_neg hnone.2] at hpos
  exact absurd hpos (by decide)

theorem Kept.shows_update_iff (h : Kept f) (hpos : Double.lt 0 niipp.getRadius = true)
    (hposition : (f.update same niipp).m_position = niipp.position) :
    Shows niipp (f.update same niipp) ↔ (niipp.m_antenaType = NotDirected →
      Whole niipp.getRadius ∧
        (niipp.m_angel.eq f.m_angle = false → f.CircleShown niipp.position niipp.getRadius)) := by
  rw [Shows, forall_prop_of_true hpos]
  rcases antenna_of_pos hpos with hmode | hmode
  · have hother : niipp.m_antenaType ≠ NotDirected := hmode ▸ by decide
    have hshown := @h.sectorShown_update same f niipp hmode hpos
    rw [hposition] at hshown
    exact iff_of_true ⟨fun _ => ⟨hshown, h.circle_off hmode⟩, fun heq => absurd heq hother⟩
      fun heq => absurd heq hother
  · have hother : niipp.m_antenaType ≠ Directed := hmode ▸ by decide
    rw [and_iff_right fun heq => absurd heq hother]
    refine forall_congr' fun _ => ?_
    rw [and_iff_left (h.sector_off hmode)]
    cases hangle : niipp.m_angel.eq f.m_angle with
    | true =>
        refine ⟨fun ⟨drawn, honMap, _, hradius⟩ => ⟨hradius ▸ h.whole_update drawn honMap, nofun⟩,
          fun hwhole => ?_⟩
        have hshown := @h.circleShown_update same f niipp hmode hpos hwhole.1 hangle
        rwa [hposition] at hshown
    | false =>
        rw [h.circleShown_of_turned hmode hangle]
        exact ⟨fun hshown =>
            ⟨hshown.elim fun drawn hd => hd.2.2 ▸ h.whole drawn hd.1, fun _ => hshown⟩,
          fun hboth => hboth.2 rfl⟩

/-- **One update.** -/
theorem Kept.inSync_update_iff (h : Kept f) :
    InSync niipp (f.update same niipp) ↔ Redraws same f niipp := by
  by_cases hpos : Double.lt 0 niipp.getRadius = true
  · have hposition := (@update_keeps same f niipp h.toAttributes).2.2.2.1
    have hmoved : (f.update same niipp).m_position = niipp.position ↔
        (same niipp.position f.m_position = true → f.m_position = niipp.position) := by
      rw [hposition]
      by_cases hsame : same niipp.position f.m_position = true
      · rw [if_pos hsame, forall_prop_of_true hsame]
      · rw [if_neg hsame]
        exact iff_of_true rfl fun heq => absurd heq hsame
    rw [InSync, Redraws, forall_prop_of_true hpos, forall_prop_of_true hpos, ← hmoved, and_comm]
    exact and_congr_right fun hat => h.shows_update_iff hpos hat
  · exact iff_of_true ⟨fun heq => absurd heq hpos, fun heq => absurd heq hpos⟩
      fun heq => absurd heq hpos

theorem Kept.update (h : Kept f) (hsync : InSync niipp (f.update same niipp)) :
    Kept (f.update same niipp) := by
  obtain ⟨hmode, hradius, hangle, -, hattributes⟩ :=
    @update_keeps same f niipp h.toAttributes
  refine ⟨hattributes, h.whole_update, fun hdirected => ⟨?_, fun hpos => ?_⟩,
    fun hother => ⟨?_, fun hpos _ => ?_⟩⟩
  · exact h.circle_off (hmode ▸ hdirected)
  · rw [hradius] at hpos ⊢
    rw [hangle, hsync.2 hpos]
    exact ((hsync.1 hpos).1 (hmode ▸ hdirected)).1
  · exact h.sector_off (hmode ▸ hother)
  · rw [hradius] at hpos ⊢
    rw [hsync.2 hpos]
    exact ((hsync.1 hpos).2 (hmode ▸ hother)).1

/-! ### Every run -/

theorem kept_start (circle : Circle) (sector : Sector) (niipp : NiippModel) :
    Kept (start circle sector niipp) := by
  have hmade : Attributes (create circle sector niipp) :=
    ⟨rfl, rfl, rfl, rfl, Double.neg_add _ _⟩
  obtain ⟨hmode, hradius, hangle, hposition, -⟩ := updateMap_keeps (create circle sector niipp)
  refine ⟨hmade.updateMap, fun drawn hdrawn => ?_, fun hdirected => ⟨?_, fun hpos => ?_⟩,
    fun hother => ⟨?_, fun hpos hwhole => ?_⟩⟩
  · rw [start, updateMap] at hdrawn
    split_ifs at hdrawn
    · cases hdrawn
    · cases hdrawn
    · cases hdrawn
    · obtain rfl := Option.some.inj hdrawn
      rw [hmade.circleRadius, Whole, Double.toInt32_toInt32]
    · cases hdrawn
  · rw [start, updateMap_directed (hmode ▸ hdirected)]
    split <;> rfl
  · rw [start, hradius, hangle, hposition]
    exact hmade.sectorShown (hmode ▸ hdirected) (hradius ▸ hpos)
  · rw [start, updateMap_notDirected (hmode ▸ hother)]
    split <;> rfl
  · rw [start, hradius, hposition]
    exact hmade.circleShown (hmode ▸ hother) (hradius ▸ hpos) (hradius ▸ hwhole)

theorem along_inSync_iff (same : QPointF → QPointF → Bool) (circle : Circle) (sector : Sector)
    (niipp : NiippModel) (niipps : List NiippModel) :
    Along (update same) (fun f niipp => InSync niipp (f.update same niipp))
        (start circle sector niipp) niipps ↔
      Along (update same) (Redraws same) (start circle sector niipp) niipps :=
  Along.congr (fun _ _ (h : Kept _) hsync => h.update hsync)
    (fun _ _ h => h.inSync_update_iff) (kept_start circle sector niipp)

/-- **The map shows the models** in the runs whose updates draw what they change, and in no others
does it show them with the feature where they are. -/
theorem along_shows_of_redraws (same : QPointF → QPointF → Bool) (circle : Circle)
    (sector : Sector) (niipp : NiippModel) (niipps : List NiippModel) :
    (Along (update same) (Redraws same) (start circle sector niipp) niipps →
      Along (update same) (fun f niipp => Shows niipp (f.update same niipp))
        (start circle sector niipp) niipps) ∧
    (Along (update same) (fun f niipp => InSync niipp (f.update same niipp))
        (start circle sector niipp) niipps →
      Along (update same) (Redraws same) (start circle sector niipp) niipps) := by
  have hiff := along_inSync_iff same circle sector niipp niipps
  refine ⟨fun hredraws => ?_, hiff.mp⟩
  exact Along.imp (fun _ _ (_ : True) _ => trivial) (fun _ _ _ hsync => hsync.1) trivial
    (hiff.mpr hredraws)

/-- A complex as it is made. -/
def made : NiippModel where
  m_latlon := ⟨60, 30⟩
  m_antenaType := Directed
  m_radiusSector := 0
  m_radiusCircle := 0
  m_angel := 0

/-- The complex after a message with the mode 1, a zone of that radius and a course. -/
def notDirected (radius course : Double) : NiippModel :=
  { made with m_antenaType := NotDirected, m_radiusCircle := radius, m_angel := course }

/-- A message that changes the zone and the course at once. -/
theorem not_along_shows : ¬∀ same circle sector niipp niipps,
    Along (update same) (fun f niipp => Shows niipp (f.update same niipp))
      (start circle sector niipp) niipps := by
  intro h
  have hresized := (h (fun p q => decide (p = q)) ⟨⟨0, 0⟩, 0⟩ ⟨⟨0, 0⟩, 0, 0, 0⟩ made
    [notDirected 1000 0, notDirected 1500 10]).2.1
  obtain ⟨⟨drawn, honMap, -, hradius⟩, -⟩ := (hresized (by decide +kernel)).2 rfl
  have hold : (some drawn : Option Circle) = some ⟨⟨30, 60⟩, 1000⟩ := by
    rw [← honMap]
    decide +kernel
  rw [Option.some.inj hold] at hradius
  exact absurd hradius (by decide +kernel)

end Niipp

end MapFeature

end ArmOd
