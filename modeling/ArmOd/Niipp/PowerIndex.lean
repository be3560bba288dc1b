import ArmOd.Base.Run
import ArmOd.Niipp.Niipp

/-!
# The index of the power tables

`changeValuePower` takes the radius of a power value out of the table of the antenna in use. The
operator's value comes from a slider with the range of that table. The other value is a field of a
line of the device: `TcpNIIPPCoder` puts it on the stream of a message, the server sends the stream
on, and `onMethodCalled` reads it back and takes it as it is.
-/

namespace ArmOd

namespace Niipp

/-- The table that `changeValuePower` reads. -/
def powerTable (n : Niipp) : Option (List ℚ) :=
  if n.m_antenaType = 0 then some m_zoneDir
  else if n.m_antenaType = 1 then some m_zone
  else none

/-- The accesses of `changeValuePower`: a table and an index. -/
def powerAccesses (n : Niipp) (value : Int) : List (List ℚ × Int) :=
  n.powerTable.toList.map fun table => (table, value)

/-- The index is one of the table. -/
def InTable (access : List ℚ × Int) : Prop := 0 ≤ access.2 ∧ access.2 < access.1.length

instance : DecidablePred InTable := fun _ => inferInstanceAs (Decidable (_ ∧ _))

/-- Only inside of a table there is a radius. -/
theorem isSome_radius_iff {zones : List ℚ} {value : Int} :
    (radius zones value).isSome = true ↔ InTable (zones, value) := by
  rw [radius, InTable]
  split
  · rename_i hneg
    exact iff_of_false (by decide) fun h => absurd h.1 (by omega)
  · rename_i hnonneg
    rw [Option.isSome_map, isSome_getElem?]
    dsimp only
    omega

end Niipp

/-- What `onMethodCalled` reads from the data of a device. -/
structure NiippAnswer where
  id : Int
  dt : QDateTime
  time : QTime
  mode : Int
  point : QPointF
  NS : String
  EW : String
  alt : Int
  zone : Int
  course : Int
  angle : Int
  deriving DecidableEq, Repr

namespace NiippController

open QDataStream in
def readAnswer : Reader Item NiippAnswer := do
  let id ← readInt
  let dt ← readQDateTime
  let time ← readQTime
  let mode ← readInt
  let point ← readQPointF
  let NS ← readQString
  let EW ← readQString
  let alt ← readInt
  let zone ← readInt
  let course ← readInt
  let angle ← readInt
  return { id, dt, time, mode, point, NS, EW, alt, zone, course, angle }

/-- The antenna of an answer. -/
def antennaOfMode (mode : Int) : Int := if mode = 1 then 1 else 0

/-- `onMethodCalled` with the data of a device: the complex, and the accesses to the tables. The
angle is not a part of the model. -/
def onNiippData (now : QDateTime) (data : QByteArray) (m_model : Niipp) :
    Niipp × List (List ℚ × Int) :=
  match readAnswer.run data with
  | some (answer, _) =>
      if m_model.m_id ≠ answer.id then (m_model, [])
      else
        let m_model := m_model.setAntennaType now 1 (antennaOfMode answer.mode)
        (m_model.changeValuePower now 1 answer.zone, m_model.powerAccesses answer.zone)
  | none => (m_model, [])

/-- What a device sends goes through the coder with its `m_id` and the server to the controller;
everything else is an operation of the operator, the map or the listeners. -/
inductive NiippEvent where
  | device (m_id : Int) (now : QDateTime) (data : List UInt8)
  | operation (op : NiippOp)
  deriving DecidableEq, Repr

/-- An event: the complex, and the accesses to the tables. -/
def react (fp : Numerics) (conv : Conversions) (n : Niipp) :
    NiippEvent → Niipp × List (List ℚ × Int)
  | .device m_id now data =>
      match TcpNIIPPCoder.encode fp conv m_id data with
      | some (_, some message) =>
          if message.type = TCP_NIIPP_ANSWER then onNiippData now message.data n else (n, [])
      | _ => (n, [])
  | .operation (.valuePowerChanged now value) =>
      let m_model := n.setSBpowerValue value
      (m_model.changeValuePower now 0 value, m_model.powerAccesses value)
  | .operation op => (step n op, [])

def reactStep (fp : Numerics) (conv : Conversions) (n : Niipp) (event : NiippEvent) : Niipp :=
  (react fp conv n event).1

/-- Every access of the event is inside of its table. -/
def ReadsInside (fp : Numerics) (conv : Conversions) (n : Niipp) (event : NiippEvent) : Prop :=
  ∀ access ∈ (react fp conv n event).2, Niipp.InTable access

/-- The end of the range that `NiippWidget::setAntennaType` gives the slider. -/
def sliderMaximum (antenna : Int) : Int := if antenna = 1 then 23 else 27

/-- The operator's power value is in the range of the slider for the current antenna. -/
def WithinSlider (n : Niipp) : NiippEvent → Prop
  | .operation (.valuePowerChanged _ value) => 0 ≤ value ∧ value ≤ sliderMaximum n.m_antenaType
  | _ => True

/-- The field of a line by its place. -/
def lineField (data : List UInt8) (i : Nat) : Text :=
  (Text.split [','] (textOfBytes data)).getD i []

/-- A line of the device with this id, where it has all its fields, names a power value of the
antenna of its mode. -/
def ZoneInRange (id : Int) : NiippEvent → Prop
  | .device m_id _ data =>
      m_id = id → 11 ≤ (Text.split [','] (textOfBytes data)).length →
        0 ≤ Text.toInt (lineField data 8) ∧
          Text.toInt (lineField data 8) ≤
            sliderMaximum (antennaOfMode (Text.toInt (lineField data 2)))
  | .operation _ => True

/-! ### The coder and the reader -/

/-- The last field is read, so a line with a message has eleven. -/
theorem encode_of_short {fp : Numerics} {conv : Conversions} {m_id : Int} {data : List UInt8}
    (h : ¬11 ≤ (Text.split [','] (textOfBytes data)).length) :
    TcpNIIPPCoder.encode fp conv m_id data = none := by
  have hlast : (Text.split [','] (textOfBytes data))[10]? = none :=
    List.getElem?_eq_none (by omega)
  rw [Option.eq_none_iff_forall_ne_some]
  intro result hresult
  iterate 10 obtain ⟨_, -, hresult⟩ := Option.bind_eq_some_iff.mp hresult
  obtain ⟨_, hfield, -⟩ := Option.bind_eq_some_iff.mp hresult
  exact absurd (hlast.symm.trans hfield) nofun

theorem readAnswer_encode (fp : Numerics) (conv : Conversions) (m_id : Int) {data : List UInt8}
    (h : 11 ≤ (Text.split [','] (textOfBytes data)).length) :
    ∃ message answer, TcpNIIPPCoder.encode fp conv m_id data = some (m_id, some message) ∧
      message.type = TCP_NIIPP_ANSWER ∧ readAnswer.run message.data = some (answer, []) ∧
      answer.id = m_id ∧ answer.mode = Text.toInt (lineField data 2) ∧
      answer.zone = Text.toInt (lineField data 8) := by
  have hget : ∀ i < 11, (Text.split [','] (textOfBytes data))[i]? = some (lineField data i) := by
    intro i hi
    have hlt : i < (Text.split [','] (textOfBytes data)).length := by omega
    rw [lineField, List.getD_eq_getElem _ _ hlt, List.getElem?_eq_getElem hlt]
  simp only [TcpNIIPPCoder.encode, hget _ (by decide : 0 < 11), hget _ (by decide : 1 < 11),
    hget _ (by decide : 2 < 11), hget _ (by decide : 3 < 11), hget _ (by decide : 4 < 11),
    hget _ (by decide : 5 < 11), hget _ (by decide : 6 < 11), hget _ (by decide : 7 < 11),
    hget _ (by decide : 8 < 11), hget _ (by decide : 9 < 11), hget _ (by decide : 10 < 11)]
  exact ⟨_, _, rfl, rfl, rfl, rfl, rfl, rfl⟩

/-! ### One event -/

variable {fp : Numerics} {conv : Conversions} {n : Niipp} {event : NiippEvent} {value : Int}

theorem inTable_iff :
    (∀ access ∈ n.powerAccesses value, Niipp.InTable access) ↔
      (n.m_antenaType = 0 ∨ n.m_antenaType = 1 →
        0 ≤ value ∧ value ≤ sliderMaximum n.m_antenaType) := by
  have hcircle : Niipp.m_zone.length = 24 := rfl
  have hsector : Niipp.m_zoneDir.length = 28 := rfl
  rw [Niipp.powerAccesses, Niipp.powerTable]
  by_cases h0 : n.m_antenaType = 0
  · simp [h0, Niipp.InTable, sliderMaximum, hsector]
    omega
  · by_cases h1 : n.m_antenaType = 1
    · simp [h1, Niipp.InTable, sliderMaximum, hcircle]
      omega
    · simp [h0, h1]

theorem antennaOfMode_cases (mode : Int) : antennaOfMode mode = 0 ∨ antennaOfMode mode = 1 := by
  rw [antennaOfMode]
  split
  · exact Or.inr rfl
  · exact Or.inl rfl

theorem readsInside_of_short {m_id : Int} {now : QDateTime} {data : List UInt8}
    (h : ¬11 ≤ (Text.split [','] (textOfBytes data)).length) :
    ReadsInside fp conv n (.device m_id now data) := by
  rw [ReadsInside, react, encode_of_short h]
  exact List.forall_mem_nil _

/-- A line with all its fields, sent by the device of this complex, is one access for its zone, to
the table of its mode. -/
theorem react_device {m_id : Int} {now : QDateTime} {data : List UInt8}
    (h : 11 ≤ (Text.split [','] (textOfBytes data)).length) :
    (react fp conv n (.device m_id now data)).2 =
      if n.m_id ≠ m_id then []
      else (n.setAntennaType now 1 (antennaOfMode (Text.toInt (lineField data 2)))).powerAccesses
        (Text.toInt (lineField data 8)) := by
  obtain ⟨message, answer, hencode, htype, hread, hid, hmode, hzone⟩ :=
    readAnswer_encode fp conv m_id h
  simp only [react, hencode, htype, onNiippData, hread, hid, hmode, hzone, if_true]
  split
  · rfl
  · rfl

theorem sendEvil_keeps (n : Niipp) (now : QDateTime) (point : PointRef) (alt bearing : Double) :
    (n.sendEvil now point alt bearing).m_id = n.m_id ∧
      (n.sendEvil now point alt bearing).m_antenaType = n.m_antenaType := by
  rw [Niipp.sendEvil]
  split
  · exact ⟨rfl, rfl⟩
  · split
    · exact ⟨rfl, rfl⟩
    · cases point <;> exact ⟨rfl, rfl⟩

theorem changeValuePower_keeps (n : Niipp) (now : QDateTime) (source value : Int) :
    (n.changeValuePower now source value).m_id = n.m_id ∧
      (n.changeValuePower now source value).m_antenaType = n.m_antenaType := by
  rw [Niipp.changeValuePower]
  split_ifs <;> simp [sendEvil_keeps]

theorem setAntennaType_keeps (n : Niipp) (now : QDateTime) (source value : Int) :
    (n.setAntennaType now source value).m_id = n.m_id ∧
      (n.setAntennaType now source value).m_antenaType = value := by
  rw [Niipp.setAntennaType]
  split_ifs <;> simp [sendEvil_keeps]

/-- One event reads inside of the tables just where the line is in the range of the slider. -/
theorem readsInside_iff (hslider : WithinSlider n event) :
    ReadsInside fp conv n event ↔ ZoneInRange n.m_id event := by
  cases event with
  | device m_id now data =>
      by_cases hfields : 11 ≤ (Text.split [','] (textOfBytes data)).length
      · rw [ReadsInside, react_device hfields, ZoneInRange]
        split
        · rename_i hother
          exact iff_of_true (List.forall_mem_nil _) fun h => absurd h.symm hother
        · rename_i hsame
          rw [inTable_iff, (setAntennaType_keeps n now 1 _).2]
          have hid : m_id = n.m_id := (not_not.mp hsame).symm
          have hantenna := antennaOfMode_cases (Text.toInt (lineField data 2))
          exact ⟨fun h _ _ => h hantenna, fun h _ => h hid hfields⟩
      · exact iff_of_true (readsInside_of_short hfields) fun _ h => absurd h hfields
  | operation op =>
      refine iff_of_true ?_ trivial
      cases op with
      | valuePowerChanged now value => exact inTable_iff.mpr fun _ => hslider
      | _ => exact List.forall_mem_nil _

theorem step_keeps (n : Niipp) (op : NiippOp) :
    (step n op).m_id = n.m_id ∧ (step n op).m_antenaType = match op with
      | .antennaTypeChanged _ _ value => value
      | _ => n.m_antenaType := by
  cases op with
  | uavInfoChanged view now uavInfo uavRole =>
      rw [step, onUavInfoChanged, sendEnemyBpla]
      split_ifs <;> simp [sendEvil_keeps, Niipp.setAntenaIndex, Niipp.setSBpowerValue]
  | valuePowerChanged now value => exact changeValuePower_keeps _ now 0 value
  | antennaTypeChanged view now value =>
      rw [step, setAntennaType]
      split_ifs <;> simp [setAntennaType_keeps, Niipp.setAntenaIndex, Niipp.setMode]
  | modeChanged now value => exact sendEvil_keeps _ now _ _ _
  | setPoint coord => exact ⟨rfl, rfl⟩
  | startClicked => exact ⟨rfl, rfl⟩
  | stopClicked now =>
      rw [step, Niipp.stopCommad]
      split_ifs <;> exact ⟨rfl, rfl⟩
  | complexEnabled now state =>
      rw [step, Niipp.enableComplex]
      split_ifs <;> exact ⟨rfl, rfl⟩

theorem m_id_reactStep (n : Niipp) (event : NiippEvent) :
    (reactStep fp conv n event).m_id = n.m_id := by
  cases event with
  | device m_id now data =>
      rw [reactStep, react]
      split
      · split
        · rw [onNiippData]
          split
          · split
            · rfl
            · exact ((changeValuePower_keeps _ now 1 _).1).trans (setAntennaType_keeps n now 1 _).1
          · rfl
        · rfl
      · rfl
  | operation op =>
      cases op with
      | valuePowerChanged now value => exact (step_keeps n (.valuePowerChanged now value)).1
      | _ => exact (step_keeps n _).1

/-! ### Every sequence of events -/

/-- **The power index stays inside of its table** along the runs whose lines name a zone of the
table of their mode, and along no other. -/
theorem readsInside_along_iff (fp : Numerics) (conv : Conversions) (n : Niipp)
    (events : List NiippEvent) (hslider : Along (reactStep fp conv) WithinSlider n events) :
    Along (reactStep fp conv) (ReadsInside fp conv) n events ↔
      ∀ event ∈ events, ZoneInRange n.m_id event := by
  have hid : ∀ (s : Niipp) event, s.m_id = n.m_id → (reactStep fp conv s event).m_id = n.m_id :=
    fun s event hs => (m_id_reactStep s event).trans hs
  have hiff : ∀ (s : Niipp) event, s.m_id = n.m_id → WithinSlider s event →
      (ReadsInside fp conv s event ↔ ZoneInRange n.m_id event) :=
    fun s event hs hevent => hs ▸ readsInside_iff hevent
  rw [Along.congr_of (fun s event hs _ _ => hid s event hs) hiff rfl hslider]
  exact Along.forall_mem_iff

def noConversions : Conversions where
  number _ := []
  toDate _ _ := 0
  toTime _ _ := 0

/-- A line of a complex that works with the undirected antenna. -/
def workingLine (zone : String) : List UInt8 :=
  ("010100,120000,1,424205,N,413345,E,100," ++ zone ++ ",10,20").toList.map fun c =>
    UInt8.ofNat c.toNat

/-- A complex that nothing was done to. -/
def complex100 : Niipp where
  m_id := 100
  m_parentTab := true

/-- The last zone of the table from the device, then the last value of the slider. -/
theorem readsInside_along_last :
    Along (reactStep .exact noConversions) (ReadsInside .exact noConversions) complex100
      [.device 100 ⟨0, 0⟩ (workingLine "23"), .operation (.valuePowerChanged ⟨0, 0⟩ 23)] :=
  (readsInside_along_iff .exact noConversions complex100 [.device 100 ⟨0, 0⟩ (workingLine "23"),
    .operation (.valuePowerChanged ⟨0, 0⟩ 23)]
    ⟨trivial, ⟨by decide, by decide +kernel⟩, trivial⟩).mpr
    (List.forall_mem_cons.mpr ⟨fun _ _ => by decide +kernel, List.forall_mem_singleton.mpr trivial⟩)

/-- A device that names the zone 100 makes the controller read far past the table. -/
theorem not_readsInside : ¬∀ (fp : Numerics) (conv : Conversions) (n : Niipp)
    (events : List NiippEvent), Along (reactStep fp conv) WithinSlider n events →
      Along (reactStep fp conv) (ReadsInside fp conv) n events := by
  intro h
  have hreads := h .exact noConversions complex100 [.device 100 ⟨0, 0⟩ (workingLine "100")]
    ⟨trivial, trivial⟩
  have haccess : (Niipp.m_zone, (100 : Int)) ∈
      (react .exact noConversions complex100 (.device 100 ⟨0, 0⟩ (workingLine "100"))).2 := by
    decide +kernel
  exact absurd (hreads.1 _ haccess) (by decide)

/-! ### The range of the slider

The slider has the range of the antenna that the operator chose last. A line of the device may
change the antenna, and the range stays.
-/

structure NiippPanel where
  model : Niipp
  powerMaximum : Int
  deriving DecidableEq, Repr

def panelStep (fp : Numerics) (conv : Conversions) (p : NiippPanel) (event : NiippEvent) :
    NiippPanel where
  model := reactStep fp conv p.model event
  powerMaximum := match event with
    | .operation (.antennaTypeChanged _ _ value) => sliderMaximum value
    | _ => p.powerMaximum

/-- The operator's power value is one of the slider as it is. -/
def SliderAllows (p : NiippPanel) : NiippEvent → Prop
  | .operation (.valuePowerChanged _ value) => 0 ≤ value ∧ value ≤ p.powerMaximum
  | _ => True

/-- The line does not change the antenna. -/
def KeepsAntenna (p : NiippPanel) : NiippEvent → Prop
  | .device m_id _ data =>
      m_id = p.model.m_id → 11 ≤ (Text.split [','] (textOfBytes data)).length →
        antennaOfMode (Text.toInt (lineField data 2)) = p.model.m_antenaType
  | .operation _ => True

theorem m_antenaType_device (m_id : Int) (now : QDateTime) (data : List UInt8) :
    (reactStep fp conv n (.device m_id now data)).m_antenaType =
      if m_id = n.m_id ∧ 11 ≤ (Text.split [','] (textOfBytes data)).length then
        antennaOfMode (Text.toInt (lineField data 2))
      else n.m_antenaType := by
  by_cases hfields : 11 ≤ (Text.split [','] (textOfBytes data)).length
  · obtain ⟨message, answer, hencode, htype, hread, hid, hmode, hzone⟩ :=
      readAnswer_encode fp conv m_id hfields
    simp only [reactStep, react, hencode, htype, onNiippData, hread, hid, hmode, hzone, if_true]
    by_cases hsame : m_id = n.m_id
    · rw [if_neg (not_not.mpr hsame.symm), if_pos ⟨hsame, hfields⟩,
        (changeValuePower_keeps _ now 1 _).2, (setAntennaType_keeps n now 1 _).2]
    · rw [if_pos (Ne.symm hsame), if_neg fun h => hsame h.1]
  · rw [reactStep, react, encode_of_short hfields, if_neg fun h => hfields h.2]

/-- The range of the slider is the one of the antenna in use. -/
def NiippPanel.InRange (p : NiippPanel) : Prop :=
  p.powerMaximum = sliderMaximum p.model.m_antenaType

theorem inRange_panelStep {p : NiippPanel} (hrange : p.InRange) (hkeeps : KeepsAntenna p event) :
    (panelStep fp conv p event).InRange := by
  cases event with
  | device m_id now data =>
      refine hrange.trans (congrArg sliderMaximum ?_)
      change _ = (reactStep fp conv p.model (.device m_id now data)).m_antenaType
      rw [m_antenaType_device]
      split
      · rename_i hhandled
        exact (hkeeps hhandled.1 hhandled.2).symm
      · rfl
  | operation op =>
      have hantenna := (step_keeps p.model op).2
      cases op with
      | antennaTypeChanged view now value => exact (congrArg sliderMaximum hantenna).symm
      | _ => exact hrange.trans (congrArg sliderMaximum hantenna).symm

theorem withinSlider_of_inRange {p : NiippPanel} (hrange : p.InRange)
    (hallows : SliderAllows p event) : WithinSlider p.model event := by
  cases event with
  | device m_id now data => trivial
  | operation op =>
      cases op with
      | valuePowerChanged now value => exact ⟨hallows.1, hallows.2.trans_eq hrange⟩
      | _ => trivial

/-- Where no line changes the antenna, the slider keeps the operator in the range of the antenna in
use. -/
theorem withinSlider_of_panel (p : NiippPanel) (events : List NiippEvent) (hrange : p.InRange)
    (hrun : Along (panelStep fp conv) (fun p event => SliderAllows p event ∧ KeepsAntenna p event) p
      events) :
    Along (reactStep fp conv) WithinSlider p.model events := by
  have hproject : Along (panelStep fp conv) (fun p event => WithinSlider p.model event) p events ↔
      Along (reactStep fp conv) WithinSlider p.model events := Along.project fun _ _ => rfl
  have hstep : ∀ (p : NiippPanel) event, p.InRange → SliderAllows p event ∧ KeepsAntenna p event →
      (panelStep fp conv p event).InRange :=
    fun _ _ hrange hevent => inRange_panelStep hrange hevent.2
  have himp : ∀ (p : NiippPanel) event, p.InRange → SliderAllows p event ∧ KeepsAntenna p event →
      WithinSlider p.model event :=
    fun _ _ hrange hevent => withinSlider_of_inRange hrange hevent.1
  exact hproject.mp (Along.imp hstep himp hrange hrun)

-- after a line in mode 1 the slider still has the value 27
example : (react .exact noConversions
    (reactStep .exact noConversions complex100 (.device 100 ⟨0, 0⟩ (workingLine "23")))
    (.operation (.valuePowerChanged ⟨0, 0⟩ 27))).2 = [(Niipp.m_zone, 27)] := by
  decide +kernel

end NiippController

end ArmOd
