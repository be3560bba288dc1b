import ArmOd.DbBla.Defines
import ArmOd.Tcp.TcpNIIPPCoder

/-!
# Niipp

The control of a NIIPP complex: its settings, the target it is aimed at, the point it leads to, and
the commands it sends to the server. A target is stored with the latitude first. `sendEvil` takes
the target by reference, so the argument may be the stored target itself, and then what is read
through it changes while the stored target is written.

The controller is the operations of the model as the operator, the map and the listeners of UAVs
call them; what it reads from its view is an argument.
-/

namespace ArmOd

def COMMAND_SET_NIIPP_BPLA : Nat := 401

structure CommandMessage where
  type : Nat
  data : QByteArray
  deriving DecidableEq, Repr

inductive WorkMode where
  | disabled
  | radiation
  | adduction
  | roundView
  deriving DecidableEq, Repr

structure Niipp where
  m_id : Int
  m_radiusSector : Double := 0
  m_radiusCircle : Double := 0
  m_modeCurrentIndex : WorkMode := .disabled
  m_antenaType : Int := 0
  m_mode : Int := 0
  m_antenaIndex : Int := 0
  m_sbPowerValue : Int := 0
  m_pointUvodeNiipp : QPointF := ⟨0, 0⟩
  m_pointBPLA : QPointF := ⟨0, 0⟩
  m_parentTab : Bool
  m_enable : Bool := false
  sent : List CommandMessage := []
  deriving DecidableEq, Repr

/-- What a `const QPointF&` refers to: a point of the caller, or the stored target. -/
inductive PointRef where
  | value (point : QPointF)
  | m_pointBPLA
  deriving DecidableEq, Repr

namespace Niipp

def m_zone : List ℚ :=
  [1, 1.5, 2, 2.5, 3, 3.5, 4, 4.5, 5, 6, 7, 8, 9, 10, 11, 12, 14, 16, 18, 20, 22, 24, 28, 30]

def m_zoneDir : List ℚ :=
  [2.5, 3, 4, 5, 6, 7, 8, 9, 10, 11, 12, 14, 16, 18, 20, 22, 26, 29, 33, 37, 41, 47, 52, 57, 62,
    68, 72, 76]

/-- The radius of a power value, for a value inside the table. -/
def radius (zones : List ℚ) (value : Int) : Option Double :=
  if value < 0 then none else (zones[value.toNat]?).map fun zone => .fin (zone * 1000)

/-- What a reference reads now. -/
def get (n : Niipp) : PointRef → QPointF
  | .value point => point
  | .m_pointBPLA => n.m_pointBPLA

/-- The fields of a command, in the order they are written. -/
def command (now : QDateTime) (status : String) (alt velocity_dir zone : Int) (n : Niipp) :
    CommandMessage where
  type := COMMAND_SET_NIIPP_BPLA
  data := [.int n.m_id, .qDate now.date, .qTime now.time, .qString status, .qPointF n.m_pointBPLA,
    .qString "N", .qString "E", .int alt, .int velocity_dir, .int zone,
    .qPointF n.m_pointUvodeNiipp, .qString "N", .qString "E"]

def send (command : CommandMessage) (n : Niipp) : Niipp := { n with sent := n.sent ++ [command] }

def stopCommad (now : QDateTime) (n : Niipp) : Niipp :=
  if !n.m_parentTab then n
  else { n.send (n.command now "0300" 0 0 0) with m_enable := false }

def startCommand (n : Niipp) : Niipp := { n with m_enable := true }

def enableComplex (now : QDateTime) (state : Bool) (n : Niipp) : Niipp :=
  if !n.m_parentTab then n
  else n.send (n.command now (if state then "0000" else "0001") 0 0 0)

/-- The command text of a target. -/
def targetStatus (n : Niipp) : String :=
  if n.m_antenaIndex = 1 then "0100"
  else if n.m_mode = 0 then "0201"
  else if n.m_mode = 1 then "0202"
  else if n.m_mode = 2 then "0204"
  else "0200"

/-- `sendEvil`; its second point is not used. -/
def sendEvil (now : QDateTime) (point : PointRef) (alt bearing : Double) (n : Niipp) : Niipp :=
  if !n.m_parentTab then n
  else if !n.m_enable then n
  else
    let n := { n with m_pointBPLA := { n.m_pointBPLA with x := (n.get point).y } }
    let n := { n with m_pointBPLA := { n.m_pointBPLA with y := (n.get point).x } }
    n.send (n.command now n.targetStatus alt.toInt bearing.toInt n.m_sbPowerValue)

def changeValuePower (now : QDateTime) (source value : Int) (n : Niipp) : Niipp :=
  -- past the end of a table there is no radius to take
  let n :=
    if n.m_antenaType = 0 then
      { n with m_radiusSector := (radius m_zoneDir value).getD n.m_radiusSector }
    else if n.m_antenaType = 1 then
      { n with m_radiusCircle := (radius m_zone value).getD n.m_radiusCircle }
    else n
  if source = 0 then n.sendEvil now .m_pointBPLA 0 0 else n

def setAntennaType (now : QDateTime) (source value : Int) (n : Niipp) : Niipp :=
  let n := { n with m_antenaType := value }
  if source = 0 then n.sendEvil now .m_pointBPLA 0 0 else n

def changeMode (now : QDateTime) (value : Int) (n : Niipp) : Niipp :=
  { n with m_mode := value }.sendEvil now .m_pointBPLA 0 0

def setMode (value : Int) (n : Niipp) : Niipp :=
  { n with m_modeCurrentIndex :=
      if value = -1 then .disabled else if value = 1 then .adduction
      else if value = 2 then .roundView else .radiation }

def setAntenaIndex (value : Int) (n : Niipp) : Niipp := { n with m_antenaIndex := value }

def setSBpowerValue (value : Int) (n : Niipp) : Niipp := { n with m_sbPowerValue := value }

def setPoint (coord : QPointF) (n : Niipp) : Niipp :=
  { n with m_pointUvodeNiipp := ⟨coord.y, coord.x⟩ }

end Niipp

/-- What the controller reads from its view. -/
structure NiippView where
  startState : Bool
  modeIndex : Int
  antenaIndex : Int
  sbPowerValue : Int
  deriving DecidableEq, Repr

namespace NiippController

def changeValuePower (now : QDateTime) (value : Int) (m_model : Niipp) : Niipp :=
  (m_model.setSBpowerValue value).changeValuePower now 0 value

def setAntennaType (view : NiippView) (now : QDateTime) (value : Int) (m_model : Niipp) : Niipp :=
  let m_model := if value = 1 then m_model.setMode view.modeIndex else m_model
  (m_model.setAntenaIndex value).setAntennaType now 0 value

def sendEnemyBpla (view : NiippView) (now : QDateTime) (point : QPointF) (alt bearing : Double)
    (m_model : Niipp) : Niipp :=
  if !view.startState then m_model
  else ((m_model.setAntenaIndex view.antenaIndex).setSBpowerValue view.sbPowerValue).sendEvil now
    (.value point) alt bearing

def onUavInfoChanged (view : NiippView) (now : QDateTime) (uavInfo : UavInfo) (uavRole : String)
    (m_model : Niipp) : Niipp :=
  if uavRole ≠ ENEMY_UAV_ROLE then m_model
  else if uavInfo.source ≠ UAV_SOLVER_MANUAL_SOURCE ∧
    uavInfo.source ≠ UAV_SOLVER_AUTO_SOURCE then m_model
  else if m_model.m_id = 100 ∨ m_model.m_id = 101 then
    sendEnemyBpla view now ⟨uavInfo.lon, uavInfo.lat⟩ uavInfo.alt uavInfo.yaw m_model
  else m_model

/-- An operation, with the view it finds and the time it is made at. -/
inductive NiippOp where
  | uavInfoChanged (view : NiippView) (now : QDateTime) (uavInfo : UavInfo) (uavRole : String)
  | valuePowerChanged (now : QDateTime) (value : Int)
  | antennaTypeChanged (view : NiippView) (now : QDateTime) (value : Int)
  | modeChanged (now : QDateTime) (value : Int)
  | setPoint (coord : QPointF)
  | startClicked
  | stopClicked (now : QDateTime)
  | complexEnabled (now : QDateTime) (state : Bool)
  deriving DecidableEq, Repr

def step (m_model : Niipp) : NiippOp → Niipp
  | .uavInfoChanged view now uavInfo uavRole => onUavInfoChanged view now uavInfo uavRole m_model
  | .valuePowerChanged now value => changeValuePower now value m_model
  | .antennaTypeChanged view now value => setAntennaType view now value m_model
  | .modeChanged now value => m_model.changeMode now value
  | .setPoint coord => m_model.setPoint coord
  | .startClicked => m_model.startCommand
  | .stopClicked now => m_model.stopCommad now
  | .complexEnabled now state => m_model.enableComplex now state

end NiippController

end ArmOd
