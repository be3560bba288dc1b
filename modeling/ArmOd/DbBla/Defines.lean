import ArmOd.Base.Listeners
import ArmOd.Qt.Values

/-!
# Records and constants

The records of `UAVDefines.h` (what the server sends) and of `DbBla/Defines.h` (what the database
and the listeners see), with the constants the code compares against. Fields that no modelled
function reads are left out. A field the C++ constructor leaves uninitialised has no meaning before
it is set; it is zero here.
-/

namespace ArmOd

def UAV_AUTOPILOT_SOURCE : Nat := 1
def UAV_SOLVER_AUTO_SOURCE : Nat := 100
def UAV_SOLVER_MANUAL_SOURCE : Nat := 101
def UAV_SOLVER_SINGLE_1_SOURCE : Nat := 102
def UAV_SOLVER_SINGLE_2_SOURCE : Nat := 103
def UAV_SLICES_SOURCE : Nat := 622

def OUR_UAV_ROLE : String := "ourUavRole"
def ENEMY_UAV_ROLE : String := "enemyUavRole"

def ENEMY_UAV_ID_OFFSET : Nat := 50

def INVALID_INDEX : Int := -1

def RPC_SLOT_SERVER_SEND_BLA_POINTS : String := "rpc_slot_server_send_bla_points"
def RPC_SLOT_SERVER_SEND_BPLA_POINTS : String := "rpc_slot_server_send_bpla_point_from_arm_r"
def RPC_SLOT_SERVER_SEND_BPLA_POINTS_AUTO : String :=
  "rpc_slot_server_send_bpla_point_from_arm_r_auto"
def RPC_SLOT_SERVER_SEND_BPLA_POINTS_SINGLE : String :=
  "rpc_slot_server_send_bpla_point_from_arm_r_single"

/-- A position of one of our own boards. -/
structure UAVPositionData where
  boardID : Nat := 0
  device : Nat := 0
  latitude : Double := 0
  longitude : Double := 0
  latitudeStddev : Double := 0
  longitudeStddev : Double := 0
  altitude : Double := 0
  altitudeGPS : Double := 0
  speed : Double := 0
  aSpeed : Double := 0
  course : Double := 0
  frequency : Double := .fin (-1)
  state : Nat := 0
  dateTime : QDateTime
  sourceType : Nat := UAV_AUTOPILOT_SOURCE
  deriving DecidableEq, Repr

/-- A position the solver found for an emitter of some frequency. -/
structure UAVPositionDataEnemy where
  altitude : Double := 0
  altitudeStdDev : Double := 0
  speed : Double := 0
  course : Double := 0
  state : Int := 0
  frequency : Double := .fin (-1)
  time : QTime
  latLonStdDev : QPointF := ⟨0, 0⟩
  latLon : QPointF := ⟨0, 0⟩
  sourceType : Nat := 0
  deriving DecidableEq, Repr

/-- A UAV as the rest of the program sees it; `id` is the primary key, or `INVALID_INDEX`. -/
structure Uav where
  id : Int := 0
  uavId : Nat := 0
  ip : String := ""
  uavTypeId : Nat := 0
  roleId : Nat := 0
  name : String := ""
  freqId : Int := 0
  historical : Bool := false
  deriving DecidableEq, Repr

structure UavRole where
  id : Int := 0
  code : String := ""
  name : String := ""
  deriving DecidableEq, Repr

structure UavInfo where
  id : Int := 0
  uavId : Nat
  device : Nat := 0
  source : Nat
  lat : Double
  lon : Double
  latStddev : Double
  lonStddev : Double
  alt : Double
  speed : Double
  yaw : Double
  restTime : QTime
  statusId : Nat
  dateTime : QDateTime
  historical : Bool := false
  deriving DecidableEq, Repr

structure Devices where
  id : Int := 0
  deviceId : Nat
  port : Nat
  uavId : Nat
  deriving DecidableEq, Repr

structure Source where
  id : Int := 0
  sourceTypeId : Nat := 0
  sourceId : Nat := 0
  deriving DecidableEq, Repr

structure UavMission where
  id : Int := 0
  uavId : Nat
  targetId : Nat
  regionCenterLat : Double
  regionCenterLon : Double
  regionCenterAltitude : Double
  regionRadius : Double
  timeToTarget : QTime
  deriving DecidableEq, Repr

structure Target where
  id : Int := 0
  uavId : Int
  ip : String
  port : Nat
  type : Int
  deriving DecidableEq, Repr

/-- What a listener of live or replayed UAVs is told. -/
inductive UavNotification where
  | onUavAdded (uav : Uav) (uavRole : String)
  | onUavInfoChanged (uavInfo : UavInfo) (uavRole : String) (tail tailStdDev : List QPointF)
  | onUavRemoved (uav : Uav) (uavRole : String)
  deriving DecidableEq, Repr

/-- The id of the UAV a notification is about. -/
def UavNotification.uavId : UavNotification → Nat
  | .onUavAdded uav _ => uav.uavId
  | .onUavInfoChanged uavInfo _ _ _ => uavInfo.uavId
  | .onUavRemoved uav _ => uav.uavId

def UavNotification.mark : UavNotification → Mark
  | .onUavAdded _ _ => .added
  | .onUavInfoChanged _ _ _ _ => .changed
  | .onUavRemoved _ _ => .removed

/-! ### What keeps the listeners told

A list of known UAVs is what the listeners were told, as long as it grows and shrinks with these
notifications. -/

namespace Told

variable {ι : Type} [DecidableEq ι] {receivers : List ι} {known : QMap Nat Uav}
  {sent : List (ι × UavNotification)}

theorem onUavAdded (hnodup : receivers.Nodup)
    (htold : Told UavNotification.uavId UavNotification.mark receivers (known.contains ·) sent)
    {uav : Uav} (hnew : known.contains uav.uavId = false) (uavRole : String) :
    Told UavNotification.uavId UavNotification.mark receivers
      ((known.insert uav.uavId uav).contains ·)
      (sent ++ ArmOd.broadcast receivers (.onUavAdded uav uavRole)) := by
  refine htold.broadcast hnodup ?_ fun k hk => QMap.contains_insert_of_ne hk
  change Blocks.next (known.contains uav.uavId) .added = _
  rw [hnew]
  exact congrArg some QMap.contains_insert_self.symm

theorem onUavInfoChanged (hnodup : receivers.Nodup)
    (htold : Told UavNotification.uavId UavNotification.mark receivers (known.contains ·) sent)
    {uavInfo : UavInfo} (hknown : known.contains uavInfo.uavId = true) (uavRole : String)
    (tail tailStdDev : List QPointF) :
    Told UavNotification.uavId UavNotification.mark receivers (known.contains ·)
      (sent ++
        ArmOd.broadcast receivers (.onUavInfoChanged uavInfo uavRole tail tailStdDev)) := by
  refine htold.broadcast hnodup ?_ fun _ _ => rfl
  change Blocks.next (known.contains uavInfo.uavId) .changed = some (known.contains uavInfo.uavId)
  rw [hknown]
  rfl

theorem onUavRemoved (hnodup : receivers.Nodup)
    (htold : Told UavNotification.uavId UavNotification.mark receivers (known.contains ·) sent)
    {uav : Uav} (hknown : known.contains uav.uavId = true) (uavRole : String) :
    Told UavNotification.uavId UavNotification.mark receivers
      ((known.erase uav.uavId).contains ·)
      (sent ++ ArmOd.broadcast receivers (.onUavRemoved uav uavRole)) := by
  refine htold.broadcast hnodup ?_ fun k hk => QMap.contains_erase_of_ne hk
  change Blocks.next (known.contains uav.uavId) .removed =
    some ((known.erase uav.uavId).contains uav.uavId)
  rw [hknown, QMap.contains_erase_self]
  rfl

end Told

end ArmOd
