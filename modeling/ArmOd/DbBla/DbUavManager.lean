import ArmOd.DbBla.DbUavController

/-!
# DbUavManager

The manager of the live UAVs. It turns position messages into rows and notifications, keeps the list
of the UAVs that are known now with a life timer for each, and tells its listeners when a UAV
appears, changes and disappears. The state is the manager's own maps, the connection behind its
controller, and what has been sent to the listeners so far.

`addUavInfoToDb` is cut into the steps its text has: the rows a position needs (`uavIdFor` to
`sourceIdFor`), the record built from them (`uavInfoFor`), and the notification (`addUavInfo`). An
argument of `QDataStream` type is what the stream operators read out of it.
-/

namespace ArmOd

abbrev Listener := Nat

structure DbUavManager where
  m_knownUavsList : QMap Nat Uav := ∅
  m_lifeTimerMap : QMap String QTimer := ∅
  m_receiversList : List Listener

structure World where
  m_dbController : Session
  manager : DbUavManager
  sent : List (Listener × UavNotification)

abbrev ManagerM := StateM World

namespace DbUavManager

open DbUavController

def LIFETIME_1 : Nat := 20000

/-- A call of the controller. -/
def db {α : Type} (f : DbM α) : ManagerM α := fun w =>
  let (a, s) := f w.m_dbController
  (a, { w with m_dbController := s })

/-- `foreach (IUavDbChangedListener* receiver, m_receiversList)`. -/
def notify (n : UavNotification) : ManagerM PUnit := fun w =>
  (⟨⟩, { w with sent := w.sent ++ w.manager.m_receiversList.map fun receiver => (receiver, n) })

def update (f : DbUavManager → DbUavManager) : ManagerM PUnit :=
  fun w => (⟨⟩, { w with manager := f w.manager })

/-! ### Life timers -/

/-- The test of `addUavInfo` for a UAV that is not known yet. -/
def isNew (m : DbUavManager) (uavId : Nat) : Bool :=
  !m.m_knownUavsList.contains uavId && !m.m_lifeTimerMap.contains (QString.number uavId)

def insertUav (uav : Uav) (m : DbUavManager) : DbUavManager :=
  { m with
    m_knownUavsList := m.m_knownUavsList.insert uav.uavId uav
    m_lifeTimerMap := m.m_lifeTimerMap.insert (QString.number uav.uavId) {} }

/-- `lifeTimer->start( LIFETIME_1 )`, where there is a timer. -/
def startTimer (uavId : Nat) (m : DbUavManager) : DbUavManager :=
  if m.m_lifeTimerMap.contains (QString.number uavId) then
    { m with m_lifeTimerMap := m.m_lifeTimerMap.insert (QString.number uavId) ⟨true, LIFETIME_1⟩ }
  else m

/-- `take` on both maps; taking a missing UAV gives a default-constructed one, whose ids are
uninitialised. -/
def takeUav (key : String) (m : DbUavManager) : DbUavManager :=
  { m with
    m_knownUavsList := m.m_knownUavsList.erase (QString.toUInt key)
    m_lifeTimerMap := m.m_lifeTimerMap.erase key }

def trackUav (uav : Uav) (uavRole : String) : ManagerM PUnit := do
  if (← get).manager.isNew uav.uavId then
    update (insertUav uav)
    notify (.onUavAdded uav uavRole)
  update (startTimer uav.uavId)

def timeoutSlot (uninitialised : Uav) (key : String) : ManagerM PUnit := do
  let uav := (← get).manager.m_knownUavsList.getD (QString.toUInt key) uninitialised
  update (takeUav key)
  let uavRole := (← db (getUavRole uav.roleId)).code
  notify (.onUavRemoved uav uavRole)

def deleteAllUav (uninitialised : Uav) : ManagerM PUnit := do
  (← get).manager.m_lifeTimerMap.keys.forM (timeoutSlot uninitialised)
  update fun m => { m with m_knownUavsList := ∅, m_lifeTimerMap := ∅ }

/-! ### Live information -/

/-- The name shown for a UAV that has none is its id. -/
def named (uav : Uav) : Uav := if uav.name.isEmpty then
    { uav with name := QString.number uav.uavId } else uav

def addUavInfo (uavInfo : UavInfo) (actual : Bool) (tail tailStdDev : List QPointF) :
    ManagerM Int := do
  let row ← db (getUav uavInfo.uavId)
  if row.id < 0 then return -1
  let uav := named row
  if !actual then return -1
  let recordIndex ← db (DbUavController.addUavInfo uavInfo)
  let uavRole := (← db (getUavRole uav.roleId)).code
  trackUav uav uavRole
  let source := (← db (getSource uavInfo.source)).sourceId
  if recordIndex ≠ INVALID_INDEX then
    notify (.onUavInfoChanged { uavInfo with uavId := uav.uavId, source := source } uavRole
      tail tailStdDev)
  return recordIndex

/-! ### Position messages -/

/-- Look a name up, and add it where it is missing. -/
def recordIdFor (getByName add : String → DbM Int) (name : String) : DbM Int := do
  let id ← getByName name
  if id < 0 then add name else return id

def roleIdFor (role : String) : DbM Int := do
  let uavRole ← getUavRoleByCode role
  if uavRole.id < 0 then addUavRole { code := role, name := role } else return uavRole.id

/-- The UAV of a position whose board id was not found. -/
def newUav (positionData : UAVPositionData) (uavTypeId roleId : Int) : Uav where
  uavId := positionData.boardID
  uavTypeId := uint uavTypeId
  ip := "127.0.0.1"
  roleId := uint roleId
  freqId := positionData.frequency.toInt

def createUav (positionData : UAVPositionData) (role uavType : String) : DbM Int := do
  let uavUnknownTypeId ← recordIdFor getUavTypeByName addUavType uavType
  let roleId ← roleIdFor role
  addUav (newUav positionData uavUnknownTypeId roleId)

def uavIdFor (positionData : UAVPositionData) (role uavType : String) : DbM Int := do
  let uavId := (← getUavByUavId positionData.boardID).id
  if uavId < 0 then createUav positionData role uavType else return uavId

def deviceIdFor (positionData : UAVPositionData) (deviceType : String) : DbM Int := do
  let unknownDeviceTypeId ← recordIdFor getDeviceTypeByName addDeviceType deviceType
  match (← getDevicesByType (uint unknownDeviceTypeId)).2 with
  | [] =>
      addDevice { uavId := positionData.boardID, deviceId := uint unknownDeviceTypeId, port := 0 }
  | device :: _ => return device.id

/-- The key of a source that had to be added is not taken over. -/
def sourceIdFor (positionData : UAVPositionData) (sourceType : String) : DbM Int := do
  let sourceTypeId ← recordIdFor getSourceTypeByName addSourceType sourceType
  let sourceId ← getSourceId positionData.sourceType (uint sourceTypeId)
  if sourceId < 0 then
    let _ ← addSource { sourceTypeId := uint sourceTypeId, sourceId := positionData.sourceType }
  return sourceId

def infoAlt (altitude : Double) : Double :=
  if altitude.isNaN then 0 else if altitude.lt 100 || Double.lt 10000 altitude then 0 else altitude

def infoYaw (course : Double) : Double :=
  if course.isNaN then 0 else if course.lt 0 || Double.lt 359 course then 0 else course

def uavInfoOf (positionData : UAVPositionData)
    (uavId statusUnknownId deviceUnknownId sourceId : Int) : UavInfo where
  uavId := uint uavId
  device := uint deviceUnknownId
  lat := positionData.latitude
  lon := positionData.longitude
  latStddev := positionData.latitudeStddev
  lonStddev := positionData.longitudeStddev
  alt := infoAlt positionData.altitude
  speed := positionData.speed
  yaw := infoYaw positionData.course
  restTime := 3600000
  statusId := uint statusUnknownId
  dateTime := positionData.dateTime
  source := uint sourceId

/-- The record of a position, with the rows it names looked up or created. -/
def uavInfoFor (positionData : UAVPositionData)
    (role uavType status deviceType sourceType : String) : DbM UavInfo := do
  let uavId ← uavIdFor positionData role uavType
  let statusUnknownId ← recordIdFor getStatusByName addStatus status
  let deviceUnknownId ← deviceIdFor positionData deviceType
  let sourceId ← sourceIdFor positionData sourceType
  return uavInfoOf positionData uavId statusUnknownId deviceUnknownId sourceId

def addUavInfoToDb (positionData : UAVPositionData)
    (role uavType status deviceType sourceType : String) (actual : Bool)
    (tail tailStdDev : List QPointF) : ManagerM PUnit := do
  let uavInfo ← db (uavInfoFor positionData role uavType status deviceType sourceType)
  let _ ← addUavInfo uavInfo actual tail tailStdDev

/-! ### Enemy positions -/

/-- The board id an enemy is looked up by. -/
def enemyBoardID (frequency : Double) : Nat :=
  if frequency.lt 0 then ENEMY_UAV_ID_OFFSET else quint16 frequency.toInt

/-- An enemy position as a position; `now` is the current time. -/
def positionOfEnemy (now : QDateTime) (positionDataEnemy : UAVPositionDataEnemy) :
    UAVPositionData :=
  let dateTime := now.setTime positionDataEnemy.time
  { altitude := positionDataEnemy.altitude
    course := positionDataEnemy.course
    speed := positionDataEnemy.speed
    state := uint positionDataEnemy.state
    latitude := positionDataEnemy.latLon.x
    longitude := positionDataEnemy.latLon.y
    latitudeStddev := positionDataEnemy.latLonStdDev.x
    longitudeStddev := positionDataEnemy.latLonStdDev.y
    boardID := enemyBoardID positionDataEnemy.frequency
    frequency := positionDataEnemy.frequency
    sourceType := positionDataEnemy.sourceType
    dateTime := if now.lt dateTime then now else dateTime }

def addEnemyUavInfoToDb (now : QDateTime) (positionDataEnemy : UAVPositionDataEnemy)
    (role uavType status deviceType sourceType : String) (actual : Bool)
    (tail tailStdDev : List QPointF) : ManagerM PUnit :=
  addUavInfoToDb (positionOfEnemy now positionDataEnemy) role uavType status deviceType sourceType
    actual tail tailStdDev

def getEnemySourceTypeName (sourceType : Nat) : String :=
  if sourceType = UAV_SOLVER_MANUAL_SOURCE then "Solver Manual"
  else if sourceType = UAV_SOLVER_AUTO_SOURCE then "Solver Auto"
  else if sourceType = UAV_SOLVER_SINGLE_1_SOURCE then "Solver Single 1"
  else if sourceType = UAV_SOLVER_SINGLE_2_SOURCE then "Solver Single 2"
  else "UnknownSourceType"

def isSingleSource (sourceType : Nat) : Bool :=
  sourceType == UAV_SOLVER_SINGLE_1_SOURCE || sourceType == UAV_SOLVER_SINGLE_2_SOURCE

/-- The source of the `i`-th position of a message: the single solver's positions alternate between
its two sources. -/
def enemySourceType (sourceType i : Nat) : Nat :=
  if sourceType = UAV_SOLVER_SINGLE_1_SOURCE ∧ i % 2 = 1 then UAV_SOLVER_SINGLE_2_SOURCE
    else sourceType

/-- The loop over the positions of a message, from the `i`-th on. -/
def enemyPoints (now : QDateTime) (sourceType : Nat) : Nat → List QPointF → List QPointF →
    List UAVPositionDataEnemy → ManagerM PUnit
  | _, _, _, [] => return ⟨⟩
  | i, tail, tailStdDev, uav :: rest => do
    let tail := tail ++ [uav.latLon]
    let tailStdDev := tailStdDev ++ [uav.latLonStdDev]
    let isActual := rest.isEmpty || isSingleSource sourceType
    let withTail := isActual && !isSingleSource sourceType
    addEnemyUavInfoToDb now { uav with sourceType := enemySourceType sourceType i } ENEMY_UAV_ROLE
      "UnknownUavType" "UnknownStatus"
      "UnknownDeviceType" (getEnemySourceTypeName (enemySourceType sourceType i)) isActual
      (if withTail then tail else []) (if withTail then tailStdDev else [])
    enemyPoints now sourceType (i + 1) tail tailStdDev rest

def sendEnemyUavPoints (now : QDateTime) (uavList : List UAVPositionDataEnemy) (sourceType : Nat) :
    ManagerM PUnit := do
  let _ ← db beginTransaction
  enemyPoints now sourceType 0 [] [] uavList
  let _ ← db commit

/-! ### Messages -/

/-- The argument of a call, as each of the two stream operators reads it. -/
structure RpcArgument where
  positionDataVector : List UAVPositionData := []
  uavList : List UAVPositionDataEnemy := []
  deriving DecidableEq, Repr

def onMethodCalled (now : QDateTime) (method : String) (argument : RpcArgument) : ManagerM PUnit :=
  if method = RPC_SLOT_SERVER_SEND_BLA_POINTS then
    match argument.positionDataVector with
    | [] => return ⟨⟩
    | positionData :: _ =>
      addUavInfoToDb positionData OUR_UAV_ROLE "UnknownUavType" "UnknownStatus" "UnknownDeviceType"
        "UnknownSourceType" true [] []
  else if method = RPC_SLOT_SERVER_SEND_BPLA_POINTS then
    sendEnemyUavPoints now argument.uavList UAV_SOLVER_MANUAL_SOURCE
  else if method = RPC_SLOT_SERVER_SEND_BPLA_POINTS_AUTO then
    sendEnemyUavPoints now argument.uavList UAV_SOLVER_AUTO_SOURCE
  else if method = RPC_SLOT_SERVER_SEND_BPLA_POINTS_SINGLE then
    sendEnemyUavPoints now argument.uavList UAV_SOLVER_SINGLE_1_SOURCE
  else return ⟨⟩

structure RpcMessage where
  now : QDateTime
  method : String
  argument : RpcArgument

def handleMessage (w : World) (m : RpcMessage) : World :=
  ((onMethodCalled m.now m.method m.argument).run w).2

/-- The solver a message is from. -/
def enemySource (method : String) : Option Nat :=
  if method = RPC_SLOT_SERVER_SEND_BPLA_POINTS then some UAV_SOLVER_MANUAL_SOURCE
  else if method = RPC_SLOT_SERVER_SEND_BPLA_POINTS_AUTO then some UAV_SOLVER_AUTO_SOURCE
  else if method = RPC_SLOT_SERVER_SEND_BPLA_POINTS_SINGLE then some UAV_SOLVER_SINGLE_1_SOURCE
  else none

theorem onMethodCalled_eq (now : QDateTime) (method : String) (argument : RpcArgument) :
    onMethodCalled now method argument =
      if method = RPC_SLOT_SERVER_SEND_BLA_POINTS then
        match argument.positionDataVector with
        | [] => return ⟨⟩
        | positionData :: _ =>
          addUavInfoToDb positionData OUR_UAV_ROLE "UnknownUavType" "UnknownStatus"
            "UnknownDeviceType" "UnknownSourceType" true [] []
      else match enemySource method with
        | some sourceType => sendEnemyUavPoints now argument.uavList sourceType
        | none => return ⟨⟩ := by
  rw [onMethodCalled, enemySource]
  split
  · rfl
  split
  · rfl
  split
  · rfl
  split <;> rfl

/-! ### Targets of a mission -/

def getTargetsByUavIdAndTargetType (uavId : Nat) (targetType : String) : DbM
    (Bool × List Target) := do
  let (_, uavMissions) ← getUavMissionsByUavId uavId
  let targetsRecords ← uavMissions.foldlM (fun records mission => do
    let (_, targets) ← getTargetsByMission (uint mission.id)
    targets.foldlM (fun records target => do
      if target.type = (← getTargetTypeByName targetType) then return records ++ [target]
        else return records) records) []
  return (true, targetsRecords)

end DbUavManager

end ArmOd
