import ArmOd.DbBla.Session

/-!
# DbUavController

The operations of `DbUavController.cpp` as computations on a connection, with every early return.
Most of them are one statement: prepare it, execute it, and read the first row, all rows or the
generated key. The operations that do something else (a transaction, another operation in between, a
deletion) are written out. Log texts are left out.

An output list is returned beside the result.
-/

namespace ArmOd

namespace DbUavController

open DbM

/-! ### One statement -/

/-- Prepare and execute a `SELECT`; nothing where the connection is closed or the statement fails.
-/
def selectRows {α : Type} (read : Store → List α) : DbM (Option (List α)) := do
  if !(← isOpen) then return none
  if !(← prepare) then return none
  execSelect read

/-- `query.lastInsertId()`, or `INVALID_INDEX` after an error. -/
def lastInsertId : Option Nat → Int
  | some id => id
  | none => INVALID_INDEX

/-- Prepare and execute an `INSERT`, and return the generated key. -/
def insertRow (w : Write) : DbM Int := do
  if !(← isOpen) then return INVALID_INDEX
  if !(← prepare) then return INVALID_INDEX
  return lastInsertId (← execWrite w)

/-- Read a column of the first row, or `INVALID_INDEX` where there is none. -/
def firstIndex (rows : Option (List Nat)) : Int := lastInsertId (rows.bind List.head?)

/-! ### Dictionaries and roles -/

def addDictionaryRecord (dictionary : Dictionary) (name : String) : DbM Int :=
  insertRow (.insertDictionary dictionary name)

def getDictionaryRecord (dictionary : Dictionary) (name : String) : DbM Int := do
  return firstIndex (← selectRows fun s =>
    ((s.dictionary dictionary).select (· == name)).map Prod.fst)

def addTargetType (name : String) : DbM Int := addDictionaryRecord .targettypes name
def getTargetTypeByName (name : String) : DbM Int := getDictionaryRecord .targettypes name
def addUavType (name : String) : DbM Int := addDictionaryRecord .uavtypes name
def getUavTypeByName (name : String) : DbM Int := getDictionaryRecord .uavtypes name
def addDeviceType (name : String) : DbM Int := addDictionaryRecord .devicetypes name
def getDeviceTypeByName (name : String) : DbM Int := getDictionaryRecord .devicetypes name
def addSourceType (name : String) : DbM Int := addDictionaryRecord .sourcetypes name
def getSourceTypeByName (name : String) : DbM Int := getDictionaryRecord .sourcetypes name
def addStatus (status : String) : DbM Int := addDictionaryRecord .statustypes status
def getStatusByName (name : String) : DbM Int := getDictionaryRecord .statustypes name

def addUavRole (uavRole : UavRole) : DbM Int := insertRow (.insertRole ⟨uavRole.code, uavRole.name⟩)

def getUavRole (roleId : Nat) : DbM UavRole := do
  match (← selectRows fun s => (s.uavroles.get? roleId).toList).bind List.head? with
  | some row => return { id := uint roleId, code := row.code, name := row.name }
  | none => return { id := INVALID_INDEX }

/-- The query selects the id only, so the other columns read as empty texts. -/
def getUavRoleByCode (code : String) : DbM UavRole := do
  return { id := firstIndex (← selectRows fun s => (s.uavroles.select fun row => row.code == code).map Prod.fst) }

/-! ### UAVs -/

def readUav (id : Nat) (row : UavRow) : Uav where
  id := id
  uavId := uint row.uavId
  ip := row.ip
  uavTypeId := uint row.uavTypeId
  roleId := uint row.roleId
  name := row.name
  freqId := row.freqId

/-- The first row read, or a `Uav` with an invalid id. -/
def firstUav (rows : Option (List (Nat × UavRow))) : Uav :=
  match rows.bind List.head? with
  | some (id, row) => readUav id row
  | none => { id := INVALID_INDEX }

/-- The public id a row gets: an enemy is keyed by its frequency, anybody else by the id given. -/
def storedUavId (uavRole : String) (uav : Uav) : Nat :=
  if uavRole = ENEMY_UAV_ROLE then
    if uav.freqId < 0 then ENEMY_UAV_ID_OFFSET else uav.freqId.toNat
  else uav.uavId

def uavRow (uavRole : String) (uav : Uav) : UavRow where
  uavId := storedUavId uavRole uav
  ip := uav.ip
  uavTypeId := uav.uavTypeId
  roleId := uav.roleId
  name := uav.name
  freqId := uav.freqId

def addUav (uav : Uav) : DbM Int := do
  if !(← isOpen) then return INVALID_INDEX
  if !(← prepare) then return INVALID_INDEX
  let uavRole := (← getUavRole uav.roleId).code
  return lastInsertId (← execWrite (.insertUav (uavRow uavRole uav)))

/-- The lookup begins a transaction, which nothing here ends. -/
def getUavByUavId (uavId : Nat) : DbM Uav := do
  if !(← isOpen) then return { id := INVALID_INDEX }
  let _ ← transaction
  if !(← prepare) then return { id := INVALID_INDEX }
  return firstUav (← execSelect fun s => s.uav.select fun row => row.uavId == uavId)

def getUav (id : Nat) : DbM Uav := do
  return firstUav (← selectRows fun s => (s.uav.get? id).toList.map fun row => (id, row))

def readUavs (rows : Option (List (Nat × UavRow))) : Bool × List Uav :=
  match rows with
  | some rows => (true, rows.map fun (id, row) => readUav id row)
  | none => (false, [])

def getUavsByRole (role : String) : DbM (Bool × List Uav) := do
  if !(← isOpen) then return (false, [])
  let roleId := (← getUavRoleByCode role).id
  if INVALID_INDEX = roleId then return (false, [])
  if !(← prepare) then return (false, [])
  return readUavs (← execSelect fun s => s.uav.select fun row => (row.roleId : Int) == roleId)

/-! ### UAV information -/

def infoRow (info : UavInfo) : InfoRow where
  uavID := info.uavId
  device := info.device
  source := info.source
  latitude := info.lat
  longitude := info.lon
  altitude := info.alt
  latitudeStdDev := info.latStddev
  longitudeStdDev := info.lonStddev
  speed := info.speed
  yaw := info.yaw
  restTime := info.restTime - info.restTime % 1000
  statusTypeId := info.statusId
  datetime := info.dateTime.dropMsecs

def addUavInfo (info : UavInfo) : DbM Int := insertRow (.insertInfo (infoRow info))

/-- The records are given as their rows. -/
def getUavInfoByUavId (uavId : Nat) : DbM (Bool × List (Nat × InfoRow)) := do
  match ← selectRows fun s => s.info.select fun row => row.uavID == uavId with
  | some rows => return (true, rows)
  | none => return (false, [])

/-! ### Devices and sources -/

def addDevice (device : Devices) : DbM Int :=
  insertRow (.insertDevice ⟨device.deviceId, device.port, device.uavId⟩)

def getDevicesByType (deviceTypeId : Nat) : DbM (Bool × List Devices) := do
  match ← selectRows fun s => s.devices.select fun row => row.deviceTypeId == deviceTypeId with
  | some rows => return (true, rows.map fun (id, row) =>
        { id := id, deviceId := uint row.deviceTypeId, port := uint row.port, uavId := uint row.uavId })
  | none => return (false, [])

def addSource (source : Source) : DbM Int :=
  insertRow (.insertSource ⟨source.sourceTypeId, source.sourceId⟩)

def getSourceId (sourceId sourceTypeId : Nat) : DbM Int := do
  return firstIndex (← selectRows fun s =>
    (s.sources.select fun row => row.sourceTypeId == sourceTypeId && row.sourceId ==
      sourceId).map Prod.fst)

def getSource (sourceId : Nat) : DbM Source := do
  match (← selectRows fun s => (s.sources.get? sourceId).toList).bind List.head? with
  | some row => return { id := uint sourceId, sourceTypeId := uint row.sourceTypeId, sourceId := uint row.sourceId }
  | none => return { id := -1 }

/-! ### Missions -/

def addUavMission (mission : UavMission) : DbM Int :=
  insertRow (.insertMission ⟨mission.uavId, mission.targetId, mission.regionCenterLat,
    mission.regionCenterLon,
    mission.regionCenterAltitude, mission.regionRadius,
      mission.timeToTarget - mission.timeToTarget % 1000⟩)

def readMission (id : Nat) (row : MissionRow) : UavMission :=
  ⟨id, uint row.uavID, uint row.targetID, row.regionCenterLatitude, row.regionCenterLongitude,
    row.regionCenterAltitude, row.regionRadius,
    row.timeToTarget⟩

def getUavMissionsByUavId (uavId : Nat) : DbM (Bool × List UavMission) := do
  match ← selectRows fun s => s.uavmission.select fun row => row.uavID == uavId with
  | some rows => return (true, rows.map fun (id, row) => readMission id row)
  | none => return (false, [])

def deleteUavMissionsByUavId (uavId : Nat) : DbM Bool := do
  if !(← isOpen) then return false
  if !(← getUavMissionsByUavId uavId).1 then return false
  if !(← prepare) then return false
  let succeeded ← execWrite (.deleteMissionsByUavId uavId)
  let _ ← DbM.commit
  return succeeded.isSome

def deleteUavMissionsByTargetId (targetId : Nat) : DbM Bool := do
  if !(← isOpen) then return false
  if !(← prepare) then return false
  let succeeded ← execWrite (.deleteMissionsByTargetId targetId)
  let _ ← DbM.commit
  return succeeded.isSome

/-! ### Targets -/

def addTarget (target : Target) : DbM Int := do
  if !(← isOpen) then return INVALID_INDEX
  let _ ← transaction
  if !(← prepare) then
    let _ ← DbM.commit
    return INVALID_INDEX
  let inserted ← execWrite (.insertTarget ⟨target.uavId, target.ip, target.port, target.type⟩)
  let _ ← DbM.commit
  return lastInsertId inserted

def readTarget (id : Nat) (row : TargetRow) : Target :=
  ⟨id, row.uavID, row.ip, row.port, row.targetTypeId⟩

def readTargets (rows : Option (List (Nat × TargetRow))) : Bool × List Target :=
  match rows with
  | some rows => (true, rows.map fun (id, row) => readTarget id row)
  | none => (false, [])

def getTargetsByType (targetTypeId : Nat) : DbM (Bool × List Target) := do
  return readTargets (← selectRows fun s => s.target.select fun row =>
    row.targetTypeId == targetTypeId)

def getTargetsByUavId (uavId : Nat) : DbM (Bool × List Target) := do
  if !(← isOpen) then return (false, [])
  let uav ← getUavByUavId uavId
  if uav.id = INVALID_INDEX then return (false, [])
  if !(← prepare) then return (false, [])
  return readTargets (← execSelect fun s => s.target.select fun row => row.uavID == uav.id)

/-- Without a mission row the key looked for is uninitialised in the code; zero names no row. -/
def getTargetsByMission (missionId : Nat) : DbM (Bool × List Target) := do
  match ← selectRows fun s => (s.uavmission.get? missionId).toList with
  | none => return (false, [])
  | some missions =>
    let targetID := (missions.head?.map fun row => row.targetID).getD 0
    if !(← prepare) then return (false, [])
    return readTargets (← execSelect fun s =>
      (s.target.get? targetID).toList.map fun row => (targetID, row))

def deleteTargetsByUavId (uavId : Nat) : DbM Bool := do
  if !(← isOpen) then return false
  let _ ← transaction
  let uav ← getUavByUavId uavId
  if uav.id = INVALID_INDEX then
    let _ ← DbM.commit
    return false
  if !(← prepare) then
    let _ ← DbM.commit
    return false
  let succeeded ← execWrite (.deleteTargetsByUavId uav.id)
  let _ ← DbM.commit
  return succeeded.isSome

def deleteTargetsById (id : Nat) : DbM Bool := do
  if !(← isOpen) then return false
  let _ ← transaction
  if !(← prepare) then
    let _ ← DbM.commit
    return false
  let succeeded ← execWrite (.deleteTargetById id)
  let _ ← DbM.commit
  return succeeded.isSome

/-! ### Transactions -/

def beginTransaction : DbM Bool := transaction

def commit : DbM Bool := DbM.commit

end DbUavController

end ArmOd
