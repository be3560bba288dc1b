import ArmOd.Base.Program
import ArmOd.Base.Table
import ArmOd.Base.Transactions
import ArmOd.DbBla.Defines

/-!
# The UAV database and a connection to it

The schema of `sql/arm_od_uav_tables.sql` (with its updates) as a record of tables, the statements
the program executes as a type, and `m_db` as a session: the tables as the connection sees them, the
outcomes the server has in store for the coming statements, and the history of the connection. A
statement fails when the server says so, when it breaks a foreign key, or when the key column is
exhausted; `faults` ranges over every pattern of failures. `BEGIN` and `COMMIT` succeed on an open
connection, as in the Qt MySQL driver while the server is reachable.

Text columns are compared as written: the program spells each name in one way.
-/

namespace ArmOd

/-- The tables that hold nothing but names. -/
inductive Dictionary where
  | targettypes
  | uavtypes
  | devicetypes
  | sourcetypes
  | statustypes
  deriving DecidableEq, Repr

structure UavRow where
  uavId : Nat
  ip : String
  uavTypeId : Nat
  roleId : Nat
  name : String
  freqId : Int
  deriving DecidableEq, Repr

structure RoleRow where
  code : String
  name : String
  deriving DecidableEq, Repr

structure DeviceRow where
  deviceTypeId : Nat
  port : Nat
  uavId : Nat
  deriving DecidableEq, Repr

structure SourceRow where
  sourceTypeId : Nat
  sourceId : Nat
  deriving DecidableEq, Repr

/-- A row of `info`; `datetime` is in whole seconds. -/
structure InfoRow where
  uavID : Nat
  device : Nat
  source : Nat
  latitude : Double
  longitude : Double
  altitude : Double
  latitudeStdDev : Double
  longitudeStdDev : Double
  speed : Double
  yaw : Double
  restTime : QTime
  statusTypeId : Nat
  datetime : QDateTime
  deriving DecidableEq, Repr

structure TargetRow where
  uavID : Int
  ip : String
  port : Nat
  targetTypeId : Int
  deriving DecidableEq, Repr

structure MissionRow where
  uavID : Nat
  targetID : Nat
  regionCenterLatitude : Double
  regionCenterLongitude : Double
  regionCenterAltitude : Double
  regionRadius : Double
  timeToTarget : QTime
  deriving DecidableEq, Repr

/-- A table whose key column is an `INT`. -/
abbrev SqlTable (α : Type) := Table (2 ^ 31) α

structure Store where
  uav : SqlTable UavRow
  uavroles : SqlTable RoleRow
  dictionary : Dictionary → SqlTable String
  devices : SqlTable DeviceRow
  sources : SqlTable SourceRow
  info : SqlTable InfoRow
  target : SqlTable TargetRow
  uavmission : SqlTable MissionRow

namespace Store

def empty : Store where
  uav := Table.empty (by decide)
  uavroles := Table.empty (by decide)
  dictionary := fun _ => Table.empty (by decide)
  devices := Table.empty (by decide)
  sources := Table.empty (by decide)
  info := Table.empty (by decide)
  target := Table.empty (by decide)
  uavmission := Table.empty (by decide)

end Store

/-- The statements that change a table. -/
inductive Write where
  | insertUav (row : UavRow)
  | insertRole (row : RoleRow)
  | insertDictionary (dictionary : Dictionary) (name : String)
  | insertDevice (row : DeviceRow)
  | insertSource (row : SourceRow)
  | insertInfo (row : InfoRow)
  | insertTarget (row : TargetRow)
  | insertMission (row : MissionRow)
  | deleteMissionsByUavId (uavId : Nat)
  | deleteMissionsByTargetId (targetId : Nat)
  | deleteTargetsByUavId (uavId : Int)
  | deleteTargetById (id : Nat)
  deriving DecidableEq, Repr

namespace Store

/-- A foreign key names a row. -/
def references {α : Type} (t : SqlTable α) (id : Nat) : Bool := (t.get? id).isSome

/-- The foreign keys of `info`. -/
def infoReferences (s : Store) (row : InfoRow) : Bool :=
  references s.uav row.uavID && references s.devices row.device && references s.sources row.source
    && references (s.dictionary .statustypes) row.statusTypeId

/-- The unique index `uavID_device_source_datetime`. -/
def sameInfo (row row' : InfoRow) : Bool :=
  row.uavID == row'.uavID && row.device == row'.device && row.source == row'.source && row.datetime
    == row'.datetime

/-- `ON DUPLICATE KEY UPDATE` takes everything but the key and the generated id from the new row. -/
def insertInfo (s : Store) (row : InfoRow) : Option (Nat × Store) :=
  match s.info.firstId (sameInfo row) with
  | some id => some (id, { s with info := s.info.modify (sameInfo row) fun _ => row })
  | none => (s.info.insert row).map fun (id, info) => (id, { s with info })

/-- What a statement does to the tables, with the generated key; nothing where the server refuses
it. -/
def apply (s : Store) : Write → Option (Nat × Store)
  | .insertUav row =>
      if references (s.dictionary .uavtypes) row.uavTypeId && references s.uavroles row.roleId then
        (s.uav.insert row).map fun (id, uav) => (id, { s with uav })
      else none
  | .insertRole row => (s.uavroles.insert row).map fun (id, uavroles) => (id, { s with uavroles })
  | .insertDictionary dictionary name =>
      ((s.dictionary dictionary).insert name).map fun (id, t) =>
        (id, { s with dictionary := Function.update s.dictionary dictionary t })
  | .insertDevice row =>
      if references (s.dictionary .devicetypes) row.deviceTypeId then
        (s.devices.insert row).map fun (id, devices) => (id, { s with devices })
      else none
  | .insertSource row =>
      if references (s.dictionary .sourcetypes) row.sourceTypeId then
        (s.sources.insert row).map fun (id, sources) => (id, { s with sources })
      else none
  | .insertInfo row => if s.infoReferences row then s.insertInfo row else none
  | .insertTarget row =>
      if references s.uav row.uavID.toNat && references (s.dictionary .targettypes)
        row.targetTypeId.toNat then
        (s.target.insert row).map fun (id, target) => (id, { s with target })
      else none
  | .insertMission row =>
      if references s.uav row.uavID && references s.target row.targetID then
        (s.uavmission.insert row).map fun (id, uavmission) => (id, { s with uavmission })
      else none
  | .deleteMissionsByUavId uavId =>
      some (0, { s with uavmission := s.uavmission.delete fun row => row.uavID == uavId })
  | .deleteMissionsByTargetId targetId =>
      some (0, { s with uavmission := s.uavmission.delete fun row => row.targetID == targetId })
  | .deleteTargetsByUavId uavId =>
      -- a target that a mission points to cannot be deleted
      if s.target.rows.any fun (id, row) =>
        row.uavID == uavId && s.uavmission.rows.any fun (_, mission) =>
        mission.targetID == id then none
      else some (0, { s with target := s.target.delete fun row => row.uavID == uavId })
  | .deleteTargetById id =>
      if s.uavmission.rows.any fun (_, mission) => mission.targetID == id then none
      else some (0, { s with target := s.target.deleteId id })

end Store

/-- One event of a connection's history. -/
inductive DbEvent where
  | begin
  | commit
  | prepare (ok : Bool)
  | select (ok : Bool)
  | write (w : Write) (ok : Bool)
  deriving DecidableEq, Repr

namespace DbEvent

/-- The statement succeeded. -/
def ok : DbEvent → Bool
  | .begin => true
  | .commit => true
  | .prepare ok => ok
  | .select ok => ok
  | .write _ ok => ok

/-- The event as the transaction sees it. -/
def tx? : DbEvent → Option (TxEvent Write)
  | .begin => some .begin
  | .commit => some .commit
  | .write w true => some (.write w)
  | _ => none

end DbEvent

/-- `m_db`: the tables as the connection sees them, the outcomes of the coming statements (a
statement after the last one listed is not disturbed), and the history. -/
structure Session where
  isOpen : Bool
  store : Store
  faults : List Bool
  log : List DbEvent

namespace Session

/-- A fresh connection. -/
def connect (store : Store) (faults : List Bool) : Session := ⟨true, store, faults, []⟩

/-- Every statement so far succeeded. -/
def Clean (s : Session) : Prop := ∀ e ∈ s.log, e.ok = true

instance (s : Session) : Decidable s.Clean := inferInstanceAs (Decidable (∀ e ∈ s.log, e.ok = true))

/-- The transaction, as the history left it. -/
def tx (s : Session) : TxState Write := TxState.initial.replay (s.log.filterMap DbEvent.tx?)

end Session

/-- A computation on a connection. -/
abbrev DbM := StateM Session

namespace DbM

def isOpen : DbM Bool := fun s => (s.isOpen, s)

/-- What is sent to the server; a closed connection refuses it. -/
def onServer {α : Type} (refused : α) (f : DbM α) : DbM α :=
  fun s => if s.isOpen then f s else (refused, s)

/-- `QSqlDatabase::transaction()`. -/
def transaction : DbM Bool := onServer false fun s => (true, { s with log := s.log ++ [.begin] })

/-- `QSqlDatabase::commit()`. -/
def commit : DbM Bool := onServer false fun s => (true, { s with log := s.log ++ [.commit] })

/-- `QSqlQuery::prepare()`. -/
def prepare : DbM Bool := onServer false fun s =>
  let ok := !s.faults.headD false
  (ok, { s with faults := s.faults.tail, log := s.log ++ [.prepare ok] })

/-- `QSqlQuery::exec()` of a `SELECT`: the rows, or nothing on an error. -/
def execSelect {α : Type} (read : Store → List α) : DbM (Option (List α)) := onServer none fun s =>
  let ok := !s.faults.headD false
  (if ok then some (read s.store) else none,
    { s with faults := s.faults.tail, log := s.log ++ [.select ok] })

/-- `QSqlQuery::exec()` of a statement that writes: the generated key, or nothing on an error. -/
def execWrite (w : Write) : DbM (Option Nat) := onServer none fun s =>
  match s.faults.headD false, s.store.apply w with
  | false, some (id, store) =>
      (some id, { s with store, faults := s.faults.tail, log := s.log ++ [.write w true] })
  | _, _ => (none, { s with faults := s.faults.tail, log := s.log ++ [.write w false] })

end DbM

end ArmOd
