import ArmOd.Base.Locks

/-!
# The mutexes of the UAV store

What every public operation of `DbUavController` and `DbUavManager`, and the slot of the life
timers, does to their mutexes: a `QMutexLocker` is a lock around the rest of the function, a call is
the code of the function called, a return before it and a branch on what the database answers are
choices. All of them keep one order: the two mutexes of the manager, the targets, the other tables,
and last the roles and the dictionaries.
-/

namespace ArmOd

namespace LockOrder

open Code

inductive Mutex where
  | m_mutex
  | m_deleteMutex
  | m_addGetUavMutex
  | m_addGetUavInfoMutex
  | m_addGetDeviceMutex
  | m_addGetUavMissionMutex
  | m_addGetTargetMutex
  | m_addGetTargetTypeMutex
  | m_addGetUavTypeMutex
  | m_addGetDeviceTypeMutex
  | m_addGetStatusMutex
  | m_addGetUavRoleMutex
  | m_addGetDictionaryMutex
  deriving DecidableEq, Repr

open Mutex

namespace DbUavController

def addDictionaryRecord : Code Mutex := guard m_addGetDictionaryMutex
def getDictionaryRecord : Code Mutex := guard m_addGetDictionaryMutex

def addUavRole : Code Mutex := guard m_addGetUavRoleMutex
def getUavRole : Code Mutex := guard m_addGetUavRoleMutex
def getUavRoleByName : Code Mutex := guard m_addGetUavRoleMutex
def getUavRoleByCode : Code Mutex := guard m_addGetUavRoleMutex

def addUav : Code Mutex := lock m_addGetUavMutex (opt getUavRole)
def getUavByUavId : Code Mutex := guard m_addGetUavMutex
def getUav : Code Mutex := guard m_addGetUavMutex
def getUavsByRole : Code Mutex := lock m_addGetUavMutex (opt getUavRoleByCode)
def getUavsCountByRole : Code Mutex := guard m_addGetUavMutex

def addUavInfo : Code Mutex := guard m_addGetUavInfoMutex
def getUavInfoByUavId : Code Mutex := guard m_addGetUavInfoMutex

def addDevice : Code Mutex := guard m_addGetDeviceMutex
def getDevicesByType : Code Mutex := guard m_addGetDeviceMutex
def addSource : Code Mutex := guard m_addGetDeviceMutex
def getSourceId : Code Mutex := guard m_addGetDeviceMutex
def getSourceByType : Code Mutex := guard m_addGetDeviceMutex
def getSource : Code Mutex := guard m_addGetDeviceMutex

def addUavMission : Code Mutex := guard m_addGetUavMissionMutex
def getUavMissionsByUavId : Code Mutex := guard m_addGetUavMissionMutex

def deleteUavMissionsByUavId : Code Mutex := lock m_addGetTargetMutex (opt getUavMissionsByUavId)
def deleteUavMissionsByTargetId : Code Mutex := guard m_addGetTargetMutex
def addTarget : Code Mutex := guard m_addGetTargetMutex
def getTargetsByType : Code Mutex := guard m_addGetTargetMutex
def getTargetsByUavId : Code Mutex := lock m_addGetTargetMutex (opt getUavByUavId)
def getTargetsByMission : Code Mutex := guard m_addGetTargetMutex
def deleteTargetsByUavId : Code Mutex := lock m_addGetTargetMutex (opt getUavByUavId)
def deleteTargetsById : Code Mutex := guard m_addGetTargetMutex

def addTargetType : Code Mutex := lock m_addGetTargetTypeMutex addDictionaryRecord
def getTargetTypeByName : Code Mutex := lock m_addGetTargetTypeMutex getDictionaryRecord
def addUavType : Code Mutex := lock m_addGetUavTypeMutex addDictionaryRecord
def getUavTypeByName : Code Mutex := lock m_addGetUavTypeMutex getDictionaryRecord
def addDeviceType : Code Mutex := lock m_addGetDeviceTypeMutex addDictionaryRecord
def getDeviceTypeByName : Code Mutex := lock m_addGetDeviceTypeMutex getDictionaryRecord
def addSourceType : Code Mutex := lock m_addGetDeviceTypeMutex addDictionaryRecord
def getSourceTypeByName : Code Mutex := lock m_addGetDeviceTypeMutex getDictionaryRecord
def addStatus : Code Mutex := lock m_addGetStatusMutex addDictionaryRecord
def getStatusByName : Code Mutex := lock m_addGetStatusMutex getDictionaryRecord

/-- `connectToDB`, `disconnectFromDb`, `getUavHistory`, `moveToThread`, `beginTransaction` and
`commit`. -/
def withoutMutex : Code Mutex := skip

def operations : List (Code Mutex) :=
  [withoutMutex,
    addUav, getUavByUavId, getUav, getUavsByRole, getUavsCountByRole,
    addUavInfo, getUavInfoByUavId,
    addDevice, getDevicesByType,
    addSource, getSourceId, getSourceByType, getSource,
    addUavMission, getUavMissionsByUavId, deleteUavMissionsByUavId, deleteUavMissionsByTargetId,
    addTarget, getTargetsByType, getTargetsByUavId, getTargetsByMission, deleteTargetsByUavId,
    deleteTargetsById,
    addTargetType, getTargetTypeByName,
    addUavType, getUavTypeByName,
    addDeviceType, getDeviceTypeByName,
    addSourceType, getSourceTypeByName,
    addStatus, getStatusByName,
    addUavRole, getUavRole, getUavRoleByName, getUavRoleByCode]

end DbUavController

namespace DbUavManager

open DbUavController

/-- The slot of the life timers; the listeners do not call back. -/
def timeoutSlot : Code Mutex := lock m_deleteMutex getUavRole

def deleteAllUav : Code Mutex := lock m_mutex (loop timeoutSlot)

def addUavInfo : Code Mutex :=
  lock m_deleteMutex (sequence [getUav,
    opt (sequence [DbUavController.addUavInfo, getUavRole, getSource])])

def getTargetsByUavIdAndTargetType : Code Mutex :=
  sequence [getUavMissionsByUavId, loop (sequence [getTargetsByMission, loop getTargetTypeByName])]

def addUavInfoToDb : Code Mutex :=
  lock m_mutex (sequence
    [getUavByUavId,
      opt (sequence [getUavTypeByName, opt addUavType, getUavRoleByCode, opt addUavRole, addUav]),
      getStatusByName, opt addStatus,
      getDeviceTypeByName, opt addDeviceType, getDevicesByType, opt addDevice,
      getSourceTypeByName, opt addSourceType, getSourceId, opt addSource,
      addUavInfo])

def sendEnemyUavPoints : Code Mutex := loop addUavInfoToDb

def onMethodCalled : Code Mutex := choice (opt addUavInfoToDb) (opt sendEnemyUavPoints)

/-- The operations beside those that are passed on to the controller; `getKnownUavList`,
`setDbController`, `setLifeTime` and `getUavHistory` take no mutex. -/
def operations : List (Code Mutex) :=
  [withoutMutex, addUavInfo, getTargetsByUavIdAndTargetType, deleteAllUav, onMethodCalled,
    timeoutSlot]

end DbUavManager

def operations : List (Code Mutex) := DbUavController.operations ++ DbUavManager.operations

def rank : Mutex → Nat
  | m_mutex => 0
  | m_deleteMutex => 1
  | m_addGetTargetMutex => 2
  | m_addGetUavMutex | m_addGetUavInfoMutex | m_addGetDeviceMutex | m_addGetUavMissionMutex => 3
  | m_addGetTargetTypeMutex | m_addGetUavTypeMutex => 3
  | m_addGetDeviceTypeMutex | m_addGetStatusMutex => 3
  | m_addGetUavRoleMutex | m_addGetDictionaryMutex => 4

theorem operations_rising : ∀ c ∈ operations, c.Rising rank 0 := by decide

/-- **Deadlock freedom of the store**, for any threads that run any operations one after the other,
in any interleaving. -/
theorem deadlock_free {ι : Type} [DecidableEq ι] {program : ι → List (LockStep Mutex)}
    {calls : ι → List (Code Mutex)}
    (hcalls : ∀ i, ∀ c ∈ calls i, c ∈ operations)
    (hprogram : ∀ i, Runs (sequence (calls i)) (program i)) (schedule : List ι) :
    ¬ (schedule.foldl Threads.step (Threads.start program)).Deadlock :=
  Threads.not_deadlock_of_rising hprogram
    (fun i c hc => operations_rising c (hcalls i c hc)) schedule

def timeoutDuringDeleteCalls : Bool → List (Code Mutex)
  | true => [DbUavManager.deleteAllUav]
  | false => [DbUavManager.timeoutSlot]

/-- A life timer runs out while all UAVs are deleted, of which there is one. -/
def timeoutDuringDelete : Bool → List (LockStep Mutex)
  | true => [.acquire m_mutex, .acquire m_deleteMutex, .acquire m_addGetUavRoleMutex,
        .release m_addGetUavRoleMutex, .release m_deleteMutex, .release m_mutex]
  | false => [.acquire m_deleteMutex, .acquire m_addGetUavRoleMutex, .release m_addGetUavRoleMutex,
        .release m_deleteMutex]

theorem runs_timeoutSlot :
    Runs DbUavManager.timeoutSlot [.acquire m_deleteMutex, .acquire m_addGetUavRoleMutex,
      .release m_addGetUavRoleMutex, .release m_deleteMutex] :=
  .lock (.lock .skip)

theorem deadlock_free_timeoutDuringDelete :
    ¬ ([true, false, true, false, true].foldl Threads.step
      (Threads.start timeoutDuringDelete)).Deadlock := by
  have hcalls : ∀ i, ∀ c ∈ timeoutDuringDeleteCalls i, c ∈ operations := by decide
  have hprogram : ∀ i, Runs (sequence (timeoutDuringDeleteCalls i)) (timeoutDuringDelete i) := by
    intro i
    cases i with
    | true => exact .seq (.lock (.again runs_timeoutSlot .done)) .skip
    | false => exact .seq runs_timeoutSlot .skip
  exact deadlock_free hcalls hprogram _

end LockOrder

end ArmOd
