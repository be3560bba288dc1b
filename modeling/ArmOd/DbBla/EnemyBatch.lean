import ArmOd.DbBla.Separation

/-!
# What a batch of enemy positions tells the listeners

Of a batch of the manual or the automatic solver only the last position is told, with the track that
all of them make; of a batch of the single solver every position is, without a track, and in turns
for its two sources. `Hears w w' ns` says that between two states every listener was sent the
changes `ns`, in their order, and no other ones.
-/

namespace ArmOd

namespace DbUavManager

open DbUavController

/-- The notification of a change. -/
def isChange : UavNotification → Bool
  | .onUavInfoChanged _ _ _ _ => true
  | _ => false

/-- Between the two states every listener was sent these changes and no others. -/
def Hears (w w' : World) (ns : List UavNotification) : Prop :=
  w'.manager.m_receiversList = w.manager.m_receiversList ∧
    ∃ new, w'.sent = w.sent ++ new ∧ new.filter (fun m => isChange m.2) =
      ns.flatMap (broadcast w.manager.m_receiversList)

/-- The change is that of the position, told for a source and with a track. The keys of its device
and its status, and the role of its UAV, are those of the database. -/
def Tells (now : QDateTime) (uav : UAVPositionDataEnemy) (source : Nat)
    (tail tailStdDev : List QPointF) (n : UavNotification) : Prop :=
  ∃ (device status : Nat) (uavRole : String), n = .onUavInfoChanged
    { uavInfoOf (positionOfEnemy now uav) 0 status device 0 with
      uavId := enemyBoardID uav.frequency
      source := source } uavRole tail tailStdDev

/-- The database has the UAV of every position. -/
def HasUavs (w : World) (uavs : List UAVPositionDataEnemy) : Prop :=
  ∀ uav ∈ uavs, ∃ id, (w.m_dbController.store.uav.firstId fun row =>
    row.uavId == enemyBoardID uav.frequency) = some id

namespace Hears

variable {w w' w'' : World} {ns ns' : List UavNotification}

theorem refl (w : World) : Hears w w [] := ⟨rfl, [], (List.append_nil _).symm, rfl⟩

theorem trans (h : Hears w w' ns) (h' : Hears w' w'' ns') : Hears w w'' (ns ++ ns') := by
  obtain ⟨hreceivers, new, hsent, hnew⟩ := h
  obtain ⟨hreceivers', new', hsent', hnew'⟩ := h'
  refine ⟨hreceivers'.trans hreceivers, new ++ new', ?_, ?_⟩
  · rw [hsent', hsent, List.append_assoc]
  · rw [List.filter_append, hnew, hnew', hreceivers, List.flatMap_append]

end Hears

/-! ### One position -/

section Position

variable {w w' : World} {uav : Uav} {uavRole : String} {uavInfo : UavInfo} {r : Recorded}
  {tail tailStdDev : List QPointF}

end Position

end DbUavManager

namespace StoreM

open DbUavController DbUavManager

variable {c c' : DbContents} {uavInfo : UavInfo} {recorded : Recorded}

end StoreM

namespace DbUavManager

section Position

variable {positionData : UAVPositionData} {role uavType status deviceType sourceType : String}
  {actual : Bool} {tail tailStdDev : List QPointF} {w w' : World}

end Position

/-! ### The loop -/

section Enemy

variable {now : QDateTime} {uav : UAVPositionDataEnemy} {uavs : List UAVPositionDataEnemy}
  {sourceType source i : Nat} {role uavType status deviceType sourceTypeName : String}
  {tail tailStdDev : List QPointF} {w w' : World}

theorem HasUavs.rest {actual : Bool} (hhas : HasUavs w (uav :: uavs))
    (hw' : ((addEnemyUavInfoToDb now { uav with sourceType := source } role uavType status
      deviceType sourceTypeName actual tail tailStdDev).run w).2 = w')
    (hhealthy : w'.m_dbController.Healthy) : HasUavs w' uavs := by
  intro other hother
  obtain ⟨id, hfirst⟩ := hhas other (List.mem_cons_of_mem _ hother)
  exact ⟨id, (position_adds hw' hhealthy).grows.uav.firstId hfirst⟩

end Enemy

/-! ### The batch -/

section Batch

variable {now : QDateTime} {uavList : List UAVPositionDataEnemy} {sourceType : Nat} {w : World}

end Batch

/-- A database with the names, the role, the device, the sources of the single solver and the enemy
of frequency 433. -/
def knownEnemy : World where
  m_dbController := .connect
    ([Write.insertDictionary .uavtypes "UnknownUavType", .insertRole ⟨ENEMY_UAV_ROLE, ENEMY_UAV_ROLE⟩,
      .insertUav { uavId := 433, ip := "127.0.0.1", uavTypeId := 1, roleId := 1, name := "", freqId := 433 },
      .insertDictionary .statustypes "UnknownStatus",
      .insertDictionary .devicetypes "UnknownDeviceType", .insertDevice ⟨1, 0, 433⟩,
      .insertDictionary .sourcetypes "Solver Single 1",
      .insertSource ⟨1, UAV_SOLVER_SINGLE_1_SOURCE⟩,
      .insertDictionary .sourcetypes "Solver Single 2",
      .insertSource ⟨2, UAV_SOLVER_SINGLE_2_SOURCE⟩].foldl
      (fun s w => ((s.apply w).map Prod.snd).getD s) .empty) []
  manager := { m_receiversList := [0, 1] }
  sent := []

end DbUavManager

end ArmOd
