import ArmOd.DbBla.GetOrCreate
import ArmOd.DbBla.Statements

/-!
# Storing a record, and telling about it

`addUavInfo` does two things that do not depend on each other beyond four values: it stores the
record, reading the UAV, its role and its source, and it tells the listeners. Here the two are taken
apart, so that what concerns the database is proved about `recordOf` and what concerns the listeners
about `announce`.
-/

namespace ArmOd

namespace DbUavManager

open DbUavController

/-- What storing a record gives the listeners: the UAV, the key of the record, the role code and the
source. -/
structure Recorded where
  uav : Uav
  recordIndex : Int
  uavRole : String
  source : Nat

def storeRecord (uavInfo : UavInfo) (uav : Uav) : DbM Recorded := do
  let recordIndex ← DbUavController.addUavInfo uavInfo
  let uavRole ← getUavRole uav.roleId
  let source ← getSource uavInfo.source
  return ⟨uav, recordIndex, uavRole.code, source.sourceId⟩

def recordOf (uavInfo : UavInfo) (actual : Bool) : DbM (Option Recorded) := do
  let uav ← getUav uavInfo.uavId
  if uav.id < 0 then return none
  if !actual then return none
  return some (← storeRecord uavInfo (named uav))

/-- What a position message does to the database. -/
def recordPosition (positionData : UAVPositionData)
    (role uavType status deviceType sourceType : String) (actual : Bool) : DbM
    (Option Recorded) := do
  let uavInfo ← uavInfoFor positionData role uavType status deviceType sourceType
  recordOf uavInfo actual

def announce (uavInfo : UavInfo) (r : Recorded) (tail tailStdDev : List QPointF) :
    ManagerM PUnit := do
  trackUav r.uav r.uavRole
  if r.recordIndex ≠ INVALID_INDEX then
    notify (.onUavInfoChanged { uavInfo with uavId := r.uav.uavId, source := r.source } r.uavRole
      tail tailStdDev)

/-! ### Running the manager -/

@[simp] theorem run_db {α : Type} (f : DbM α) (w : World) :
    (db f).run w = ((f.run w.m_dbController).1,
      { w with m_dbController := (f.run w.m_dbController).2 }) := rfl

@[simp] theorem run_update (f : DbUavManager → DbUavManager) (w : World) : (update f).run w =
  (⟨⟩, { w with manager := f w.manager }) := rfl

@[simp] theorem run_notify (n : UavNotification) (w : World) :
    (notify n).run w = (⟨⟩, { w with sent := w.sent ++ w.manager.m_receiversList.map fun receiver =>
      (receiver, n) }) := rfl

theorem run_trackUav_session (uav : Uav) (uavRole : String) (w : World) (s : Session) :
    (trackUav uav uavRole).run { w with m_dbController := s } =
      (⟨⟩, { ((trackUav uav uavRole).run w).2 with m_dbController := s }) := by
  cases hnew : w.manager.isNew uav.uavId <;>
    simp only [trackUav, run_bind, run_get, run_update, run_notify, hnew, if_true,
      Bool.false_eq_true, if_false]

theorem announce_session (uavInfo : UavInfo) (r : Recorded) (tail tailStdDev : List QPointF)
    (w : World) :
    ((announce uavInfo r tail tailStdDev).run w).2.m_dbController = w.m_dbController := by
  rw [announce, run_bind, run_ite, show w = { w with m_dbController := w.m_dbController } from rfl,
    run_trackUav_session]
  split <;> rfl

theorem addUavInfo_run (uavInfo : UavInfo) (actual : Bool) (tail tailStdDev : List QPointF)
    (w : World) :
    ((addUavInfo uavInfo actual tail tailStdDev).run w).2 =
      match (recordOf uavInfo actual).run w.m_dbController with
      | (none, s) => { w with m_dbController := s }
      | (some r, s) =>
          ((announce uavInfo r tail tailStdDev).run { w with m_dbController := s }).2 := by
  by_cases hid : ((getUav uavInfo.uavId).run w.m_dbController).1.id < 0
  · simp only [addUavInfo, recordOf, run_bind, run_db, run_pure, hid, if_true]
  · cases actual with
    | false => simp only [addUavInfo, recordOf, run_bind, run_db, run_pure, hid, if_false,
          Bool.not_false, if_true]
    | true =>
      by_cases hindex : ((DbUavController.addUavInfo uavInfo).run
        ((getUav uavInfo.uavId).run w.m_dbController).2).1 = INVALID_INDEX
      · simp only [addUavInfo, recordOf, storeRecord, announce, run_bind, run_db, run_pure,
          run_trackUav_session, hid, hindex, if_false, ne_eq, not_true,
          Bool.not_true, Bool.false_eq_true]
      · simp only [addUavInfo, recordOf, storeRecord, announce, run_bind, run_db, run_pure,
          run_trackUav_session, hid, hindex, if_false, if_true, ne_eq,
          not_false_eq_true, Bool.not_true, Bool.false_eq_true]

/-- A position message: the rows it needs, the record, and what the listeners hear of it. -/
theorem addUavInfoToDb_run (positionData : UAVPositionData)
    (role uavType status deviceType sourceType : String) (actual : Bool)
    (tail tailStdDev : List QPointF) (w : World) :
    ((addUavInfoToDb positionData role uavType status deviceType sourceType actual tail
      tailStdDev).run w).2 =
      let built := (uavInfoFor positionData role uavType status deviceType sourceType).run
        w.m_dbController
      match (recordOf built.1 actual).run built.2 with
      | (none, s) => { w with m_dbController := s }
      | (some r, s) =>
          ((announce built.1 r tail tailStdDev).run { w with m_dbController := s }).2 := by
  rw [addUavInfoToDb, run_bind, run_db, run_bind, run_pure, addUavInfo_run]

theorem addUavInfoToDb_session (positionData : UAVPositionData)
    (role uavType status deviceType sourceType : String) (actual : Bool)
    (tail tailStdDev : List QPointF) (w : World) :
    ((addUavInfoToDb positionData role uavType status deviceType sourceType actual tail
      tailStdDev).run w).2.m_dbController =
      ((recordPosition positionData role uavType status deviceType sourceType actual).run
        w.m_dbController).2 := by
  rw [addUavInfoToDb_run, recordPosition, run_bind]
  rcases hrecord : (recordOf ((uavInfoFor positionData role uavType status deviceType
    sourceType).run w.m_dbController).1 actual).run
    ((uavInfoFor positionData role uavType status deviceType sourceType).run
      w.m_dbController).2 with ⟨_ | r, s⟩
  · simp only [hrecord]
  · simp only [hrecord]
    exact announce_session ..

theorem sendEnemyUavPoints_eq (now : QDateTime) (uavList : List UAVPositionDataEnemy)
    (sourceType : Nat) (w : World) :
    ((sendEnemyUavPoints now uavList sourceType).run w).2 =
      let positions := ((enemyPoints now sourceType 0 [] [] uavList).run
        { w with m_dbController := (beginTransaction.run w.m_dbController).2 }).2
      { positions with m_dbController := (DbUavController.commit.run positions.m_dbController).2 } := by
  rw [sendEnemyUavPoints, run_bind, run_bind, run_db, run_bind, run_db, run_pure]

theorem executes_storeRecord {tx : Prop} {W : Write → Prop} (info : UavInfo) (uav : Uav)
    (hw : W (.insertInfo (infoRow info))) :
    Executes tx W (storeRecord info uav) :=
  (executes_insertRow hw).bind fun _ => (executes_getUavRole _).bind fun _ =>
    (executes_getSource _).bind fun _ => Moves.pure _

theorem executes_recordOf {tx : Prop} {W : Write → Prop} (info : UavInfo) (actual : Bool)
    (hw : W (.insertInfo (infoRow info))) :
    Executes tx W (recordOf info actual) :=
  (executes_getUav _).bind fun _ => Moves.ite (fun _ => Moves.pure _) fun _ =>
    Moves.ite (fun _ => Moves.pure _) fun _ =>
    (executes_storeRecord info _ hw).bind fun _ => Moves.pure _

end DbUavManager

/-! ### What storing a record does to the tables -/

namespace StoreM

open DbUavController DbUavManager

def storeRecord (uavInfo : UavInfo) (uav : Uav) : StoreM Recorded := do
  let recordIndex ← exec (.insertInfo (infoRow uavInfo))
  let uavRole ← read fun s => s.uavRole uav.roleId
  let source ← read fun s => s.sourceOf uavInfo.source
  return ⟨uav, recordIndex, uavRole.code, source.sourceId⟩

def recordOf (uavInfo : UavInfo) (actual : Bool) : StoreM (Option Recorded) := do
  let uav ← read fun s => s.uavOf uavInfo.uavId
  if uav.id < 0 then return none
  if !actual then return none
  return some (← storeRecord uavInfo (named uav))

def recordPosition (positionData : UAVPositionData)
    (role uavType status deviceType sourceType : String) (actual : Bool) : StoreM
    (Option Recorded) := do
  let uavInfo ← uavInfo positionData role uavType status deviceType sourceType
  recordOf uavInfo actual

end StoreM

namespace DbUavManager

open DbUavController

theorem refines_storeRecord (uavInfo : UavInfo) (uav : Uav) : Refines (storeRecord uavInfo uav)
    (StoreM.storeRecord uavInfo uav) := by
  have h := (refines_insertRow (.insertInfo (infoRow uavInfo))).bind fun recordIndex =>
    (refines_getUavRole uav.roleId).bind fun uavRole =>
    (refines_getSource uavInfo.source).bind fun source => Simulates.pure
    (⟨uav, recordIndex, uavRole.code, source.sourceId⟩ : Recorded)
  refine h.of_abs_eq ?_
  simp only [StoreM.storeRecord, bind_map_left]

theorem refines_recordOf (uavInfo : UavInfo) (actual : Bool) : Refines (recordOf uavInfo actual)
    (StoreM.recordOf uavInfo actual) :=
  (refines_getUav uavInfo.uavId).bind fun _ => Simulates.ite (fun _ => Simulates.pure none) fun _ =>
    Simulates.ite (fun _ => Simulates.pure none) fun _ =>
      (refines_storeRecord uavInfo _).bind fun r => Simulates.pure (some r)

theorem refines_recordPosition (positionData : UAVPositionData)
    (role uavType status deviceType sourceType : String) (actual : Bool) :
    Refines (recordPosition positionData role uavType status deviceType sourceType actual)
      (StoreM.recordPosition positionData role uavType status deviceType sourceType actual) :=
  (refines_uavInfoFor _ _ _ _ _ _).bind fun info => refines_recordOf info actual

end DbUavManager

namespace StoreM

open DbUavManager DbUavController

variable {c c' : DbContents} {uavInfo : UavInfo} {r : Option Recorded}

theorem storeRecord_eq_some {uav : Uav} {recorded : Recorded}
    (hrun : (storeRecord uavInfo uav).run c = some (recorded, c')) :
    ∃ recordIndex : Nat,
      (exec (.insertInfo (infoRow uavInfo))).run c = some (recordIndex, c') ∧
      recorded = ⟨uav, recordIndex, (c'.store.uavRole uav.roleId).code,
        (c'.store.sourceOf uavInfo.source).sourceId⟩ := by
  obtain ⟨recordIndex, after, hexec, hrest⟩ := run_bind_eq_some.mp hrun
  obtain ⟨uavRole, afterRole, hreadRole, hrest⟩ := run_bind_eq_some.mp hrest
  obtain ⟨rfl, rfl⟩ := run_read_eq_some.mp hreadRole
  obtain ⟨source, afterSource, hreadSource, hrest⟩ := run_bind_eq_some.mp hrest
  obtain ⟨rfl, rfl⟩ := run_read_eq_some.mp hreadSource
  obtain ⟨rfl, rfl⟩ := run_pure_eq_some.mp hrest
  exact ⟨recordIndex, hexec, rfl⟩

theorem recordOf_cases {actual : Bool} (hrun : (recordOf uavInfo actual).run c = some (r, c')) :
    (r = none ∧ c' = c ∧ ((c.store.uavOf uavInfo.uavId).id < 0 ∨ actual = false)) ∨
    (actual = true ∧ ∃ recorded, r = some recorded ∧
      (storeRecord uavInfo (named (c.store.uavOf uavInfo.uavId))).run c =
        some (recorded, c')) := by
  obtain ⟨uav, mid, hread, hrest⟩ := run_bind_eq_some.mp hrun
  obtain ⟨rfl, rfl⟩ := run_read_eq_some.mp hread
  by_cases hid : (mid.store.uavOf uavInfo.uavId).id < 0
  · rw [if_pos hid] at hrest
    obtain ⟨hnone, hsame⟩ := run_pure_eq_some.mp hrest
    exact Or.inl ⟨hnone, hsame, Or.inl hid⟩
  · rw [if_neg hid] at hrest
    cases actual with
    | false =>
        rw [if_pos (by decide)] at hrest
        obtain ⟨hnone, hsame⟩ := run_pure_eq_some.mp hrest
        exact Or.inl ⟨hnone, hsame, Or.inr rfl⟩
    | true =>
        rw [if_neg (by decide)] at hrest
        obtain ⟨recorded, after, hstore, hrest⟩ := run_bind_eq_some.mp hrest
        obtain ⟨rfl, rfl⟩ := run_pure_eq_some.mp hrest
        exact Or.inr ⟨rfl, recorded, rfl, hstore⟩

theorem recordOf_false (hrun : (recordOf uavInfo false).run c = some (r, c')) : r = none ∧
    c' = c := by
  rcases recordOf_cases hrun with ⟨hnone, hsame, -⟩ | ⟨hactual, -⟩
  · exact ⟨hnone, hsame⟩
  · cases hactual

theorem storeRecord_cases {uav : Uav} {recorded : Recorded}
    (hrun : (storeRecord uavInfo uav).run c = some (recorded, c')) :
    c.Adds (· = .insertInfo (infoRow uavInfo)) c' ∧
      c'.written = c.written ++ [.insertInfo (infoRow uavInfo)] ∧
      recorded.uav = uav ∧ recorded.uavRole = (c'.store.uavRole uav.roleId).code ∧
        recorded.recordIndex ≠ INVALID_INDEX := by
  obtain ⟨recordIndex, hexec, rfl⟩ := storeRecord_eq_some hrun
  exact ⟨.of_exec hexec rfl, (run_exec_eq_some.mp hexec).2, rfl, rfl,
    ne_of_gt (lt_of_lt_of_le (by decide) (Int.natCast_nonneg recordIndex))⟩

theorem recordOf_adds {actual : Bool} (hrun : (recordOf uavInfo actual).run c = some (r, c')) :
    c.Adds (· = .insertInfo (infoRow uavInfo)) c' := by
  rcases recordOf_cases hrun with ⟨-, rfl, -⟩ | ⟨-, recorded, -, hstore⟩
  · exact .refl c'
  · exact (storeRecord_cases hstore).1

/-- **A record that names a UAV is written**, and the listeners get that UAV with its role. -/
theorem recordOf_true {row : UavRow} (hrow : c.store.uav.get? uavInfo.uavId = some row)
    (hrun : (recordOf uavInfo true).run c = some (r, c')) :
    c'.written = c.written ++ [.insertInfo (infoRow uavInfo)] ∧
      ∃ recorded, r = some recorded ∧ recorded.uav.id = uavInfo.uavId ∧
      recorded.uav.uavId = uint row.uavId ∧
        (∀ role, c'.store.roleOf uavInfo.uavId = some role → recorded.uavRole = role) ∧
        recorded.recordIndex ≠ INVALID_INDEX := by
  have huav : c.store.uavOf uavInfo.uavId = readUav uavInfo.uavId row := by rw [Store.uavOf, hrow]
  have hid : ¬(readUav uavInfo.uavId row).id < 0 := Int.not_lt.mpr (Int.natCast_nonneg _)
  obtain ⟨-, recorded, rfl, hstore⟩ := (recordOf_cases hrun).resolve_left fun hnone => by
    have hnot := hnone.2.2
    rw [huav] at hnot
    exact hnot.elim hid Bool.noConfusion
  rw [huav] at hstore
  obtain ⟨hadds, hwritten, huavEq, hroleEq, hindex⟩ := storeRecord_cases hstore
  have hnamed : (named (readUav uavInfo.uavId row)).id = uavInfo.uavId ∧
    (named (readUav uavInfo.uavId row)).uavId = uint row.uavId ∧
      (named (readUav uavInfo.uavId row)).roleId = uint row.roleId := by
    rw [named]
    split <;> exact ⟨rfl, rfl, rfl⟩
  refine ⟨hwritten, recorded, rfl, ?_, ?_, fun role hrole => ?_, hindex⟩
  · rw [huavEq, hnamed.1]
  · rw [huavEq, hnamed.2.1]
  · rw [Store.roleOf, hadds.grows.uav.get? hrow, Option.bind_some] at hrole
    obtain ⟨roleRow, hget, rfl⟩ := Option.map_eq_some_iff.mp hrole
    rw [hroleEq, hnamed.2.2, uint_of_get? hget, Store.uavRole, hget]

end StoreM

namespace DbUavManager

/-- **A position message in three parts**: its UAV, the other rows, and the record. -/
theorem recordPosition_run {positionData : UAVPositionData}
    {role uavType status deviceType sourceType : String} {actual : Bool} {s : Session}
    (hhealthy : ((recordPosition positionData role uavType status deviceType sourceType actual).run
      s).2.Healthy) :
    ∃ info afterUav built,
      ((uavInfoFor positionData role uavType status deviceType sourceType).run s).1 = info ∧
      (StoreM.uavId positionData role uavType).run s.contents = some (info.uavId, afterUav) ∧
        afterUav.Adds StoreM.IsAuxiliary built ∧
      (StoreM.recordOf info actual).run built =
        some (((recordPosition positionData role uavType status deviceType sourceType
        actual).run s).1,
          ((recordPosition positionData role uavType status deviceType sourceType actual).run
          s).2.contents) := by
  rw [recordPosition, run_bind] at hhealthy ⊢
  have hbuilt := (refines_recordOf _ actual).back _ hhealthy
  have hinfo := (refines_uavInfoFor positionData role uavType status deviceType
    sourceType).run s hbuilt
  obtain ⟨afterUav, huav, hadds⟩ := StoreM.uavInfo_uavId hinfo
  exact ⟨_, afterUav, _, rfl, huav, hadds, (refines_recordOf _ actual).run _ hhealthy⟩

end DbUavManager

end ArmOd
