import ArmOd.Base.Upsert
import ArmOd.DbBla.Integrity

/-!
# The columns of the table of records

A record is written with a statement that names thirteen columns and, for the case that there is one
with the same key, nine of them again with placeholders of their own; and it is read back by the
positions that the columns have after two migrations. Here the table is the one of the schema, rows
by columns, and the statement and the reading are those of the source. On the rows that were written
the statement is what `Store.insertInfo` does, and so the table has one row for every key, the
latest.
-/

namespace ArmOd

inductive InfoColumn where
  | id
  | uavID
  | device
  | source
  | latitude
  | longitude
  | altitude
  | latitudeStdDev
  | longitudeStdDev
  | altidudeStdDev
  | speed
  | yaw
  | restTime
  | statusTypeId
  | datetime
  deriving DecidableEq, Repr

/-- What a column holds. -/
inductive SqlValue where
  | null
  | int (i : Int)
  | double (d : Double)
  | time (t : QTime)
  | datetime (d : QDateTime)
  deriving DecidableEq, Repr

namespace SqlValue

/-- `QVariant::toInt`. -/
def toInt : SqlValue → Int
  | .int i => i
  | .double (.fin q) => round q
  | _ => 0

/-- `QVariant::toDouble`. -/
def toDouble : SqlValue → Double
  | .double d => d
  | .int i => .fin i
  | _ => 0

end SqlValue

/-- The placeholders of the statement. -/
inductive InfoParam where
  | uavId
  | device
  | source
  | lat
  | lon
  | alt
  | latStdDev
  | lonStdDev
  | speed
  | yaw
  | restTime
  | statusId
  | dateTime
  | lat2
  | lon2
  | alt2
  | latStdDev2
  | lonStdDev2
  | speed2
  | yaw2
  | restTime2
  | statusId2
  deriving DecidableEq, Repr

/-- A row by its columns; the generated key is kept apart from it. -/
abbrev InfoRecord := InfoColumn → SqlValue

/-! ### The schema -/

/-- `CREATE TABLE UAV.Info`. -/
def createdColumns : List InfoColumn :=
  [.id, .uavID, .device, .source, .latitude, .longitude, .altitude, .speed, .yaw, .restTime,
    .statusTypeId, .datetime]

/-- The columns after `update002.sql`. -/
def infoColumns : List InfoColumn :=
  let columns := addColumnAfter createdColumns .altitude .latitudeStdDev
  let columns := addColumnAfter columns .latitudeStdDev .longitudeStdDev
  addColumnAfter columns .longitudeStdDev .altidudeStdDev

/-- The unique index of `update001.sql`. -/
def uavID_device_source_datetime : List InfoColumn := [.uavID, .device, .source, .datetime]

/-- The columns a row of the model stands for. -/
def InfoRow.columns (row : InfoRow) : InfoRecord
  | .id => .null
  | .uavID => .int row.uavID
  | .device => .int row.device
  | .source => .int row.source
  | .latitude => .double row.latitude
  | .longitude => .double row.longitude
  | .altitude => .double row.altitude
  | .latitudeStdDev => .double row.latitudeStdDev
  | .longitudeStdDev => .double row.longitudeStdDev
  | .altidudeStdDev => .null
  | .speed => .double row.speed
  | .yaw => .double row.yaw
  | .restTime => .time row.restTime
  | .statusTypeId => .int row.statusTypeId
  | .datetime => .datetime row.datetime

/-- The keys of a row fit into an `INT`. -/
structure InfoRow.Fits (row : InfoRow) : Prop where
  uavID : row.uavID < 2 ^ 31
  device : row.device < 2 ^ 31
  source : row.source < 2 ^ 31
  statusTypeId : row.statusTypeId < 2 ^ 31

/-- The table of the schema. -/
def Store.infoTable (s : Store) : SqlTable InfoRecord := s.info.map InfoRow.columns

/-- The connection is open, and the server refuses neither of the next two statements. -/
def Session.Answers (s : Session) : Prop :=
  s.isOpen = true ∧ s.faults.headD false = false ∧ s.faults.tail.headD false = false

instance (s : Session) : Decidable s.Answers := inferInstanceAs (Decidable (_ ∧ _ ∧ _))

namespace DbUavController

/-! ### Writing -/

/-- The statement of `addUavInfo`. -/
def insertInfoSql : Upsert InfoColumn InfoParam where
  columns := [.uavID, .device, .source, .latitude, .longitude, .altitude, .latitudeStdDev,
    .longitudeStdDev, .speed, .yaw, .restTime, .statusTypeId, .datetime]
  values := [.uavId, .device, .source, .lat, .lon, .alt, .latStdDev, .lonStdDev, .speed, .yaw,
    .restTime, .statusId, .dateTime]
  updates := [(.latitude, .lat2), (.longitude, .lon2), (.altitude, .alt2),
    (.latitudeStdDev, .latStdDev2), (.longitudeStdDev, .lonStdDev2), (.speed, .speed2),
    (.yaw, .yaw2), (.restTime, .restTime2), (.statusTypeId, .statusId2)]

/-- The values bound by name; the two that are bound as texts, to the second, are given as what the
texts stand for. -/
def bindings (info : UavInfo) : InfoParam → SqlValue :=
  let restTime := SqlValue.time (info.restTime - info.restTime % 1000)
  assign (fun _ => .null)
    [(.uavId, .int info.uavId), (.device, .int info.device), (.source, .int info.source),
      (.lat, .double info.lat), (.lat2, .double info.lat),
      (.latStdDev, .double info.latStddev), (.latStdDev2, .double info.latStddev),
      (.lon, .double info.lon), (.lon2, .double info.lon),
      (.lonStdDev, .double info.lonStddev), (.lonStdDev2, .double info.lonStddev),
      (.alt, .double info.alt), (.alt2, .double info.alt),
      (.speed, .double info.speed), (.speed2, .double info.speed),
      (.yaw, .double info.yaw), (.yaw2, .double info.yaw),
      (.restTime, restTime), (.restTime2, restTime),
      (.statusId, .int info.statusId), (.statusId2, .int info.statusId),
      (.dateTime, .datetime info.dateTime.dropMsecs)]

/-- The statement, on the table of the schema. -/
def runInsertInfo (info : UavInfo) (t : SqlTable InfoRecord) :
    Option (Nat × SqlTable InfoRecord) :=
  insertInfoSql.run .null (bindings info) uavID_device_source_datetime t

theorem inserted_eq (info : UavInfo) :
    insertInfoSql.inserted .null (bindings info) = (infoRow info).columns := by
  funext c
  cases c <;> rfl

/-- The update writes all that is not in the key, and the columns nobody writes are null. -/
theorem updated_eq {info : UavInfo} {row : InfoRow}
    (h : Store.sameInfo (infoRow info) row = true) :
    insertInfoSql.updated (bindings info) row.columns = (infoRow info).columns := by
  simp only [Store.sameInfo, Bool.and_eq_true, beq_iff_eq] at h
  obtain ⟨⟨⟨huav, hdevice⟩, hsource⟩, hdatetime⟩ := h
  funext c
  cases c with
  | uavID => exact congrArg (fun n : Nat => SqlValue.int n) huav.symm
  | device => exact congrArg (fun n : Nat => SqlValue.int n) hdevice.symm
  | source => exact congrArg (fun n : Nat => SqlValue.int n) hsource.symm
  | datetime => exact congrArg SqlValue.datetime hdatetime.symm
  | _ => rfl

theorem duplicate_eq (row row' : InfoRow) :
    Upsert.duplicate .null uavID_device_source_datetime row.columns row'.columns =
      Store.sameInfo row row' := by
  rw [Bool.eq_iff_iff]
  simp [Upsert.duplicate, uavID_device_source_datetime, InfoRow.columns, Store.sameInfo, and_assoc]

theorem insertInfo_eq (s : Store) (row : InfoRow) : s.insertInfo row =
    (s.info.upsert (Store.sameInfo row) (fun _ => row) row).map
      fun p => (p.1, { s with info := p.2 }) := by
  rw [Store.insertInfo, Table.upsert]
  cases s.info.firstId (Store.sameInfo row) <;> rfl

/-- **The statement is what the model of the tables does**, on the rows it stands for. -/
theorem runInsertInfo_eq (info : UavInfo) (s : Store) : runInsertInfo info s.infoTable =
    (s.insertInfo (infoRow info)).map fun p => (p.1, p.2.infoTable) := by
  rw [runInsertInfo, Upsert.run, inserted_eq, insertInfo_eq, Option.map_map]
  exact Table.upsert_map (duplicate_eq (infoRow info)) (fun _ => updated_eq) s.info (infoRow info)

/-! ### Reading -/

/-- A row of `SELECT *`. -/
def selectAll (id : Nat) (row : InfoRecord) : List SqlValue :=
  infoColumns.map (Function.update row .id (.int id))

/-- `query.value( i )`. -/
def value (record : List SqlValue) (i : Nat) : SqlValue := record.getD i .null

/-- A row in the loop of `getUavInfoByUavId`. The two fields that are read as texts are converted by
`toTime` and `toDateTime`. -/
def readUavInfo (toTime : SqlValue → QTime) (toDateTime : SqlValue → QDateTime)
    (record : List SqlValue) : UavInfo where
  id := (value record 0).toInt
  uavId := uint (value record 1).toInt
  device := uint (value record 2).toInt
  source := uint (value record 3).toInt
  lat := (value record 4).toDouble
  lon := (value record 5).toDouble
  alt := (value record 6).toDouble
  latStddev := (value record 7).toDouble
  lonStddev := (value record 8).toDouble
  speed := (value record 10).toDouble
  yaw := (value record 11).toDouble
  restTime := toTime (value record 12)
  statusId := uint (value record 13).toInt
  dateTime := toDateTime (value record 14)

/-- `getUavInfoByUavId`, with the records read out of the columns. -/
def readUavInfoByUavId (toTime : SqlValue → QTime) (toDateTime : SqlValue → QDateTime)
    (uavId : Nat) : DbM (Bool × List UavInfo) := do
  match ← selectRows fun s => s.infoTable.select fun row => row .uavID == .int uavId with
  | some rows =>
    return (true, rows.map fun (id, row) => readUavInfo toTime toDateTime (selectAll id row))
  | none => return (false, [])

theorem execSelect_map {α β : Type} (f : α → β) (read : Store → List α) (s : Session) :
    (DbM.execSelect fun s => (read s).map f).run s =
      (((DbM.execSelect read).run s).1.map (List.map f), ((DbM.execSelect read).run s).2) := by
  change DbM.execSelect _ s =
    ((DbM.execSelect read s).1.map (List.map f), (DbM.execSelect read s).2)
  rw [DbM.execSelect, DbM.execSelect, DbM.onServer, DbM.onServer]
  split
  · cases s.faults.headD false <;> rfl
  · rfl

theorem selectRows_map {α β : Type} (f : α → β) (read : Store → List α) (s : Session) :
    (selectRows fun s => (read s).map f).run s =
      (((selectRows read).run s).1.map (List.map f), ((selectRows read).run s).2) := by
  simp only [selectRows, run_bind, run_ite, run_pure]
  split
  · rfl
  split
  · rfl
  · exact execSelect_map f read _

theorem select_infoTable (s : Store) (uavId : Nat) :
    (s.infoTable.select fun row => row .uavID == .int uavId) =
      (s.info.select fun row => row.uavID == uavId).map fun r => (r.1, r.2.columns) := by
  rw [Store.infoTable, Table.map, Table.select, Table.select, List.filter_map]
  refine congrArg _ (List.filter_congr fun r _ => ?_)
  simp [InfoRow.columns]

/-- The columns that are read are those of the rows that the rest of the component reads. -/
theorem run_readUavInfoByUavId (toTime : SqlValue → QTime) (toDateTime : SqlValue → QDateTime)
    (uavId : Nat) (s : Session) : (readUavInfoByUavId toTime toDateTime uavId).run s =
      ((((getUavInfoByUavId uavId).run s).1.1, ((getUavInfoByUavId uavId).run s).1.2.map fun r =>
        readUavInfo toTime toDateTime (selectAll r.1 r.2.columns)),
        ((getUavInfoByUavId uavId).run s).2) := by
  rw [readUavInfoByUavId, getUavInfoByUavId, run_bind, run_bind,
    funext fun s => select_infoTable s uavId, selectRows_map]
  cases ((selectRows fun s => s.info.select fun row => row.uavID == uavId).run s).1 with
  | none => rfl
  | some rows =>
      rw [Option.map_some, run_pure, run_pure, List.map_map]
      rfl

/-- The record has the columns of the row with the same meaning. -/
structure Reads (id : Nat) (row : InfoRecord) (info : UavInfo) : Prop where
  id : info.id = id
  uavId : row .uavID = .int info.uavId
  device : row .device = .int info.device
  source : row .source = .int info.source
  lat : row .latitude = .double info.lat
  lon : row .longitude = .double info.lon
  alt : row .altitude = .double info.alt
  latStddev : row .latitudeStdDev = .double info.latStddev
  lonStddev : row .longitudeStdDev = .double info.lonStddev
  speed : row .speed = .double info.speed
  yaw : row .yaw = .double info.yaw
  statusId : row .statusTypeId = .int info.statusId

variable {toTime : SqlValue → QTime} {toDateTime : SqlValue → QDateTime}

theorem int_uint {n : Nat} (h : n < 2 ^ 31) :
    SqlValue.int n = .int (uint (SqlValue.int n).toInt : Nat) :=
  congrArg (fun n : Nat => SqlValue.int n) (uint_of_lt (h.trans (by decide))).symm

/-- **The positions are those of the columns** after the migrations. -/
theorem reads_readUavInfo {row : InfoRow} (h : row.Fits) (id : Nat) :
    Reads id row.columns (readUavInfo toTime toDateTime (selectAll id row.columns)) where
  id := rfl
  uavId := int_uint h.uavID
  device := int_uint h.device
  source := int_uint h.source
  lat := rfl
  lon := rfl
  alt := rfl
  latStddev := rfl
  lonStddev := rfl
  speed := rfl
  yaw := rfl
  statusId := int_uint h.statusTypeId

/-! ### The calls -/

/-- The calls one after the other, and the records whose call succeeded. -/
def addUavInfos : List UavInfo → DbM (List UavInfo)
  | [] => return []
  | info :: rest => do
    let recordIndex ← addUavInfo info
    let stored ← addUavInfos rest
    return if recordIndex = INVALID_INDEX then stored else info :: stored

/-- The fields of the unique index. -/
def infoKey (info : UavInfo) : Nat × Nat × Nat × QDateTime :=
  (info.uavId, info.device, info.source, info.dateTime.dropMsecs)

def rowKey (row : InfoRow) : Nat × Nat × Nat × QDateTime :=
  (row.uavID, row.device, row.source, row.datetime)

variable {s : Session}

theorem prepare_store (s : Session) : (DbM.prepare.run s).2.store = s.store := by
  change (DbM.prepare s).2.store = _
  rw [DbM.prepare, DbM.onServer]
  split <;> rfl

theorem execWrite_cases (w : Write) (s : Session) :
    (((DbM.execWrite w).run s).1 = none ∧ ((DbM.execWrite w).run s).2.store = s.store) ∨
      ∃ key, ((DbM.execWrite w).run s).1 = some key ∧
        s.store.apply w = some (key, ((DbM.execWrite w).run s).2.store) := by
  change (((DbM.execWrite w) s).1 = none ∧ ((DbM.execWrite w) s).2.store = s.store) ∨
    ∃ key, ((DbM.execWrite w) s).1 = some key ∧
      s.store.apply w = some (key, ((DbM.execWrite w) s).2.store)
  rw [DbM.execWrite, DbM.onServer]
  split
  · split
    · rename_i key store _ happly
      exact Or.inr ⟨key, rfl, happly⟩
    · exact Or.inl ⟨rfl, rfl⟩
  · exact Or.inl ⟨rfl, rfl⟩

theorem addUavInfo_cases (info : UavInfo) (s : Session) :
    (((addUavInfo info).run s).1 = INVALID_INDEX ∧ ((addUavInfo info).run s).2.store = s.store) ∨
      (((addUavInfo info).run s).1 ≠ INVALID_INDEX ∧ ∃ key,
        s.store.apply (.insertInfo (infoRow info)) =
          some (key, ((addUavInfo info).run s).2.store)) := by
  rw [addUavInfo, insertRow, run_bind, run_isOpen, run_ite]
  split
  · exact Or.inl ⟨rfl, rfl⟩
  · rw [run_bind, run_ite]
    split
    · exact Or.inl ⟨rfl, prepare_store s⟩
    · rw [run_bind, run_pure]
      rcases execWrite_cases (.insertInfo (infoRow info)) (DbM.prepare.run s).2 with
        ⟨hnone, hstore⟩ | ⟨key, hsome, happly⟩
      · rw [hnone]
        exact Or.inl ⟨rfl, hstore.trans (prepare_store s)⟩
      · rw [hsome]
        rw [prepare_store] at happly
        exact Or.inr ⟨ne_of_gt (lt_of_lt_of_le (by decide) (Int.natCast_nonneg key)), key, happly⟩

theorem run_execSelect {α : Type} (read : Store → List α) {s : Session} (hopen : s.isOpen = true) :
    ((DbM.execSelect read).run s).1 =
      if s.faults.headD false then none else some (read s.store) := by
  change (DbM.execSelect read s).1 = _
  rw [DbM.execSelect, DbM.onServer, if_pos hopen]
  cases s.faults.headD false <;> rfl

theorem selectRows_eq {α : Type} (read : Store → List α) (s : Session) :
    ((selectRows read).run s).1 = if s.Answers then some (read s.store) else none := by
  rw [selectRows, run_bind, run_isOpen]
  by_cases hopen : s.isOpen = true
  · simp only [hopen, Bool.not_true, Bool.false_eq_true, if_false, run_bind, run_prepare,
      Bool.not_not]
    cases hprepare : s.faults.headD false with
    | true => simp only [Session.Answers, hopen, hprepare, if_true, Bool.true_eq_false, false_and,
        and_false, if_false, run_pure]
    | false =>
        rw [if_neg Bool.false_ne_true, run_execSelect read rfl]
        cases hexec : s.faults.tail.headD false <;>
          simp only [Session.Answers, hopen, hprepare, hexec, if_true, Bool.true_eq_false,
            and_false, and_self, if_false, Bool.false_eq_true]
  · rw [if_neg fun hanswers : s.Answers => hopen hanswers.1, Bool.eq_false_iff.mpr hopen]
    rfl

/-- The statements of some records, on the table of the schema. -/
def runInsertInfos (infos : List UavInfo) (t : SqlTable InfoRecord) :
    Option (SqlTable InfoRecord) :=
  infos.foldlM (fun t info => (runInsertInfo info t).map Prod.snd) t

/-- What the tables hold after some records were stored, in a table `start` that was empty. -/
structure Stored (start : SqlTable InfoRecord) (infos : List UavInfo) (s : Store) : Prop where
  statements : runInsertInfos infos start = some s.infoTable
  rows : (s.info.rows.map Prod.snd).Perm ((latest infoKey infos).map infoRow)
  fits : ∀ info ∈ infos, (infoRow info).Fits

variable {start : SqlTable InfoRecord} {stored : List UavInfo} {s s' : Store} {info : UavInfo}
  {key : Nat}

theorem sameInfo_iff {row row' : InfoRow} :
    Store.sameInfo row row' = true ↔ rowKey row = rowKey row' := by
  simp only [Store.sameInfo, rowKey, Bool.and_eq_true, beq_iff_eq, Prod.mk.injEq, and_assoc]

theorem fits_of_apply (h : s.apply (.insertInfo (infoRow info)) = some (key, s')) :
    (infoRow info).Fits := by
  have hrefs : s.infoReferences (infoRow info) = true := (Option.ite_none_right_eq_some.mp h).1
  have hkey : ∀ {α : Type} {t : SqlTable α} {id : Nat}, Store.references t id = true →
      id < 2 ^ 31 := fun hid => by
    obtain ⟨row, hrow⟩ := Option.isSome_iff_exists.mp hid
    exact Table.lt_limit_of_get? _ hrow
  simp only [Store.infoReferences, Bool.and_eq_true] at hrefs
  obtain ⟨⟨⟨huav, hdevice⟩, hsource⟩, hstatus⟩ := hrefs
  exact ⟨hkey huav, hkey hdevice, hkey hsource, hkey hstatus⟩

theorem Stored.concat (h : Stored start stored s)
    (happly : s.apply (.insertInfo (infoRow info)) = some (key, s')) :
    Stored start (stored ++ [info]) s' := by
  have hinsert : s.insertInfo (infoRow info) = some (key, s') :=
    (Option.ite_none_right_eq_some.mp happly).2
  refine ⟨?_, ?_, fun other hother => ?_⟩
  · rw [runInsertInfos, List.foldlM_append]
    change (runInsertInfos stored start).bind _ = _
    rw [h.statements, Option.bind_some, List.foldlM_cons, runInsertInfo_eq, hinsert]
    rfl
  · rw [insertInfo_eq] at hinsert
    obtain ⟨p, hupsert, hp⟩ := Option.map_eq_some_iff.mp hinsert
    cases hp
    have hlatest : ∀ infos : List UavInfo, (latest infoKey infos).map infoRow =
        latest rowKey (infos.map infoRow) := fun infos => (latest_map rowKey infoRow infos).symm
    rw [hlatest, List.map_append, List.map_singleton]
    exact Table.rows_upsert (fun row => sameInfo_iff.trans eq_comm) hupsert
      (hlatest stored ▸ h.rows)
  · rcases List.mem_append.mp hother with hold | hlast
    · exact h.fits other hold
    · rw [List.mem_singleton.mp hlast]
      exact fits_of_apply happly

theorem Stored.addUavInfos {db : Session} (h : Stored start stored db.store)
    (infos : List UavInfo) :
    Stored start (stored ++ ((addUavInfos infos).run db).1)
      ((addUavInfos infos).run db).2.store := by
  induction infos generalizing db stored with
  | nil =>
      rw [DbUavController.addUavInfos, run_pure, List.append_nil]
      exact h
  | cons info rest ih =>
      rw [DbUavController.addUavInfos, run_bind, run_bind, run_pure]
      rcases addUavInfo_cases info db with ⟨hindex, hstore⟩ | ⟨hindex, key, happly⟩
      · rw [if_pos hindex]
        exact ih (hstore ▸ h)
      · rw [if_neg hindex]
        have hnext := ih (h.concat happly)
        rw [List.append_assoc] at hnext
        exact hnext

theorem Stored.forall₂_reads (h : Stored start stored s) (uavId : Nat) :
    List.Forall₂ (fun r info => Reads r.1 r.2 info)
      (s.infoTable.select fun row => row .uavID == .int uavId)
      ((s.infoTable.select fun row => row .uavID == .int uavId).map fun r =>
        readUavInfo toTime toDateTime (selectAll r.1 r.2)) := by
  rw [List.forall₂_map_right_iff, List.forall₂_same]
  intro r hr
  obtain ⟨r', hr', rfl⟩ := List.mem_map.mp (List.mem_of_mem_filter hr)
  obtain ⟨info, hinfo, heq⟩ := List.mem_map.mp
    (h.rows.subset (List.mem_map_of_mem (f := Prod.snd) hr'))
  have hfits := h.fits info (mem_of_mem_latest hinfo)
  rw [heq] at hfits
  exact reads_readUavInfo hfits r'.1

/-- **Writing and reading the table of records.** The calls that succeed are their statements; they
leave one row for every key, the latest; and a query that is answered reads back the rows. -/
theorem addUavInfos_readUavInfoByUavId (toTime : SqlValue → QTime)
    (toDateTime : SqlValue → QDateTime) (db : Session) (infos : List UavInfo)
    (hempty : db.store.info.rows = []) :
    let r := (addUavInfos infos).run db
    runInsertInfos r.1 db.store.infoTable = some r.2.store.infoTable ∧
    (r.2.store.infoTable.rows.map Prod.snd).Perm
      ((latest infoKey r.1).map fun info => (infoRow info).columns) ∧
    ∀ uavId,
      (r.2.Answers → ∃ uavInfoList,
        ((readUavInfoByUavId toTime toDateTime uavId).run r.2).1 = (true, uavInfoList) ∧
        List.Forall₂ (fun row info => Reads row.1 row.2 info)
          (r.2.store.infoTable.select fun row => row .uavID == .int uavId) uavInfoList) ∧
      (¬r.2.Answers → ((readUavInfoByUavId toTime toDateTime uavId).run r.2).1 = (false, [])) := by
  intro r
  have hstart : Stored db.store.infoTable [] db.store := by
    refine ⟨rfl, ?_, fun _ hinfo => absurd hinfo List.not_mem_nil⟩
    rw [hempty]
    exact List.Perm.nil
  have hstored : Stored db.store.infoTable r.1 r.2.store := hstart.addUavInfos infos
  refine ⟨hstored.statements, ?_, fun uavId => ?_⟩
  · have hcolumns := hstored.rows.map InfoRow.columns
    rw [List.map_map, List.map_map] at hcolumns
    rw [Store.infoTable, Table.map, List.map_map]
    exact hcolumns
  · have hrun := selectRows_eq (fun s => s.infoTable.select fun row => row .uavID == .int uavId) r.2
    rw [readUavInfoByUavId, run_bind]
    constructor
    · intro hanswers
      rw [hrun, if_pos hanswers]
      exact ⟨_, rfl, hstored.forall₂_reads uavId⟩
    · intro hrefuses
      rw [hrun, if_neg hrefuses]
      rfl

/-- A connection to a database with the rows that a record of the UAV 7 names, and no record. -/
def knownRows : Session :=
  .connect ([Write.insertDictionary .uavtypes "UnknownUavType",
    .insertRole ⟨OUR_UAV_ROLE, OUR_UAV_ROLE⟩,
    .insertUav { uavId := 7, ip := "127.0.0.1", uavTypeId := 1, roleId := 1, name := "",
                 freqId := -1 },
    .insertDictionary .statustypes "UnknownStatus",
    .insertDictionary .devicetypes "UnknownDeviceType", .insertDevice ⟨1, 0, 7⟩,
    .insertDictionary .sourcetypes "UnknownSourceType",
    .insertSource ⟨1, UAV_AUTOPILOT_SOURCE⟩].foldl
    (fun s w => ((s.apply w).map Prod.snd).getD s) .empty) []

/-- A record of that UAV. -/
def recordAt (lat : Double) (time : QTime) : UavInfo where
  uavId := 1
  device := 1
  source := 1
  lat := lat
  lon := 37
  latStddev := 0
  lonStddev := 0
  alt := 500
  speed := 20
  yaw := 90
  restTime := 3600000
  statusId := 1
  dateTime := ⟨0, time⟩

/-- Two records of one second and one of the next make two rows, which are read back. -/
theorem addUavInfos_readUavInfoByUavId_threeRecords :
    let after := ((addUavInfos [recordAt 55 0, recordAt 56 999, recordAt 57 1000]).run knownRows).2
    after.store.infoTable.rows.length = 2 ∧ ∃ uavInfoList,
      ((readUavInfoByUavId (fun _ => 0) (fun _ => ⟨0, 0⟩) 1).run after).1 = (true, uavInfoList) ∧
      uavInfoList.length = 2 := by
  obtain ⟨-, hperm, hread⟩ := addUavInfos_readUavInfoByUavId (fun _ => 0) (fun _ => ⟨0, 0⟩)
    knownRows [recordAt 55 0, recordAt 56 999, recordAt 57 1000] (by decide +kernel)
  obtain ⟨uavInfoList, hrun, hreads⟩ := (hread 1).1 (by decide +kernel)
  have hrows := hperm.length_eq
  rw [List.length_map, List.length_map] at hrows
  refine ⟨?_, uavInfoList, hrun, ?_⟩
  · rw [hrows]
    decide +kernel
  · rw [← hreads.length_eq]
    decide +kernel

end DbUavController

end ArmOd
