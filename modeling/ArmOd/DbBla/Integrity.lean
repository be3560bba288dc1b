import ArmOd.DbBla.Record

/-!
# Referential integrity of the records

A position message looks seven rows up or creates them, and then stores a record that names four of
them. Which rows the record names is read off the statement that stores it, whether or not the
server takes it. The key of a source that had to be created is not taken over: the record then names
no source at all. So a record names its rows exactly where its source was there before.
-/

namespace ArmOd

namespace DbEvent

/-- The record a statement is about. -/
def infoRow? : DbEvent → Option InfoRow
  | .write (.insertInfo row) _ => some row
  | _ => none

theorem infoRow?_of_notInfo {tx : Prop} {e : DbEvent} (h : e.Within tx DbUavManager.NotInfo) :
    e.infoRow? = none := by
  cases e with
  | write w ok =>
      cases w with
      | insertInfo row => exact absurd h id
      | _ => rfl
  | _ => rfl

end DbEvent

namespace Session

/-- The records passed to the database between two states of a connection. -/
def recordsSince (s s' : Session) : List InfoRow :=
  (s'.log.drop s.log.length).filterMap DbEvent.infoRow?

/-- Every statement succeeded, except perhaps statements that store records. -/
def CleanButRecords (s : Session) : Prop := ∀ e ∈ s.log, e.infoRow? = none → e.ok = true

instance (s : Session) : Decidable s.CleanButRecords :=
  inferInstanceAs (Decidable (∀ e ∈ s.log, e.infoRow? = none → e.ok = true))

theorem recordsSince_of_append {s s' : Session} (new : List DbEvent) (h : s'.log = s.log ++ new) :
    recordsSince s s' = new.filterMap DbEvent.infoRow? := by
  rw [recordsSince, h, List.drop_left]

end Session

namespace DbUavController

open DbM

theorem run_isOpen (s : Session) : isOpen.run s = (s.isOpen, s) := rfl

theorem run_prepare {s : Session} (hopen : s.isOpen = true) :
    prepare.run s = (!s.faults.headD false,
      { s with faults := s.faults.tail, log := s.log ++ [.prepare !s.faults.headD false] }) := by
  change prepare s = _
  rw [prepare, onServer, if_pos hopen]

theorem execWrite_log (w : Write) {s : Session} (hopen : s.isOpen = true) : ∃ ok,
    ((execWrite w).run s).2.log = s.log ++ [.write w ok] := by
  change ∃ ok, (execWrite w s).2.log = _
  rw [execWrite, onServer, if_pos hopen]
  split
  · exact ⟨true, rfl⟩
  · exact ⟨false, rfl⟩

theorem insertRow_log {w : Write} {s : Session} (hopen : s.isOpen = true) :
    ((insertRow w).run s).2.log = s.log ++ [.prepare false] ∨
      ∃ ok, ((insertRow w).run s).2.log = s.log ++ [.prepare true, .write w ok] := by
  cases hfault : s.faults.headD false with
  | true =>
      left
      simp only [insertRow, run_bind, run_isOpen, run_prepare, run_pure, hopen, hfault,
        Bool.not_true, Bool.not_false, Bool.false_eq_true, if_true, if_false]
  | false =>
      right
      simp only [insertRow, run_bind, run_isOpen, run_prepare, run_pure, hopen, hfault,
        Bool.not_true, Bool.not_false, Bool.false_eq_true, if_false]
      obtain ⟨ok, hlog⟩ := execWrite_log w
        (s := ⟨true, s.store, s.faults.tail, s.log ++ [.prepare true]⟩) rfl
      exact ⟨ok, by rw [hlog, List.append_assoc]; rfl⟩

end DbUavController

namespace DbUavManager

open DbUavController

theorem filterMap_infoRow?_of_notInfo {tx : Prop} {new : List DbEvent}
    (h : ∀ e ∈ new, e.Within tx NotInfo) :
    new.filterMap DbEvent.infoRow? = [] :=
  List.filterMap_eq_nil_iff.mpr fun e he => DbEvent.infoRow?_of_notInfo (h e he)

theorem storeRecord_log (info : UavInfo) (uav : Uav) {s : Session} (hopen : s.isOpen = true) :
    ∃ rest, (∀ e ∈ rest, e.Within False NotInfo) ∧
      (((storeRecord info uav).run s).2.log = s.log ++ .prepare false :: rest ∨
        ∃ ok, ((storeRecord info uav).run s).2.log =
        s.log ++ .prepare true :: .write (.insertInfo (infoRow info)) ok :: rest) := by
  let stored := ((DbUavController.addUavInfo info).run s).2
  have hrest : Executes False NotInfo (do
      let _ ← getUavRole uav.roleId
      let _ ← getSource info.source) :=
    (executes_getUavRole _).bind fun _ => (executes_getSource _).bind fun _ => Moves.pure _
  obtain ⟨rest, hlog, hwithin, _⟩ := hrest stored
  refine ⟨rest, hwithin, ?_⟩
  have hfinal : ((storeRecord info uav).run s).2.log = stored.log ++ rest := hlog
  rcases insertRow_log (w := .insertInfo (infoRow info)) hopen with hfailed | ⟨ok, hstored⟩
  · left
    rw [hfinal, show stored.log = _ from hfailed, List.append_assoc]
    rfl
  · right
    refine ⟨ok, ?_⟩
    rw [hfinal, show stored.log = _ from hstored, List.append_assoc]
    rfl

/-- **The record of a message is passed to the database once**, as it was built. -/
theorem recordOf_log {info : UavInfo} {s : Session} {row : UavRow} (hhealthy : s.Healthy)
    (hrow : s.store.uav.get? info.uavId = some row)
    (hclean : ((recordOf info true).run s).2.CleanButRecords) :
    ∃ new, ((recordOf info true).run s).2.log = s.log ++ new ∧
      new.filterMap DbEvent.infoRow? = [infoRow info] := by
  have hget : Executes False NotInfo (getUav info.uavId) := executes_getUav _
  obtain ⟨looked, hlooked, hlookedWithin, hopen, _⟩ := hget s
  by_cases hid : ((getUav info.uavId).run s).1.id < 0
  · -- the UAV is there, so that the lookup can only have failed
    exfalso
    have hfinal : ((recordOf info true).run s).2 = ((getUav info.uavId).run s).2 := by
      simp only [recordOf, run_bind, run_pure, hid, if_true]
    have hread : ((getUav info.uavId).run s).2.Healthy := by
      refine ⟨hopen.trans hhealthy.1, fun e he => ?_⟩
      rw [hfinal] at hclean
      have hmem := he
      rw [hlooked, List.mem_append] at hmem
      rcases hmem with hold | hnew
      · exact hhealthy.2 e hold
      · exact hclean e he (DbEvent.infoRow?_of_notInfo (hlookedWithin e hnew))
    have huav := (refines_getUav info.uavId).run s hread
    rw [StoreM.run_read, Option.some.injEq, Prod.mk.injEq] at huav
    rw [← huav.1, Store.uavOf, show s.contents.store.uav.get? info.uavId = some row from
      hrow] at hid
    exact absurd (Int.natCast_nonneg info.uavId) (Int.not_le.mpr hid)
  · have hfinal : ((recordOf info true).run s).2 =
        ((storeRecord info (named ((getUav info.uavId).run s).1)).run
        ((getUav info.uavId).run s).2).2 := by
      simp only [recordOf, run_bind, run_pure, hid, if_false, Bool.not_true, Bool.false_eq_true]
    obtain ⟨rest, hrestWithin, hfailed | ⟨ok, hstored⟩⟩ :=
      storeRecord_log info (named ((getUav info.uavId).run s).1) (hopen.trans hhealthy.1)
    · rw [← hfinal] at hfailed
      exact absurd (hclean (.prepare false) (by rw [hfailed]; simp) rfl) Bool.noConfusion
    · refine ⟨looked ++ .prepare true :: .write (.insertInfo (infoRow info)) ok :: rest, ?_, ?_⟩
      · rw [hfinal, hstored, hlooked, List.append_assoc]
      · rw [List.filterMap_append, filterMap_infoRow?_of_notInfo hlookedWithin, List.nil_append]
        exact congrArg (List.cons (infoRow info)) (filterMap_infoRow?_of_notInfo hrestWithin)

end DbUavManager

/-! ### The rows of a record -/

namespace Store

/-- The foreign key of the source rows. -/
def SourcesTyped (s : Store) : Prop :=
  ∀ r ∈ s.sources.rows, ∃ name, (s.dictionary .sourcetypes).get? r.2.sourceTypeId = some name

instance (s : Store) : Decidable s.SourcesTyped :=
  decidable_of_iff (∀ r ∈ s.sources.rows,
    ((s.dictionary .sourcetypes).get? r.2.sourceTypeId).isSome = true) (by
    simp only [SourcesTyped, Option.isSome_iff_exists])

theorem apply_sourcesTyped {s s' : Store} {w : Write} {id : Nat} (h : s.apply w = some (id, s'))
    (htyped : s.SourcesTyped) : s'.SourcesTyped := by
  intro r hr
  have hgrows := apply_grows h
  have hold : r ∈ s.sources.rows →
    ∃ name, (s'.dictionary .sourcetypes).get? r.2.sourceTypeId = some name := by
    intro hr
    obtain ⟨name, hname⟩ := htyped r hr
    exact ⟨name, (hgrows.dictionary _).get? hname⟩
  cases w with
  | insertSource row =>
      obtain ⟨t, hinsert, rfl⟩ := apply_insertSource h
      rcases (Table.mem_rows_insert hinsert).mp hr with hr | rfl
      · exact hold hr
      · rw [apply] at h
        split at h
        · exact Option.isSome_iff_exists.mp ‹_›
        · cases h
  | _ =>
      rw [apply_sources_eq (by intro row heq; cases heq) h] at hr
      exact hold hr

/-- Whatever was written to an empty database, its source rows name source types. -/
theorem Writes.sourcesTyped {s s' : Store} {ws : List Write} (h : s.Writes ws s')
    (htyped : s.SourcesTyped) : s'.SourcesTyped := by
  induction h with
  | nil => exact htyped
  | cons happly _ ih => exact ih (apply_sourcesTyped happly htyped)

/-- There is a row for the source of a position, under the source type of that name. -/
def HasSource (s : Store) (positionData : UAVPositionData) (sourceType : String) : Prop :=
  ∃ typeId, (s.dictionary .sourcetypes).firstId (· == sourceType) = some typeId ∧
    (s.sources.firstId fun row => row.sourceTypeId == typeId && row.sourceId ==
    positionData.sourceType).isSome = true

/-- The rows a record names are there, and its source is the source of the position. -/
def NamesItsRows (s : Store) (positionData : UAVPositionData) (sourceType : String)
    (row : InfoRow) : Prop :=
  s.infoReferences row = true ∧ ∃ source, s.sources.get? row.source = some source ∧
    source.sourceId = positionData.sourceType ∧
    (s.dictionary .sourcetypes).get? source.sourceTypeId = some sourceType

theorem references_of_get? {α : Type} {t : SqlTable α} {id : Nat} {a : α} (h : t.get? id = some a) :
    references t id = true := by
  rw [references, h, Option.isSome_some]

theorem Grows.references {s s' : Store} (h : s.Grows s') (row : InfoRow)
    (hrow : s.infoReferences row = true) : s'.infoReferences row = true := by
  simp only [infoReferences, Store.references, Bool.and_eq_true, Option.isSome_iff_exists] at hrow ⊢
  obtain ⟨⟨⟨⟨uav, huav⟩, ⟨device, hdevice⟩⟩, ⟨source, hsource⟩⟩, ⟨status, hstatus⟩⟩ := hrow
  exact ⟨⟨⟨⟨uav, h.uav.get? huav⟩, ⟨device, h.devices.get? hdevice⟩⟩,
    ⟨source, h.sources.get? hsource⟩⟩,
    ⟨status, (h.dictionary _).get? hstatus⟩⟩

end Store

namespace StoreM

variable {c c' : DbContents}

theorem sourceId_isSome_iff {positionData : UAVPositionData} {sourceType : String}
    {source : Option Nat} (htyped : c.store.SourcesTyped)
    (hrun : (sourceId positionData sourceType).run c = some (source, c')) :
    source.isSome = true ↔ c.store.HasSource positionData sourceType := by
  obtain ⟨typeId, mid, htype, hfind, -, -⟩ := sourceId_cases hrun
  rcases run_getOrElse_eq_some.mp htype with ⟨hfirst, rfl⟩ | ⟨hnone, hexec⟩
  · constructor
    · intro hsome
      exact ⟨typeId, hfirst, by rw [hfind]; exact hsome⟩
    · rintro ⟨typeId', hfirst', hsome⟩
      rw [hfirst] at hfirst'
      cases hfirst'
      rwa [hfind] at hsome
  · -- a type that had to be added has no sources yet
    have hempty : (mid.store.sources.firstId fun row =>
      row.sourceTypeId == typeId && row.sourceId == positionData.sourceType) = none := by
      obtain ⟨t, hinsert, hstore⟩ := Store.apply_insertDictionary (run_exec_eq_some.mp hexec).1
      refine Table.firstId_eq_none.mpr fun r hr => ?_
      rw [hstore] at hr
      obtain ⟨name, hname⟩ := htyped r hr
      have hlt := Table.lt_nextId_of_get? _ hname
      rw [← (Table.insert_eq_some hinsert).1] at hlt
      rw [beq_eq_false_iff_ne.mpr (Nat.ne_of_lt hlt), Bool.false_and]
    rw [hempty] at hfind
    rw [← hfind]
    constructor
    · exact fun h => absurd h Bool.noConfusion
    · rintro ⟨typeId', hfirst', -⟩
      rw [hnone] at hfirst'
      exact absurd hfirst' (Option.some_ne_none _).symm

/-- A write that neither adds a source nor a source type. -/
def IsNotSource : Write → Prop
  | .insertSource _ => False
  | .insertDictionary .sourcetypes _ => False
  | _ => True

theorem sources_of_isNotSource (h : c.Adds IsNotSource c') :
    c'.store.sources = c.store.sources ∧
      c'.store.dictionary .sourcetypes = c.store.dictionary .sourcetypes := by
  constructor
  · exact h.sources_eq fun w hw row heq => by rw [heq] at hw; exact hw
  · exact h.dictionary_eq fun w hw name heq => by rw [heq] at hw; exact hw

end StoreM

namespace DbUavManager

open DbUavController StoreM

/-- Between two states one record was passed to the database, and it names its rows. -/
def PassesRecord (w w' : World) (positionData : UAVPositionData) (sourceType : String) : Prop :=
  ∃ row, w.m_dbController.recordsSince w'.m_dbController = [row] ∧
    w'.m_dbController.store.NamesItsRows positionData sourceType row

section Built

variable {positionData : UAVPositionData} {role uavType status deviceType sourceType : String}
  {uavKey statusKey deviceKey : Nat} {sourceKey : Option Nat}
  {c c' afterUav afterStatus afterDevice : DbContents}

/-- The source is found where it was there before: the rows that are added in front of it are no
sources and no source types. -/
theorem sourceKey_isSome_iff
    (huav : (uavId positionData role uavType).run c = some (uavKey, afterUav))
    (hstatus : (recordId .statustypes status).run afterUav = some (statusKey, afterStatus))
    (hdevice : (deviceId positionData deviceType).run afterStatus = some (deviceKey, afterDevice))
    (hsource : (sourceId positionData sourceType).run afterDevice = some (sourceKey, c'))
    (htyped : c.store.SourcesTyped) :
    sourceKey.isSome = true ↔ c.store.HasSource positionData sourceType := by
  have hbefore : c.Adds IsNotSource afterDevice :=
    (uavId_adds huav trivial trivial fun _ => trivial).trans
    ((recordId_adds hstatus trivial).trans (deviceId_adds hdevice trivial fun _ => trivial))
  obtain ⟨hsources, htypes⟩ := sources_of_isNotSource hbefore
  have hafter : afterDevice.store.SourcesTyped := by
    rw [Store.SourcesTyped, hsources, htypes]
    exact htyped
  have hiff := sourceId_isSome_iff hafter hsource
  rwa [Store.HasSource, hsources, htypes] at hiff

theorem namesItsRows_of_found {sourceId : Nat}
    (huav : (uavId positionData role uavType).run c = some (uavKey, afterUav))
    (hstatus : (recordId .statustypes status).run afterUav = some (statusKey, afterStatus))
    (hdevice : (deviceId positionData deviceType).run afterStatus = some (deviceKey, afterDevice))
    (hsource : (StoreM.sourceId positionData sourceType).run afterDevice = some (some sourceId, c')) :
    c'.store.NamesItsRows positionData sourceType
      (infoRow (uavInfoOf positionData uavKey statusKey deviceKey
        (lastInsertId (some sourceId)))) := by
  obtain ⟨typeId, mid, htype, hfind, hfound, -⟩ := sourceId_cases hsource
  obtain rfl := hfound rfl
  obtain ⟨source, hsourceRow, hmatch⟩ := Table.firstId_eq_some hfind
  simp only [Bool.and_eq_true, beq_iff_eq] at hmatch
  obtain ⟨uavRow, huavRow⟩ := uavId_get? huav
  obtain ⟨deviceRow, hdeviceRow⟩ := deviceId_get? hdevice
  have hsourceAdds : afterDevice.Adds (fun _ => True) c' :=
    sourceId_adds hsource trivial fun _ => trivial
  have hdeviceAdds : afterStatus.Adds (fun _ => True) afterDevice :=
    deviceId_adds hdevice trivial fun _ => trivial
  have hstatusAdds : afterUav.Adds (fun _ => True) afterStatus := recordId_adds hstatus trivial
  -- what was found first is still there at the end
  have huavAfter := ((hstatusAdds.trans hdeviceAdds).trans hsourceAdds).grows.uav.get? huavRow
  have hstatusAfter := ((hdeviceAdds.trans hsourceAdds).grows.dictionary .statustypes).get?
    (recordId_get? hstatus)
  have hdeviceAfter := hsourceAdds.grows.devices.get? hdeviceRow
  refine ⟨?_, source, ?_, hmatch.2, ?_⟩
  · simp only [Store.infoReferences, infoRow, uavInfoOf, lastInsertId, uint_of_get? huavAfter,
      uint_of_get? hdeviceAfter, uint_of_get? hsourceRow, uint_of_get? hstatusAfter,
      Store.references_of_get? huavAfter, Store.references_of_get? hdeviceAfter,
      Store.references_of_get? hsourceRow, Store.references_of_get? hstatusAfter, Bool.and_self]
  · change c'.store.sources.get? (uint sourceId) = some source
    rw [uint_of_get? hsourceRow, hsourceRow]
  · rw [hmatch.1, recordId_get? htype]

end Built

theorem namesItsRows_of_hasSource {positionData : UAVPositionData}
    {role uavType status deviceType sourceType : String} {info : UavInfo}
    {c c' : DbContents} (hrun : (uavInfo positionData role uavType status deviceType sourceType).run
      c = some (info, c'))
    (htyped : c.store.SourcesTyped) :
    (c.store.HasSource positionData sourceType →
      c'.store.NamesItsRows positionData sourceType (infoRow info)) ∧
      (¬c.store.HasSource positionData sourceType → info.source = 2 ^ 32 - 1) := by
  obtain ⟨uavKey, statusKey, deviceKey, sourceKey, afterUav, afterStatus, afterDevice, huav,
    hstatus, hdevice, hsource, rfl⟩ := uavInfo_cases hrun
  rw [← sourceKey_isSome_iff huav hstatus hdevice hsource htyped]
  cases sourceKey with
  | none => exact ⟨fun hhas => absurd hhas Bool.false_ne_true, fun _ => rfl⟩
  | some sourceId =>
      exact ⟨fun _ => namesItsRows_of_found huav hstatus hdevice hsource,
        fun hhas => absurd rfl hhas⟩

/-- Where nothing but records was refused up to the end, the session is healthy when the record is
stored. -/
theorem healthy_uavInfoFor {db : Session} {positionData : UAVPositionData}
    {role uavType status deviceType sourceType : String} (hhealthy : db.Healthy)
    (hclean : ((recordOf ((uavInfoFor positionData role uavType status deviceType sourceType).run
      db).1 true).run ((uavInfoFor positionData role uavType status deviceType sourceType).run
      db).2).2.CleanButRecords) :
    ((uavInfoFor positionData role uavType status deviceType sourceType).run db).2.Healthy := by
  have hbuild : Executes True NotInfo
    (uavInfoFor positionData role uavType status deviceType sourceType) :=
    executes_uavInfoFor trivial _ _ _ _ _ _
  have hstore : Executes True (fun _ => True) (recordOf
      ((uavInfoFor positionData role uavType status deviceType sourceType).run db).1 true) :=
    executes_recordOf _ _ trivial
  obtain ⟨looked, hlooked, hlookedWithin, hopen, -⟩ := hbuild db
  obtain ⟨_, hlog, -, -, -⟩ := hstore
    ((uavInfoFor positionData role uavType status deviceType sourceType).run db).2
  refine ⟨hopen.trans hhealthy.1, fun e he => ?_⟩
  have hmem := he
  rw [hlooked, List.mem_append] at hmem
  rcases hmem with hold | hnew
  · exact hhealthy.2 e hold
  · exact hclean e (by rw [hlog]; exact List.mem_append_left _ he)
      (DbEvent.infoRow?_of_notInfo (hlookedWithin e hnew))

/-- **A record names its rows exactly where its source was there before.** -/
theorem addUavInfoToDb_passesRecord_iff (w : World) (positionData : UAVPositionData)
    (role uavType status deviceType sourceType : String)
    (tail tailStdDev : List QPointF) (hhealthy : w.m_dbController.Healthy)
    (htyped : w.m_dbController.store.SourcesTyped)
    (hclean : ((addUavInfoToDb positionData role uavType status deviceType sourceType true tail
      tailStdDev).run w).2.m_dbController.CleanButRecords) :
    PassesRecord w ((addUavInfoToDb positionData role uavType status deviceType sourceType true tail
      tailStdDev).run w).2 positionData sourceType ↔
      w.m_dbController.store.HasSource positionData sourceType := by
  rw [PassesRecord]
  rw [addUavInfoToDb_session, recordPosition, run_bind] at hclean ⊢
  let built := (uavInfoFor positionData role uavType status deviceType sourceType).run
    w.m_dbController
  change ((recordOf built.1 true).run built.2).2.CleanButRecords at hclean
  change (∃ row, w.m_dbController.recordsSince ((recordOf built.1 true).run built.2).2 = [row] ∧
    ((recordOf built.1 true).run built.2).2.store.NamesItsRows positionData sourceType row) ↔ _
  have hbuild : Executes True NotInfo
    (uavInfoFor positionData role uavType status deviceType sourceType) :=
    executes_uavInfoFor trivial _ _ _ _ _ _
  obtain ⟨looked, hlooked, hlookedWithin, -⟩ := hbuild w.m_dbController
  have hstore : Executes True (fun _ => True) (recordOf built.1 true) :=
    executes_recordOf _ _ trivial
  have hgrows := (hstore built.2).grows
  have hbuilt : built.2.Healthy := healthy_uavInfoFor hhealthy hclean
  have hrun := (refines_uavInfoFor positionData role uavType status deviceType sourceType).run
    w.m_dbController hbuilt
  obtain ⟨hnames, hmissing⟩ := namesItsRows_of_hasSource hrun htyped
  obtain ⟨mid, huav, hadds⟩ := uavInfo_uavId hrun
  obtain ⟨uavRow, huavRow⟩ := uavId_get? huav
  obtain ⟨new, hnew, hrows⟩ := recordOf_log hbuilt (hadds.grows.uav.get? huavRow) hclean
  have hrecords : w.m_dbController.recordsSince ((recordOf built.1 true).run built.2).2
    = [infoRow built.1] := by
    rw [Session.recordsSince_of_append (looked ++ new) (by rw [hnew, hlooked, List.append_assoc]),
      List.filterMap_append,
      filterMap_infoRow?_of_notInfo hlookedWithin, hrows, List.nil_append]
  rw [hrecords]
  constructor
  · rintro ⟨row, hrow, hrefs, -⟩
    rw [← (List.cons.inj hrow).1] at hrefs
    by_contra hhas
    -- the record names the source row of the largest key there is, which no row has
    simp only [Store.infoReferences, Bool.and_eq_true] at hrefs
    obtain ⟨source, hsource⟩ := Option.isSome_iff_exists.mp hrefs.1.2
    have hlt := Table.lt_limit_of_get? _ hsource
    rw [show (infoRow built.1).source = 2 ^ 32 - 1 from hmissing hhas] at hlt
    exact absurd hlt (by decide)
  · intro hhas
    obtain ⟨hrefs, source, hsource, hid, htype⟩ := hnames hhas
    exact ⟨infoRow built.1, rfl, hgrows.references _ hrefs, source, hgrows.sources.get? hsource,
      hid, (hgrows.dictionary _).get? htype⟩

/-- A board seen for the first time, with a source that is not in the database. -/
def firstPosition : UAVPositionData :=
  { boardID := 7, latitude := 55, longitude := 37, dateTime := ⟨0, 0⟩ }

/-- A message on a new connection to a database. -/
def firstMessage (store : Store) : World × World :=
  let w : World := ⟨Session.connect store [], { m_receiversList := [] }, []⟩
  (w, ((addUavInfoToDb firstPosition OUR_UAV_ROLE "UnknownUavType" "UnknownStatus"
    "UnknownDeviceType" "UnknownSourceType" true [] []).run w).2)

theorem addUavInfoToDb_first_source :
    (firstMessage .empty).1.m_dbController.Healthy ∧
    (firstMessage .empty).1.m_dbController.store.SourcesTyped ∧
      (firstMessage .empty).2.m_dbController.CleanButRecords ∧
      ¬PassesRecord (firstMessage .empty).1 (firstMessage .empty).2 firstPosition
        "UnknownSourceType" := by
  refine ⟨⟨rfl, by decide⟩, fun r hr => absurd hr List.not_mem_nil, by decide, ?_⟩
  rintro ⟨row, hrow, hrefs, -⟩
  have hmissing : ((firstMessage .empty).1.m_dbController.recordsSince
    (firstMessage .empty).2.m_dbController).map
      (firstMessage .empty).2.m_dbController.store.infoReferences = [false] := by decide
  rw [hrow, List.map_singleton, hrefs] at hmissing
  exact absurd hmissing (by decide)

/-- The database with the names, the role, the device and the source the board needs. -/
def knownSource : Store :=
  [Write.insertDictionary .sourcetypes "UnknownSourceType",
    .insertSource ⟨1, UAV_AUTOPILOT_SOURCE⟩].foldl
    (fun s w => ((s.apply w).map Prod.snd).getD s) .empty

theorem addUavInfoToDb_passesRecord_iff_knownSource :
    PassesRecord (firstMessage knownSource).1 (firstMessage knownSource).2 firstPosition
      "UnknownSourceType" :=
  (addUavInfoToDb_passesRecord_iff (firstMessage knownSource).1 firstPosition OUR_UAV_ROLE
    "UnknownUavType" "UnknownStatus" "UnknownDeviceType"
    "UnknownSourceType" [] [] ⟨rfl, by decide⟩ (by decide) (by decide)).mpr
      ⟨1, by decide, by decide⟩

end DbUavManager

end ArmOd
