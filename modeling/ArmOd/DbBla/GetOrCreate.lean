import ArmOd.DbBla.Growth

/-!
# The rows a position needs

What `addUavInfoToDb` does to the tables before the record is stored, as a program of lookups that
write where they find nothing, and the proof that the manager's own text does this.
-/

namespace ArmOd

namespace StoreM

def recordId (dictionary : Dictionary) (name : String) : StoreM Nat :=
  getOrCreate (fun s => (s.dictionary dictionary).firstId (· == name))
    (.insertDictionary dictionary name)

def roleId (code : String) : StoreM Nat :=
  getOrCreate (fun s => s.uavroles.firstId fun row => row.code == code) (.insertRole ⟨code, code⟩)

def createUav (positionData : UAVPositionData) (role uavType : String) : StoreM Nat := do
  let uavTypeId ← recordId .uavtypes uavType
  let roleId ← roleId role
  let uavRole ← read fun s => s.uavRole (uint roleId)
  exec (.insertUav (DbUavController.uavRow uavRole.code
    (DbUavManager.newUav positionData uavTypeId roleId)))

def uavId (positionData : UAVPositionData) (role uavType : String) : StoreM Nat :=
  getOrElse (fun s => s.uav.firstId fun row => row.uavId == positionData.boardID)
    (createUav positionData role uavType)

def deviceId (positionData : UAVPositionData) (deviceType : String) : StoreM Nat := do
  let deviceTypeId ← recordId .devicetypes deviceType
  getOrCreate (fun s => s.devices.firstId fun row => row.deviceTypeId == uint deviceTypeId)
    (.insertDevice ⟨uint deviceTypeId, 0, positionData.boardID⟩)

/-- The key of a source that was there; nothing for one that had to be added. -/
def sourceId (positionData : UAVPositionData) (sourceType : String) : StoreM (Option Nat) := do
  let sourceTypeId ← recordId .sourcetypes sourceType
  match ← read fun s => s.sources.firstId fun row =>
    row.sourceTypeId == uint sourceTypeId && row.sourceId == positionData.sourceType with
  | some id => return some id
  | none =>
    let _ ← exec (.insertSource ⟨uint sourceTypeId, positionData.sourceType⟩)
    return none

def uavInfo (positionData : UAVPositionData) (role uavType status deviceType sourceType : String) :
    StoreM UavInfo := do
  let uavId ← uavId positionData role uavType
  let statusId ← recordId .statustypes status
  let deviceId ← deviceId positionData deviceType
  let sourceId ← sourceId positionData sourceType
  return DbUavManager.uavInfoOf positionData uavId statusId deviceId
    (DbUavController.lastInsertId sourceId)

end StoreM

/-! ### What the lookups leave -/

namespace StoreM

variable {c c' : DbContents} {id : Nat}

theorem uint_of_get? {α : Type} {t : SqlTable α} {a : α} (h : t.get? id = some a) : uint id = id :=
  uint_of_lt (lt_of_lt_of_le (t.lt_limit_of_get? h) (by decide))

theorem recordId_adds {W : Write → Prop} {d : Dictionary} {name : String}
    (h : (recordId d name).run c = some (id, c'))
    (hW : W (.insertDictionary d name)) : c.Adds W c' :=
  .of_getOrCreate h hW

theorem recordId_firstId {d : Dictionary} {name : String}
    (h : (recordId d name).run c = some (id, c')) :
    (c'.store.dictionary d).firstId (· == name) = some id := by
  rcases run_getOrElse_eq_some.mp h with ⟨hfind, rfl⟩ | ⟨hnone, hexec⟩
  · exact hfind
  · obtain ⟨t, hinsert, hstore⟩ := Store.apply_insertDictionary (run_exec_eq_some.mp hexec).1
    have ht : c'.store.dictionary d = t := by rw [hstore]; exact Function.update_self ..
    rw [ht, Table.firstId_insert hinsert, hnone, beq_self_eq_true, if_pos rfl]
    rfl

theorem recordId_get? {d : Dictionary} {name : String}
    (h : (recordId d name).run c = some (id, c')) :
    (c'.store.dictionary d).get? id = some name := by
  obtain ⟨found, hget, hname⟩ := Table.firstId_eq_some (recordId_firstId h)
  rw [hget, eq_of_beq hname]

theorem roleId_get? {code : String} (h : (roleId code).run c = some (id, c')) :
    ∃ row, c'.store.uavroles.get? id = some row ∧ row.code = code := by
  rcases run_getOrElse_eq_some.mp h with ⟨hfind, rfl⟩ | ⟨_, hexec⟩
  · obtain ⟨row, hget, hcode⟩ := Table.firstId_eq_some hfind
    exact ⟨row, hget, eq_of_beq hcode⟩
  · obtain ⟨t, hinsert, hstore⟩ := Store.apply_insertRole (run_exec_eq_some.mp hexec).1
    rw [hstore]
    exact ⟨_, Table.insert_get? hinsert, rfl⟩

theorem deviceId_get? {positionData : UAVPositionData} {deviceType : String}
    (h : (deviceId positionData deviceType).run c = some (id, c')) :
    ∃ row, c'.store.devices.get? id = some row := by
  obtain ⟨typeId, mid, _, hdevice⟩ := run_bind_eq_some.mp h
  rcases run_getOrElse_eq_some.mp hdevice with ⟨hfind, rfl⟩ | ⟨_, hexec⟩
  · obtain ⟨row, hget, _⟩ := Table.firstId_eq_some hfind
    exact ⟨row, hget⟩
  · obtain ⟨t, hinsert, hstore⟩ := Store.apply_insertDevice (run_exec_eq_some.mp hexec).1
    rw [hstore]
    exact ⟨_, Table.insert_get? hinsert⟩

theorem deviceId_adds {W : Write → Prop} {positionData : UAVPositionData} {deviceType : String}
    (h : (deviceId positionData deviceType).run c = some (id, c'))
    (hname : W (.insertDictionary .devicetypes deviceType))
    (hrow : ∀ row, W (.insertDevice row)) : c.Adds W c' := by
  obtain ⟨typeId, mid, htype, hdevice⟩ := run_bind_eq_some.mp h
  exact (recordId_adds htype hname).trans (.of_getOrCreate hdevice (hrow _))

/-! ### The UAV of a position -/

/-- A write to a table of names, roles, devices or sources. -/
def IsAuxiliary : Write → Prop
  | .insertRole _ | .insertDictionary _ _ | .insertDevice _ | .insertSource _ => True
  | _ => False

theorem ne_insertUav_of_isAuxiliary {w : Write} (h : IsAuxiliary w) (row : UavRow) :
    w ≠ .insertUav row := by
  rintro rfl
  exact h

/-- What a UAV added for a position looks like: one row is added, under the key the controller
stores it by, with the role asked for. -/
def Created (positionData : UAVPositionData) (role : String) (id : Nat)
    (c c' : DbContents) : Prop :=
  ∃ row mid, c.Adds IsAuxiliary mid ∧ c.store.uav.insert row = some (id, c'.store.uav) ∧
    c'.written = mid.written ++ [.insertUav row] ∧ mid.Adds (· = .insertUav row) c' ∧
    row.uavId = DbUavController.storedUavId role (DbUavManager.newUav positionData 0 0) ∧
      c'.store.roleOf id = some role

theorem createUav_created {positionData : UAVPositionData} {role uavType : String}
    (h : (createUav positionData role uavType).run c = some (id, c')) :
    Created positionData role id c c' := by
  obtain ⟨typeId, afterType, htype, h⟩ := run_bind_eq_some.mp h
  obtain ⟨roleKey, afterRole, hrole, h⟩ := run_bind_eq_some.mp h
  obtain ⟨uavRole, mid, hread, hexec⟩ := run_bind_eq_some.mp h
  obtain ⟨rfl, rfl⟩ := run_read_eq_some.mp hread
  obtain ⟨roleRow, hget, hcode⟩ := roleId_get? hrole
  have haux : c.Adds IsAuxiliary mid :=
    (recordId_adds htype trivial).trans (.of_getOrCreate hrole trivial)
  have hcodeRead : (mid.store.uavRole (uint roleKey)).code = role := by
    rw [Store.uavRole, uint_of_get? hget, hget, ← hcode]
  rw [hcodeRead] at hexec
  obtain ⟨happly, hwritten⟩ := run_exec_eq_some.mp hexec
  obtain ⟨t, hinsert, hstore⟩ := Store.apply_insertUav happly
  refine ⟨_, mid, haux, ?_, hwritten, .of_exec hexec rfl, rfl, ?_⟩
  · rw [← haux.uav_eq fun w hw row => ne_insertUav_of_isAuxiliary hw row, hinsert, hstore]
  · rw [Store.roleOf, hstore, Table.insert_get? hinsert]
    change (mid.store.uavroles.get? (uint roleKey)).map RoleRow.code = some role
    rw [uint_of_get? hget, hget, Option.map_some, hcode]

/-- **The UAV of a position**: the first row under its board id, or a new row. -/
theorem uavId_cases {positionData : UAVPositionData} {role uavType : String}
    (h : (uavId positionData role uavType).run c = some (id, c')) :
    (c.store.uav.firstId fun row => row.uavId == positionData.boardID) = some id ∧ c' = c ∨
      (c.store.uav.firstId fun row => row.uavId == positionData.boardID) = none ∧
      Created positionData role id c c' :=
  (run_getOrElse_eq_some.mp h).imp_right fun h => ⟨h.1, createUav_created h.2⟩

theorem Created.get? {positionData : UAVPositionData} {role : String}
    (h : Created positionData role id c c') :
    ∃ row, c'.store.uav.get? id = some row := by
  obtain ⟨row, _, _, hinsert, _⟩ := h
  exact ⟨row, Table.insert_get? hinsert⟩

theorem uavId_get? {positionData : UAVPositionData} {role uavType : String}
    (h : (uavId positionData role uavType).run c = some (id, c')) :
    ∃ row, c'.store.uav.get? id = some row := by
  rcases uavId_cases h with ⟨hfind, rfl⟩ | ⟨_, hcreated⟩
  · obtain ⟨row, hget, _⟩ := Table.firstId_eq_some hfind
    exact ⟨row, hget⟩
  · exact hcreated.get?

theorem uavId_adds {W : Write → Prop} {positionData : UAVPositionData} {role uavType : String}
    (h : (uavId positionData role uavType).run c = some (id, c'))
    (hname : W (.insertDictionary .uavtypes uavType))
    (hrole : W (.insertRole ⟨role, role⟩)) (huav : ∀ row, W (.insertUav row)) : c.Adds W c' := by
  rcases run_getOrElse_eq_some.mp h with ⟨_, rfl⟩ | ⟨_, h⟩
  · exact .refl c'
  · obtain ⟨typeId, afterType, htype, h⟩ := run_bind_eq_some.mp h
    obtain ⟨roleKey, afterRole, hroleRun, h⟩ := run_bind_eq_some.mp h
    obtain ⟨uavRole, mid, hread, hexec⟩ := run_bind_eq_some.mp h
    obtain ⟨rfl, rfl⟩ := run_read_eq_some.mp hread
    exact (recordId_adds htype hname).trans
      ((DbContents.Adds.of_getOrCreate hroleRun hrole).trans (.of_exec hexec (huav _)))

/-! ### The source of a position -/

theorem sourceId_cases {positionData : UAVPositionData} {sourceType : String} {source : Option Nat}
    (h : (sourceId positionData sourceType).run c = some (source, c')) :
    ∃ typeId mid, (recordId .sourcetypes sourceType).run c = some (typeId, mid) ∧
      ((mid.store.sources.firstId fun row =>
      row.sourceTypeId == typeId && row.sourceId == positionData.sourceType) = source ∧
        (source.isSome = true → c' = mid) ∧
        (source = none → ∃ id, (exec (.insertSource ⟨typeId, positionData.sourceType⟩)).run mid
          = some (id, c'))) := by
  obtain ⟨typeId, mid, htype, h⟩ := run_bind_eq_some.mp h
  rw [uint_of_get? (recordId_get? htype)] at h
  obtain ⟨found, mid', hread, h⟩ := run_bind_eq_some.mp h
  obtain ⟨rfl, rfl⟩ := run_read_eq_some.mp hread
  refine ⟨typeId, mid', htype, ?_⟩
  cases hfind : mid'.store.sources.firstId fun row =>
    row.sourceTypeId == typeId && row.sourceId == positionData.sourceType with
  | some found =>
      rw [hfind] at h
      obtain ⟨rfl, rfl⟩ := run_pure_eq_some.mp h
      exact ⟨rfl, fun _ => rfl, fun h => absurd h (Option.some_ne_none _)⟩
  | none =>
      rw [hfind] at h
      obtain ⟨id, c'', hexec, h⟩ := run_bind_eq_some.mp h
      obtain ⟨rfl, rfl⟩ := run_pure_eq_some.mp h
      exact ⟨rfl, fun h => absurd h Bool.noConfusion, fun _ => ⟨id, hexec⟩⟩

theorem sourceId_adds {W : Write → Prop} {positionData : UAVPositionData} {sourceType : String}
    {source : Option Nat}
    (h : (sourceId positionData sourceType).run c = some (source, c'))
    (hname : W (.insertDictionary .sourcetypes sourceType))
    (hrow : ∀ row, W (.insertSource row)) : c.Adds W c' := by
  obtain ⟨typeId, mid, htype, _, hfound, hadded⟩ := sourceId_cases h
  refine (recordId_adds htype hname).trans ?_
  cases source with
  | some id =>
      rw [hfound rfl]
      exact .refl mid
  | none =>
      obtain ⟨_, hexec⟩ := hadded rfl
      exact .of_exec hexec (hrow _)

/-! ### The record of a position -/

theorem uavInfo_cases {positionData : UAVPositionData}
    {role uavType status deviceType sourceType : String} {info : UavInfo}
    (h : (uavInfo positionData role uavType status deviceType sourceType).run c = some (info, c')) :
    ∃ uavKey statusKey deviceKey sourceKey afterUav afterStatus afterDevice,
      (uavId positionData role uavType).run c = some (uavKey, afterUav) ∧
      (recordId .statustypes status).run afterUav = some (statusKey, afterStatus) ∧
      (deviceId positionData deviceType).run afterStatus = some (deviceKey, afterDevice) ∧
      (sourceId positionData sourceType).run afterDevice = some (sourceKey, c') ∧
      info = DbUavManager.uavInfoOf positionData uavKey statusKey deviceKey
        (DbUavController.lastInsertId sourceKey) := by
  obtain ⟨uavKey, afterUav, huav, h⟩ := run_bind_eq_some.mp h
  obtain ⟨statusKey, afterStatus, hstatus, h⟩ := run_bind_eq_some.mp h
  obtain ⟨deviceKey, afterDevice, hdevice, h⟩ := run_bind_eq_some.mp h
  obtain ⟨sourceKey, c'', hsource, h⟩ := run_bind_eq_some.mp h
  obtain ⟨rfl, rfl⟩ := run_pure_eq_some.mp h
  exact ⟨uavKey, statusKey, deviceKey, sourceKey, afterUav, afterStatus, afterDevice, huav, hstatus,
    hdevice, hsource, rfl⟩

theorem uavInfo_uavId {positionData : UAVPositionData}
    {role uavType status deviceType sourceType : String} {info : UavInfo}
    (h : (uavInfo positionData role uavType status deviceType sourceType).run c = some (info, c')) :
    ∃ mid, (uavId positionData role uavType).run c = some (info.uavId, mid) ∧
      mid.Adds IsAuxiliary c' := by
  obtain ⟨uavKey, statusKey, deviceKey, sourceKey, afterUav, afterStatus, afterDevice, huav,
    hstatus, hdevice, hsource, rfl⟩ := uavInfo_cases h
  obtain ⟨row, hget⟩ := uavId_get? huav
  refine ⟨afterUav, ?_, ?_⟩
  · rw [show (DbUavManager.uavInfoOf _ _ _ _ _).uavId = uint uavKey from rfl, uint_of_get? hget]
    exact huav
  · exact (recordId_adds hstatus trivial).trans
      ((deviceId_adds hdevice trivial fun _ => trivial).trans
      (sourceId_adds hsource trivial fun _ => trivial))

end StoreM

namespace DbUavManager

open DbUavController

theorem refines_recordIdFor (dictionary : Dictionary) (name : String) :
    Refines (recordIdFor (getDictionaryRecord dictionary) (addDictionaryRecord dictionary) name)
      (Nat.cast <$> StoreM.recordId dictionary name) :=
  refines_getOrElse (refines_getDictionaryRecord dictionary name) (refines_insertRow _)

theorem refines_roleIdFor (role : String) : Refines (roleIdFor role)
    (Nat.cast <$> StoreM.roleId role) := by
  have hget : Refines (UavRole.id <$> getUavRoleByCode role)
      (StoreM.read fun s => lastInsertId (s.uavroles.firstId fun row => row.code == role)) :=
    (refines_getUavRoleByCode role).bind fun _ => Simulates.pure _
  exact refines_getOrElse hget (refines_insertRow _)

theorem refines_createUav (positionData : UAVPositionData) (role uavType : String) :
    Refines (createUav positionData role uavType)
      (Nat.cast <$> StoreM.createUav positionData role uavType) := by
  have h := (refines_recordIdFor .uavtypes uavType).bind fun typeId =>
    (refines_roleIdFor role).bind fun roleId =>
    refines_addUav (newUav positionData typeId roleId)
  refine h.of_abs_eq ?_
  simp [StoreM.createUav, newUav]

theorem refines_uavIdFor (positionData : UAVPositionData) (role uavType : String) :
    Refines (uavIdFor positionData role uavType)
      (Nat.cast <$> StoreM.uavId positionData role uavType) := by
  have hget : Refines (Uav.id <$> getUavByUavId positionData.boardID)
      (StoreM.read fun s => lastInsertId
      (s.uav.firstId fun row => row.uavId == positionData.boardID)) := by
    refine ((refines_getUavByUavId _).bind fun _ => Simulates.pure _).of_abs_eq
      (StateT.ext fun c => ?_)
    simp [firstUav_id, Table.firstId]
  exact refines_getOrElse hget (refines_createUav positionData role uavType)

theorem refines_firstDevice (devices : List Devices) {add : DbM Int} {g : StoreM Int}
    (hadd : Refines add g) :
    Refines (match devices with
      | [] => add
      | device :: _ => return device.id) (match devices with
      | [] => g
      | device :: _ => return device.id) := by
  cases devices with
  | nil => exact hadd
  | cons device rest => exact Simulates.pure _

theorem refines_deviceIdFor (positionData : UAVPositionData) (deviceType : String) :
    Refines (deviceIdFor positionData deviceType)
      (Nat.cast <$> StoreM.deviceId positionData deviceType) := by
  have h := (refines_recordIdFor .devicetypes deviceType).bind fun typeId =>
    (refines_getDevicesByType (uint typeId)).bind
    fun devices => refines_firstDevice devices.2
      (refines_insertRow (.insertDevice ⟨uint typeId, 0, positionData.boardID⟩))
  refine h.of_abs_eq ?_
  rw [StoreM.deviceId, map_bind, bind_map_left]
  refine congrArg _ (funext fun typeId => StateT.ext fun c => ?_)
  cases hrows : c.store.devices.select fun row => row.deviceTypeId == uint typeId with
  | nil => simp [StoreM.getOrCreate, StoreM.getOrElse, Table.firstId, hrows]
  | cons device rest => simp [StoreM.getOrCreate, StoreM.getOrElse, Table.firstId, hrows]

theorem refines_sourceIdFor (positionData : UAVPositionData) (sourceType : String) :
    Refines (sourceIdFor positionData sourceType)
      (lastInsertId <$> StoreM.sourceId positionData sourceType) := by
  have h := (refines_recordIdFor .sourcetypes sourceType).bind fun typeId => 
    (refines_getSourceId positionData.sourceType (uint typeId)).bind fun sourceId =>
      Simulates.ite (c := sourceId < 0)
        (fun _ => (refines_insertRow (.insertSource ⟨uint typeId, positionData.sourceType⟩)).bind
        fun _ => Simulates.pure sourceId) fun _ => Simulates.pure sourceId
  refine h.of_abs_eq ?_
  rw [StoreM.sourceId, map_bind, bind_map_left]
  refine congrArg _ (funext fun typeId => StateT.ext fun c => ?_)
  cases hfind : c.store.sources.firstId fun row =>
    row.sourceTypeId == uint typeId && row.sourceId == positionData.sourceType with
  | none => simp [hfind, lastInsertId, INVALID_INDEX, Function.comp_def]
  | some id =>
      have hid : ¬((id : Int) < 0) := Int.not_lt.mpr (Int.natCast_nonneg id)
      simp [hfind, lastInsertId, hid]

theorem refines_uavInfoFor (positionData : UAVPositionData)
    (role uavType status deviceType sourceType : String) :
    Refines (uavInfoFor positionData role uavType status deviceType sourceType)
      (StoreM.uavInfo positionData role uavType status deviceType sourceType) := by
  have h := (refines_uavIdFor positionData role uavType).bind fun uavId =>
    (refines_recordIdFor .statustypes status).bind fun statusId =>
    (refines_deviceIdFor positionData deviceType).bind fun deviceId =>
    (refines_sourceIdFor positionData sourceType).bind fun sourceId =>
      Simulates.pure (uavInfoOf positionData uavId statusId deviceId sourceId)
  refine h.of_abs_eq ?_
  simp [StoreM.uavInfo]

end DbUavManager

end ArmOd
