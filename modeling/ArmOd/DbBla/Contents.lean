import ArmOd.DbBla.DbUavManager

/-!
# The database without its failures

When every statement succeeds, what a connection does is a function of the tables alone: a read is a
function of the store, and a write changes the store and is remembered. `Refines f g` says that this
is what `f` does: every run of `f` that ends on an open connection without a failure is the run of
`g` on the contents. The error paths of the controller are absent from `g`, and most operations of
the component come out as one of two things: a read, or a lookup that writes where it finds nothing.
-/

namespace ArmOd
/-- What a connection leaves behind when nothing fails: the tables, and the writes in their order.
-/
structure DbContents where
  store : Store
  written : List Write

namespace Store

/-- The role under a key, as the controller reads it. -/
def uavRole (s : Store) (roleId : Nat) : UavRole :=
  match s.uavroles.get? roleId with
  | some row => { id := uint roleId, code := row.code, name := row.name }
  | none => { id := INVALID_INDEX }

/-- The UAV under a key, as the controller reads it. -/
def uavOf (s : Store) (id : Nat) : Uav :=
  match s.uav.get? id with
  | some row => DbUavController.readUav id row
  | none => { id := INVALID_INDEX }

def sourceOf (s : Store) (id : Nat) : Source :=
  match s.sources.get? id with
  | some row =>
      { id := uint id, sourceTypeId := uint row.sourceTypeId, sourceId := uint row.sourceId }
  | none => { id := -1 }

/-- The role code of the UAV under a key. -/
def roleOf (s : Store) (id : Nat) : Option String :=
  (s.uav.get? id).bind fun row => (s.uavroles.get? row.roleId).map RoleRow.code

end Store

/-- A computation on the contents, undefined where the server would refuse a write. -/
abbrev StoreM := StateT DbContents Option

namespace StoreM

def read {α : Type} (f : Store → α) : StoreM α := fun c => some (f c.store, c)

def exec (w : Write) : StoreM Nat :=
  fun c => (c.store.apply w).map fun (id, store) => (id, ⟨store, c.written ++ [w]⟩)

@[simp] theorem run_read {α : Type} (f : Store → α) (c : DbContents) : (read f).run c = some
  (f c.store, c) := rfl

@[simp] theorem run_exec (w : Write) (c : DbContents) :
    (exec w).run c = (c.store.apply w).map fun (id, store) => (id, ⟨store, c.written ++ [w]⟩) := rfl

/-- The row looked for, or else the result of another computation. -/
def getOrElse (find : Store → Option Nat) (g : StoreM Nat) : StoreM Nat := do
  match ← read find with
  | some id => return id
  | none => g

/-- The row looked for, or else the row written. -/
def getOrCreate (find : Store → Option Nat) (w : Write) : StoreM Nat := getOrElse find (exec w)

end StoreM

namespace DbEvent

def written? : DbEvent → Option Write
  | .write w true => some w
  | _ => none

end DbEvent

namespace Session

def contents (s : Session) : DbContents := ⟨s.store, s.log.filterMap DbEvent.written?⟩

/-- The connection is open and nothing has failed. -/
def Healthy (s : Session) : Prop := s.isOpen = true ∧ s.Clean

theorem healthy_of_append {s : Session} {store : Store} {faults : List Bool} {e : DbEvent}
    (h : Session.Healthy ⟨s.isOpen, store, faults, s.log ++ [e]⟩) : s.Healthy ∧ e.ok = true :=
  ⟨⟨h.1, fun e' he' => h.2 e' (List.mem_append_left _ he')⟩,
    h.2 e (List.mem_append_right _ List.mem_cons_self)⟩

theorem contents_append (s : Session) (store : Store) (faults : List Bool) (e : DbEvent) :
    contents ⟨s.isOpen, store, faults, s.log ++ [e]⟩ =
      ⟨store, s.contents.written ++ e.written?.toList⟩ := by
  cases hw : e.written? <;> simp [contents, hw]

end Session

/-- Where nothing fails, `f` does what `g` does. -/
abbrev Refines {α : Type} (f : DbM α) (g : StoreM α) : Prop :=
  Simulates Session.Healthy Session.contents f g

namespace DbM

theorem refines_isOpen : Refines isOpen (pure true) where
  back := fun _ h => h
  run := by
    intro s h
    have hopen : s.isOpen = true := h.1
    change some (true, s.contents) = some (s.isOpen, s.contents)
    rw [hopen]

theorem refines_onServer {α : Type} {refused : α} {f : DbM α} {g : StoreM α} (hf : Refines f g) :
    Refines (onServer refused f) g where
  back := by
    intro s h
    change Session.Healthy (onServer refused f s).2 at h
    rw [onServer] at h
    split at h
    · exact hf.back s h
    · exact h
  run := by
    intro s h
    change Session.Healthy (onServer refused f s).2 at h
    change _ = some ((onServer refused f s).1, (onServer refused f s).2.contents)
    rw [onServer] at h ⊢
    split at h
    · rw [if_pos ‹_›]
      exact hf.run s h
    · exact absurd h.1 ‹_›

/-- An event that is not a write is not seen in the tables. -/
theorem refines_event {e : DbEvent} (he : e.written? = none) :
    Refines (onServer false fun s => (true, { s with log := s.log ++ [e] })) (pure true) := by
  refine refines_onServer ⟨fun _ h => (Session.healthy_of_append h).1, fun s _ => ?_⟩
  change some (true, s.contents) = some
    (true, Session.contents ⟨s.isOpen, s.store, s.faults, s.log ++ [_]⟩)
  rw [Session.contents_append, he, Option.toList_none, List.append_nil]
  rfl

theorem refines_transaction : Refines transaction (pure true) := refines_event rfl

theorem refines_commit : Refines DbM.commit (pure true) := refines_event rfl

theorem refines_prepare : Refines prepare (pure true) := by
  refine refines_onServer ⟨fun _ h => (Session.healthy_of_append h).1, fun s h => ?_⟩
  have hok := (Session.healthy_of_append h).2
  change some (true, s.contents) = some
    (!s.faults.headD false, Session.contents ⟨s.isOpen, s.store, s.faults.tail, s.log ++ [_]⟩)
  rw [Session.contents_append, show (!s.faults.headD false) = true from hok]
  simp [DbEvent.written?, Session.contents]

theorem refines_execSelect {α : Type} (read : Store → List α) : Refines (execSelect read)
    (StoreM.read fun s => some (read s)) := by
  refine refines_onServer ⟨fun _ h => (Session.healthy_of_append h).1, fun s h => ?_⟩
  have hok : (!s.faults.headD false) = true := (Session.healthy_of_append h).2
  change some (some (read s.store), s.contents) =
    some (if (!s.faults.headD false) = true then some (read s.store) else none,
    Session.contents ⟨s.isOpen, s.store, s.faults.tail, s.log ++ [_]⟩)
  rw [Session.contents_append, if_pos hok]
  simp [DbEvent.written?, Session.contents]

theorem refines_execWrite (w : Write) : Refines (execWrite w) (some <$> StoreM.exec w) := by
  refine refines_onServer ⟨fun s h => ?_, fun s h => ?_⟩
  · dsimp only [StateT.run] at h
    split at h <;> exact (Session.healthy_of_append h).1
  · rw [StateT.run_map, StoreM.run_exec]
    simp only [StateT.run] at h ⊢
    split at h
    · rename_i id store hfault happly
      simp only [Session.contents_append]
      simp [Session.contents, happly, DbEvent.written?]
    · exact absurd (Session.healthy_of_append h).2 Bool.noConfusion

end DbM

namespace DbUavController

open DbM

theorem refines_selectRows {α : Type} (read : Store → List α) : Refines (selectRows read)
    (StoreM.read fun s => some (read s)) :=
  refines_isOpen.bind fun _ => Simulates.ite (fun _ => Simulates.pure _) fun _ =>
    refines_prepare.bind fun _ => Simulates.ite (fun _ => Simulates.pure _) fun _ =>
      refines_execSelect read

theorem refines_select {α β : Type} (read : Store → List α) (f : Option (List α) → β) :
    Refines (do return f (← selectRows read)) (StoreM.read fun s => f (some (read s))) :=
  (refines_selectRows read).bind fun rows => Simulates.pure (f rows)

theorem refines_execWrite_id (w : Write) : Refines (do return lastInsertId (← execWrite w))
    (Nat.cast <$> StoreM.exec w) := by
  have h := (refines_execWrite w).bind fun id => Simulates.pure (lastInsertId id)
  rw [bind_map_left, bind_pure_comp] at h
  exact h

theorem refines_insertRow (w : Write) : Refines (insertRow w) (Nat.cast <$> StoreM.exec w) :=
  refines_isOpen.guard (refines_prepare.guard (refines_execWrite_id w))

theorem refines_getDictionaryRecord (dictionary : Dictionary) (name : String) :
    Refines (getDictionaryRecord dictionary name)
      (StoreM.read fun s => lastInsertId ((s.dictionary dictionary).firstId (· == name))) := by
  refine (refines_select _ _).of_abs_eq (congrArg _ (funext fun s => ?_))
  rw [firstIndex, Option.bind_some, List.head?_map, Table.firstId]

/-- The role read out of the first row of a result. -/
def roleOfRows (roleId : Nat) (rows : Option (List RoleRow)) : UavRole :=
  match rows.bind List.head? with
  | some row => { id := uint roleId, code := row.code, name := row.name }
  | none => { id := INVALID_INDEX }

theorem refines_getUavRole (roleId : Nat) : Refines (getUavRole roleId)
    (StoreM.read fun s => s.uavRole roleId) := by
  have hread : getUavRole roleId =
    do return roleOfRows roleId (← selectRows fun s => (s.uavroles.get? roleId).toList) := by
    refine congrArg _ (funext fun rows => ?_)
    rw [roleOfRows]
    cases rows.bind List.head? <;> rfl
  rw [hread]
  refine (refines_select _ _).of_abs_eq (congrArg _ (funext fun s => ?_))
  cases hrow : s.uavroles.get? roleId <;> simp [Store.uavRole, roleOfRows, hrow]

theorem refines_getUav (id : Nat) : Refines (getUav id) (StoreM.read fun s => s.uavOf id) := by
  refine (refines_select _ _).of_abs_eq (congrArg _ (funext fun s => ?_))
  cases hrow : s.uav.get? id <;> simp [Store.uavOf, hrow, firstUav]

theorem refines_getUavRoleByCode (code : String) :
    Refines (getUavRoleByCode code)
      (StoreM.read fun s =>
      { id := lastInsertId (s.uavroles.firstId fun row => row.code == code) }) := by
  refine (refines_select _ fun rows => ({ id := firstIndex rows } : UavRole)).of_abs_eq
    (congrArg _ (funext fun s => ?_))
  rw [firstIndex, Option.bind_some, List.head?_map, Table.firstId]

theorem firstUav_id (rows : List (Nat × UavRow)) : (firstUav (some rows)).id = lastInsertId
    (rows.head?.map Prod.fst) := by
  cases rows <;> rfl

theorem refines_getUavByUavId (uavId : Nat) :
    Refines (getUavByUavId uavId) (StoreM.read fun s =>
      firstUav (some (s.uav.select fun row => row.uavId == uavId))) :=
  refines_isOpen.guard (refines_transaction.bind fun _ =>
    refines_prepare.guard ((refines_execSelect _).bind fun _ => Simulates.pure _))

theorem refines_addUav (uav : Uav) : Refines (addUav uav) (do
    let role ← StoreM.read fun s => s.uavRole uav.roleId
    Nat.cast <$> StoreM.exec (.insertUav (uavRow role.code uav))) :=
  refines_isOpen.guard (refines_prepare.guard
    ((refines_getUavRole _).bind fun _ => refines_execWrite_id _))

/-- Looking a row up, and adding it where it is missing. -/
theorem refines_getOrElse {get add : DbM Int} {find : Store → Option Nat} {g : StoreM Nat}
    (hget : Refines get (StoreM.read fun s => lastInsertId (find s)))
    (hadd : Refines add (Nat.cast <$> g)) :
    Refines (do let id ← get; if id < 0 then add else return id)
      (Nat.cast <$> StoreM.getOrElse find g) := by
  have h := hget.bind fun id => Simulates.ite (c := id < 0) (fun _ => hadd) fun _ =>
    Simulates.pure id
  refine h.of_abs_eq (StateT.ext fun c => ?_)
  cases hfind : find c.store with
  | none => simp [StoreM.getOrElse, hfind, lastInsertId, INVALID_INDEX]
  | some id =>
      have hid : ¬((id : Int) < 0) := Int.not_lt.mpr (Int.natCast_nonneg id)
      simp [StoreM.getOrElse, hfind, lastInsertId, hid]

/-- The devices read out of the rows of a result. -/
def devicesOfRows (rows : Option (List (Nat × DeviceRow))) : Bool × List Devices :=
  match rows with
  | some rows => (true, rows.map fun (id, row) =>
        { id := id, deviceId := uint row.deviceTypeId, port := uint row.port, uavId := uint row.uavId })
  | none => (false, [])

theorem refines_getDevicesByType (deviceTypeId : Nat) :
    Refines (getDevicesByType deviceTypeId)
      (StoreM.read fun s => (true, (s.devices.select fun row =>
      row.deviceTypeId == deviceTypeId).map
      fun (id, row) => {
        id := id, deviceId := uint row.deviceTypeId, port := uint row.port, uavId := uint row.uavId
      })) := by
  have hread : getDevicesByType deviceTypeId =
    do return devicesOfRows (← selectRows fun s => s.devices.select fun row =>
    row.deviceTypeId == deviceTypeId) := by
    refine congrArg _ (funext fun rows => ?_)
    cases rows <;> rfl
  rw [hread]
  exact refines_select _ _

theorem refines_getSourceId (sourceId sourceTypeId : Nat) :
    Refines (getSourceId sourceId sourceTypeId)
      (StoreM.read fun s => lastInsertId
      (s.sources.firstId fun row => row.sourceTypeId == sourceTypeId && row.sourceId ==
      sourceId)) := by
  refine (refines_select _ _).of_abs_eq (congrArg _ (funext fun s => ?_))
  rw [firstIndex, Option.bind_some, List.head?_map, Table.firstId]

def sourceOfRows (id : Nat) (rows : Option (List SourceRow)) : Source :=
  match rows.bind List.head? with
  | some row =>
      { id := uint id, sourceTypeId := uint row.sourceTypeId, sourceId := uint row.sourceId }
  | none => { id := -1 }

theorem refines_getSource (id : Nat) : Refines (getSource id)
    (StoreM.read fun s => s.sourceOf id) := by
  have hread : getSource id = do
      return sourceOfRows id (← selectRows fun s => (s.sources.get? id).toList) := by
    refine congrArg _ (funext fun rows => ?_)
    rw [sourceOfRows]
    cases rows.bind List.head? <;> rfl
  rw [hread]
  refine (refines_select _ _).of_abs_eq (congrArg _ (funext fun s => ?_))
  cases hrow : s.sources.get? id <;> simp [Store.sourceOf, sourceOfRows, hrow]

end DbUavController

end ArmOd
