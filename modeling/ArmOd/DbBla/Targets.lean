import ArmOd.DbBla.GetOrCreate

/-!
# Targets and missions without failures

What the operations on targets and missions do when every statement succeeds: the lookups are
functions of the tables, whether they take one statement or many, and the others are a write each.
-/

namespace ArmOd

open DbUavController

namespace Store

/-- The UAV with a public id, as the controller reads it. -/
def uavByUavId (s : Store) (uavId : Nat) : Uav :=
  firstUav (some (s.uav.select fun row => row.uavId == uavId))

def uavsByRole (s : Store) (role : String) : List Uav :=
  match s.uavroles.firstId fun row => row.code == role with
  | some roleId => (s.uav.select fun row => row.roleId == roleId).map fun (id, row) => readUav id row
  | none => []

def missionsOf (s : Store) (uavId : Nat) : List UavMission :=
  (s.uavmission.select fun row => row.uavID == uavId).map fun (id, row) => readMission id row

def targetsOf (s : Store) (id : Int) : List Target :=
  (s.target.select fun row => row.uavID == id).map fun (id, row) => readTarget id row

def targetsByUavId (s : Store) (uavId : Nat) : List Target :=
  if (s.uavByUavId uavId).id = INVALID_INDEX then [] else s.targetsOf (s.uavByUavId uavId).id

def targetsByMission (s : Store) (missionId : Nat) : List Target :=
  let targetID := ((s.uavmission.get? missionId).map fun row => row.targetID).getD 0
  (s.target.get? targetID).toList.map fun row => readTarget targetID row

def targetTypeByName (s : Store) (name : String) : Int :=
  lastInsertId ((s.dictionary .targettypes).firstId (· == name))

def targetsByUavIdAndTargetType (s : Store) (uavId : Nat) (targetType : String) : List Target :=
  (s.missionsOf uavId).flatMap fun mission =>
    (s.targetsByMission (uint mission.id)).filter fun target =>
      target.type = s.targetTypeByName targetType

variable {s s' : Store} {id : Nat}

theorem mem_uavsByRole {role : String} {enemyUav : Uav} (hmem : enemyUav ∈ s.uavsByRole role) :
    ∃ r ∈ s.uav.rows, readUav r.1 r.2 = enemyUav := by
  rw [uavsByRole] at hmem
  split at hmem
  · obtain ⟨r, hr, hread⟩ := List.mem_map.mp hmem
    exact ⟨r, List.mem_of_mem_filter hr, hread⟩
  · exact absurd hmem List.not_mem_nil

theorem apply_insertTarget {row : TargetRow} (h : s.apply (.insertTarget row) = some (id, s')) :
    (∃ uavRow, s.uav.get? row.uavID.toNat = some uavRow) ∧
      ∃ t, s.target.insert row = some (id, t) ∧ s' = { s with target := t } := by
  obtain ⟨hreferences, hinsert⟩ := Option.ite_none_right_eq_some.mp h
  exact ⟨Option.isSome_iff_exists.mp (Bool.and_eq_true_iff.mp hreferences).1,
    exists_of_map_insert hinsert⟩

theorem apply_insertMission {row : MissionRow} (h : s.apply (.insertMission row) = some (id, s')) :
    (∃ uavRow, s.uav.get? row.uavID = some uavRow) ∧
      ∃ t, s.uavmission.insert row = some (id, t) ∧ s' = { s with uavmission := t } := by
  obtain ⟨hreferences, hinsert⟩ := Option.ite_none_right_eq_some.mp h
  exact ⟨Option.isSome_iff_exists.mp (Bool.and_eq_true_iff.mp hreferences).1,
    exists_of_map_insert hinsert⟩

end Store

namespace StoreM

theorem read_bind_read {α β : Type} (f : Store → α) (g : α → Store → β) :
    (do let a ← read f; read (g a)) = read fun s => g (f s) s := rfl

theorem foldlM_read {α γ : Type} (body : α → γ → Store → α) (xs : List γ) (a : α) :
    xs.foldlM (fun a c => read (body a c)) a =
      read fun s => xs.foldl (fun a c => body a c s) a := by
  induction xs generalizing a with
  | nil => rfl
  | cons x xs ih =>
      simp only [List.foldlM_cons, ih]
      rfl

end StoreM

namespace DbUavController

open DbM

theorem refines_read {α β : Type} (read : Store → List α) (f : Option (List α) → β) :
    Refines (do return f (← execSelect read)) (StoreM.read fun s => f (some (read s))) :=
  (refines_execSelect read).bind fun rows => Simulates.pure (f rows)

theorem refines_getUavsByRole (role : String) :
    Refines (getUavsByRole role) (StoreM.read fun s =>
      ((s.uavroles.firstId fun row => row.code == role).isSome, s.uavsByRole role)) := by
  have h := refines_isOpen.guard (a := (false, [])) ((refines_getUavRoleByCode role).bind fun uavRole =>
    Simulates.ite (c := INVALID_INDEX = uavRole.id) (fun _ => Simulates.pure (false, [])) fun _ =>
      refines_prepare.guard (a := (false, [])) (refines_read
        (fun s => s.uav.select fun row => (row.roleId : Int) == uavRole.id) readUavs))
  refine h.of_abs_eq (StateT.ext fun c => ?_)
  cases hrole : c.store.uavroles.firstId fun row => row.code == role with
  | none => simp [hrole, lastInsertId, Store.uavsByRole]
  | some roleId =>
      have hid : ¬ INVALID_INDEX = (roleId : Int) := by
        rw [INVALID_INDEX]
        omega
      have hcast : (fun row : UavRow => (row.roleId : Int) == (roleId : Int)) =
          fun row => row.roleId == roleId := by
        funext row
        rw [Bool.eq_iff_iff, beq_iff_eq, beq_iff_eq, Nat.cast_inj]
      simp [hrole, lastInsertId, Store.uavsByRole, readUavs, hid, hcast]

/-- A lookup of rows whose error path returns something else. -/
theorem refines_rows {α β : Type} (read : Store → List α) {k : Option (List α) → DbM β}
    (f : List α → β) (h : ∀ rows, k (some rows) = pure (f rows)) (hnone : ∃ b, k none = pure b) :
    Refines (do k (← selectRows read)) (StoreM.read fun s => f (read s)) := by
  obtain ⟨b, hb⟩ := hnone
  have hk : ∀ rows, k rows = pure (rows.elim b f) := by
    intro rows
    cases rows with
    | none => exact hb
    | some rows => exact h rows
  simp only [hk]
  exact refines_select read fun rows => rows.elim b f

theorem refines_getUavInfoByUavId (uavId : Nat) :
    Refines (getUavInfoByUavId uavId)
      (StoreM.read fun s => (true, s.info.select fun row => row.uavID == uavId)) :=
  refines_rows _ (fun rows => (true, rows)) (fun _ => rfl) ⟨_, rfl⟩

theorem refines_getUavMissionsByUavId (uavId : Nat) :
    Refines (getUavMissionsByUavId uavId) (StoreM.read fun s => (true, s.missionsOf uavId)) :=
  refines_rows (fun s => s.uavmission.select fun row => row.uavID == uavId)
    (fun rows => (true, rows.map fun r : Nat × MissionRow => readMission r.1 r.2)) (fun _ => rfl)
    ⟨_, rfl⟩

theorem refines_getTargetsByUavId (uavId : Nat) :
    Refines (getTargetsByUavId uavId) (StoreM.read fun s =>
      (decide ((s.uavByUavId uavId).id ≠ INVALID_INDEX), s.targetsByUavId uavId)) := by
  have h := refines_isOpen.guard (a := (false, [])) ((refines_getUavByUavId uavId).bind fun uav =>
    Simulates.ite (c := uav.id = INVALID_INDEX) (fun _ => Simulates.pure (false, [])) fun _ =>
      refines_prepare.guard (a := (false, [])) (refines_read
        (fun s => s.target.select fun row => row.uavID == uav.id) readTargets))
  refine h.of_abs_eq (StateT.ext fun c => ?_)
  change (if (c.store.uavByUavId uavId).id = INVALID_INDEX then pure (false, []) else StoreM.read fun s =>
    readTargets (some (s.target.select fun row => row.uavID == (c.store.uavByUavId uavId).id)) :
      StoreM (Bool × List Target)).run c = _
  by_cases hid : (c.store.uavByUavId uavId).id = INVALID_INDEX
  · simp [Store.targetsByUavId, hid]
  · simp [Store.targetsByUavId, hid, readTargets, Store.targetsOf]

theorem refines_getTargetsByMission (missionId : Nat) :
    Refines (getTargetsByMission missionId)
      (StoreM.read fun s => (true, s.targetsByMission missionId)) := by
  have habs : (StoreM.read (fun s => some (s.uavmission.get? missionId).toList) >>=
      fun missions => missions.elim (pure (false, [])) fun missions => StoreM.read fun s => (true,
        let targetID := (missions.head?.map fun row => row.targetID).getD 0
        (s.target.get? targetID).toList.map fun row => readTarget targetID row)) =
      StoreM.read fun s => (true, s.targetsByMission missionId) := by
    refine StateT.ext fun c => ?_
    cases hmission : c.store.uavmission.get? missionId <;>
      simp [Store.targetsByMission, hmission]
  rw [← habs]
  refine (refines_selectRows _).bind fun missions => ?_
  cases missions with
  | none => exact Simulates.pure _
  | some missions =>
      rw [Option.elim_some]
      refine refines_prepare.guard ((refines_read _ _).of_abs_eq (congrArg _ (funext fun s => ?_)))
      simp [readTargets, Function.comp_def]

theorem refines_deleteUavMissionsByTargetId (targetId : Nat) :
    Refines (deleteUavMissionsByTargetId targetId)
      ((fun _ => true) <$> StoreM.exec (.deleteMissionsByTargetId targetId)) := by
  have h := refines_isOpen.guard (a := false) (refines_prepare.guard (a := false)
    ((refines_execWrite (.deleteMissionsByTargetId targetId)).bind fun succeeded =>
      refines_commit.bind fun _ => Simulates.pure succeeded.isSome))
  refine h.of_abs_eq ?_
  simp only [bind_map_left, pure_bind, Option.isSome_some]
  exact bind_pure_comp _ _

theorem refines_addTarget (target : Target) :
    Refines (addTarget target) (Nat.cast <$> StoreM.exec
      (.insertTarget ⟨target.uavId, target.ip, target.port, target.type⟩)) := by
  have h := refines_isOpen.guard (a := INVALID_INDEX) (refines_transaction.bind fun _ =>
    refines_prepare.bind fun prepared => Simulates.ite (c := (!prepared) = true)
      (fun _ => refines_commit.bind fun _ => Simulates.pure INVALID_INDEX) fun _ =>
      (refines_execWrite (.insertTarget ⟨target.uavId, target.ip, target.port, target.type⟩)).bind
        fun inserted => refines_commit.bind fun _ => Simulates.pure (lastInsertId inserted))
  refine h.of_abs_eq ?_
  simp only [bind_map_left, pure_bind, Bool.not_true, Bool.false_eq_true, if_false, lastInsertId]
  exact bind_pure_comp _ _

theorem refines_deleteTargetsById (id : Nat) :
    Refines (deleteTargetsById id) ((fun _ => true) <$> StoreM.exec (.deleteTargetById id)) := by
  have h := refines_isOpen.guard (a := false) (refines_transaction.bind fun _ =>
    refines_prepare.bind fun prepared => Simulates.ite (c := (!prepared) = true)
      (fun _ => refines_commit.bind fun _ => Simulates.pure false) fun _ =>
      (refines_execWrite (.deleteTargetById id)).bind
        fun succeeded => refines_commit.bind fun _ => Simulates.pure succeeded.isSome)
  refine h.of_abs_eq ?_
  simp only [bind_map_left, pure_bind, Bool.not_true, Bool.false_eq_true, if_false,
    Option.isSome_some]
  exact bind_pure_comp _ _

end DbUavController

namespace DbUavManager

theorem foldl_eq_append_filter {α : Type} (p : α → Prop) [DecidablePred p] (acc as : List α) :
    as.foldl (fun acc a => if p a then acc ++ [a] else acc) acc = acc ++ as.filter p := by
  induction as generalizing acc with
  | nil => rw [List.foldl_nil, List.filter_nil, List.append_nil]
  | cons a as ih =>
      rw [List.foldl_cons, ih]
      by_cases ha : p a
      · rw [if_pos ha, List.filter_cons_of_pos (by simpa using ha), List.append_assoc]
        rfl
      · rw [if_neg ha, List.filter_cons_of_neg (by simpa using ha)]

theorem refines_targetsOfType (targetType : String) (records targets : List Target) :
    Refines (targets.foldlM (fun records target => do
      if target.type = (← getTargetTypeByName targetType) then return records ++ [target]
        else return records) records)
      (StoreM.read fun s =>
        records ++ targets.filter fun target => target.type = s.targetTypeByName targetType) := by
  have h := Simulates.foldlM (fun records target =>
    (refines_getDictionaryRecord .targettypes targetType).bind fun type =>
      Simulates.ite (c := target.type = type) (fun _ => Simulates.pure (records ++ [target]))
        fun _ => Simulates.pure records) targets records
  have hbody : (fun (records : List Target) (target : Target) => do
      let type ← StoreM.read fun s => s.targetTypeByName targetType
      if target.type = type then pure (records ++ [target]) else pure records) =
      fun records target => StoreM.read fun s =>
        if target.type = s.targetTypeByName targetType then records ++ [target] else records := by
    funext records target
    refine StateT.ext fun c => ?_
    by_cases htype : target.type = c.store.targetTypeByName targetType <;> simp [htype]
  refine h.of_abs_eq ?_
  change targets.foldlM (fun (records : List Target) (target : Target) => do
    let type ← StoreM.read fun s => s.targetTypeByName targetType
    if target.type = type then pure (records ++ [target]) else pure records) records = _
  rw [hbody, StoreM.foldlM_read]
  exact congrArg _ (funext fun s => foldl_eq_append_filter _ records targets)

theorem refines_getTargetsByUavIdAndTargetType (uavId : Nat) (targetType : String) :
    Refines (getTargetsByUavIdAndTargetType uavId targetType)
      (StoreM.read fun s => (true, s.targetsByUavIdAndTargetType uavId targetType)) := by
  have hloop : ∀ uavMissions : List UavMission, Refines
      (uavMissions.foldlM (fun records mission => do
        let found ← getTargetsByMission (uint mission.id)
        found.2.foldlM (fun records target => do
          if target.type = (← getTargetTypeByName targetType) then return records ++ [target]
            else return records) records) [])
      (StoreM.read fun s => uavMissions.flatMap fun mission =>
        (s.targetsByMission (uint mission.id)).filter fun target =>
          target.type = s.targetTypeByName targetType) := by
    intro uavMissions
    have h := Simulates.foldlM (fun records (mission : UavMission) =>
      (refines_getTargetsByMission (uint mission.id)).bind fun found =>
        refines_targetsOfType targetType records found.2) uavMissions []
    refine h.of_abs_eq ?_
    simp only [StoreM.read_bind_read, StoreM.foldlM_read, List.flatMap_eq_foldl]
  exact (refines_getUavMissionsByUavId uavId).bind fun found =>
    (hloop found.2).bind fun records => Simulates.pure (true, records)

end DbUavManager

end ArmOd
