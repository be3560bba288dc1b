import ArmOd.Uav.BLAPerehvatDialog

/-!
# The assignments in the tables

What the dialog does to the tables when nothing fails, and the two tables read as one list: an
assignment is a mission with the target it points to. No two assignments share a target, so deleting
by the key of a target takes out one assignment, and the three ways in which the code comes to the
rows (the missions of a friend, the targets for an enemy, and the missions of a friend to targets of
a type) are conditions on the assignments of one list.
-/

namespace ArmOd

open DbUavController DbUavManager

namespace StoreM

def check (m_id enemyUavId : Int) : StoreM (List MapCall) := do
  let interceptTargetTypeId ← recordId .targettypes "InterceptType"
  let uavEnemy ← read fun s => s.uavByUavId (uint enemyUavId)
  let uavFriend ← read fun s => s.uavByUavId (uint m_id)
  let targetId ← exec (.insertTarget ⟨uavEnemy.id, uavEnemy.ip, 1000, interceptTargetTypeId⟩)
  let _ ← exec (.insertMission ⟨uint uavFriend.id, uint targetId, 0, 0, 0, 0, 0⟩)
  let uavFriendInfoList ← read fun s => s.info.select fun row => row.uavID == uint uavFriend.id
  let uavEnemyInfoList ← read fun s => s.info.select fun row => row.uavID == uint uavEnemy.id
  return [.addInterception m_id enemyUavId uavFriendInfoList uavEnemyInfoList]

/-- Delete the missions to a target, and the target. -/
def deleteTarget (id : Nat) : StoreM PUnit := do
  let _ ← exec (.deleteMissionsByTargetId id)
  let _ ← exec (.deleteTargetById id)
  return ⟨⟩

def uncheckLoop (m_id enemyUavId : Int) (missionsList : List UavMission) (targets : List Target) :
    StoreM (List MapCall) :=
  missionsList.foldlM (fun calls mission =>
    targets.foldlM (fun calls target =>
      if mission.targetId = uint target.id then do
        deleteTarget (uint target.id)
        return calls ++ [.removeInterception m_id enemyUavId]
      else return calls) calls) []

def uncheck (m_id enemyUavId : Int) : StoreM (List MapCall) := do
  let uavF ← read fun s => s.uavByUavId (uint m_id)
  let targets ← read fun s => s.targetsByUavId (uint enemyUavId)
  let missionsList ← read fun s => s.missionsOf (uint uavF.id)
  uncheckLoop m_id enemyUavId missionsList targets

end StoreM

namespace Store

/-- The state of the item of an enemy in the dialog of `m_id`. -/
def checkState (s : Store) (m_id : Int) (enemyUav : Uav) : Bool :=
  (s.targetsByUavIdAndTargetType (uint (s.uavByUavId (uint m_id)).id) "InterceptType").any
    fun target => target.uavId = enemyUav.id

/-- A mission of the friend points to a target of the type `InterceptType` for the enemy. -/
def Assigned (s : Store) (m_id : Int32) (enemyUavId : Nat) : Prop :=
  ∃ mission ∈ s.uavmission.rows, (mission.2.uavID : Int) = (s.uavByUavId (uint m_id.toInt)).id ∧
    ∃ target ∈ s.target.rows, target.1 = mission.2.targetID ∧
      target.2.uavID = (s.uavByUavId enemyUavId).id ∧
      target.2.targetTypeId = s.targetTypeByName "InterceptType"

/-- The mission is one of the friend, to a target for the enemy. -/
def isMissionOf (s : Store) (m_id : Int32) (enemyUavId : Nat) (mission : Nat × MissionRow) : Bool :=
  (mission.2.uavID : Int) == (s.uavByUavId (uint m_id.toInt)).id &&
    s.target.rows.any fun target =>
      target.1 == mission.2.targetID && target.2.uavID == (s.uavByUavId enemyUavId).id

/-- The target is one for the enemy, with a mission of the friend to it. -/
def isTargetOf (s : Store) (m_id : Int32) (enemyUavId : Nat) (target : Nat × TargetRow) : Bool :=
  target.2.uavID == (s.uavByUavId enemyUavId).id &&
    s.uavmission.rows.any fun mission =>
      target.1 == mission.2.targetID &&
        (mission.2.uavID : Int) == (s.uavByUavId (uint m_id.toInt)).id

/-- The rows of the pair are gone, those of the other pairs are as they were, and no target is left
without a mission to it. -/
structure Unassigns (before after : Store) (m_id : Int32) (enemyUavId : Nat) : Prop where
  missions : after.uavmission.rows =
    before.uavmission.rows.filter fun mission => !before.isMissionOf m_id enemyUavId mission
  targets : after.target.rows =
    before.target.rows.filter fun target => !before.isTargetOf m_id enemyUavId target
  noOrphan : ∀ target ∈ after.target.rows, ∃ mission ∈ after.uavmission.rows,
    mission.2.targetID = target.1

end Store

namespace BLAPerehvatDialog

theorem refines_interceptTargetTypeId : Refines interceptTargetTypeId
    (Nat.cast <$> StoreM.recordId .targettypes "InterceptType") := by
  have h := (refines_getDictionaryRecord .targettypes "InterceptType").bind fun id =>
    Simulates.ite (c := INVALID_INDEX = id)
      (fun _ => refines_insertRow (.insertDictionary .targettypes "InterceptType")) fun _ =>
      Simulates.pure id
  refine h.of_abs_eq (StateT.ext fun c => ?_)
  cases hfind : (c.store.dictionary .targettypes).firstId (· == "InterceptType") with
  | none => simp [StoreM.recordId, StoreM.getOrCreate, StoreM.getOrElse, hfind, lastInsertId]
  | some id =>
      have hid : ¬ INVALID_INDEX = (id : Int) := by
        rw [INVALID_INDEX]
        omega
      simp [StoreM.recordId, StoreM.getOrCreate, StoreM.getOrElse, hfind, lastInsertId, hid]

theorem refines_check (m_id enemyUavId : Int) :
    Refines (check m_id enemyUavId) (StoreM.check m_id enemyUavId) := by
  have h := refines_interceptTargetTypeId.bind fun interceptTargetTypeId =>
    (refines_getUavByUavId (uint enemyUavId)).bind fun uavEnemy =>
    (refines_getUavByUavId (uint m_id)).bind fun uavFriend =>
    (refines_addTarget {
      uavId := uavEnemy.id, ip := uavEnemy.ip, port := 1000, type := interceptTargetTypeId
    }).bind fun targetId =>
    (refines_insertRow (.insertMission ⟨uint uavFriend.id, uint targetId, 0, 0, 0, 0, 0⟩)).bind fun _ =>
    (refines_getUavInfoByUavId (uint uavFriend.id)).bind fun friendInfo =>
    (refines_getUavInfoByUavId (uint uavEnemy.id)).bind fun enemyInfo =>
      Simulates.pure [MapCall.addInterception m_id enemyUavId friendInfo.2 enemyInfo.2]
  refine h.of_abs_eq ?_
  simp only [bind_map_left]
  rfl

theorem refines_uncheck (m_id enemyUavId : Int) :
    Refines (uncheck m_id enemyUavId) (StoreM.uncheck m_id enemyUavId) := by
  have hloop (missionsList : List UavMission) (targets : List Target) : Refines
      (missionsList.foldlM (fun calls mission =>
        targets.foldlM (fun calls target => do
          if mission.targetId = uint target.id then
            let _ ← deleteUavMissionsByTargetId (uint target.id)
            let _ ← deleteTargetsById (uint target.id)
            return calls ++ [.removeInterception m_id enemyUavId]
          else return calls) calls) [])
      (StoreM.uncheckLoop m_id enemyUavId missionsList targets) := by
    refine Simulates.foldlM (fun calls mission => Simulates.foldlM (fun calls target =>
      Simulates.ite (fun _ => ?_) fun _ => Simulates.pure calls) targets calls) missionsList []
    have h := (refines_deleteUavMissionsByTargetId (uint target.id)).bind fun _ =>
      (refines_deleteTargetsById (uint target.id)).bind fun _ =>
        Simulates.pure (calls ++ [MapCall.removeInterception m_id enemyUavId])
    refine h.of_abs_eq ?_
    simp only [bind_map_left, StoreM.deleteTarget, bind_assoc, pure_bind]
  have h := (refines_getUavByUavId (uint m_id)).bind fun uavF =>
    (refines_getTargetsByUavId (uint enemyUavId)).bind fun targets =>
    (refines_getUavMissionsByUavId (uint uavF.id)).bind fun missionsList =>
      hloop missionsList.2 targets.2
  exact h

theorem refines_checkState (m_id : Int) (enemyUav : Uav) :
    Refines (checkState m_id enemyUav) (StoreM.read fun s => s.checkState m_id enemyUav) :=
  (refines_getUavByUavId (uint m_id)).bind fun uavFriend =>
    (refines_getTargetsByUavIdAndTargetType (uint uavFriend.id) "InterceptType").bind fun targets =>
      Simulates.pure (targets.2.any fun target => target.uavId = enemyUav.id)

theorem foldl_eq_append_map {α β : Type} (p : α → Bool) (f : α → β) (acc : List β) (as : List α) :
    as.foldl (fun acc a => if !p a then acc else acc ++ [f a]) acc =
      acc ++ (as.filter p).map f := by
  induction as generalizing acc with
  | nil => rw [List.foldl_nil, List.filter_nil, List.map_nil, List.append_nil]
  | cons a as ih =>
      rw [List.foldl_cons, ih]
      cases ha : p a with
      | false => rw [if_pos (by decide), List.filter_cons_of_neg (by simp [ha])]
      | true =>
          rw [if_neg (by decide), List.filter_cons_of_pos ha, List.map_cons, List.append_assoc]
          rfl

theorem refines_init (language : Language) (id : Int) (knownUavList : QMap Nat Uav) :
    Refines (init language id knownUavList) (StoreM.read fun s =>
      ((s.uavsByRole ENEMY_UAV_ROLE).filter fun enemyUav =>
        knownUavList.contains enemyUav.uavId).map fun enemyUav =>
          (itemText language enemyUav.uavId, s.checkState id enemyUav)) := by
  have hbody (items : List (Text × Bool)) (enemyUav : Uav) : Refines (do
      if !knownUavList.contains enemyUav.uavId then return items
      return items ++ [(itemText language enemyUav.uavId, ← checkState id enemyUav)])
      (StoreM.read fun s => if !knownUavList.contains enemyUav.uavId then items
        else items ++ [(itemText language enemyUav.uavId, s.checkState id enemyUav)]) := by
    have h := Simulates.ite (c := (!knownUavList.contains enemyUav.uavId) = true)
      (fun _ => Simulates.pure items) fun _ =>
      (refines_checkState id enemyUav).bind fun checked =>
        Simulates.pure (items ++ [(itemText language enemyUav.uavId, checked)])
    refine h.of_abs_eq ?_
    cases knownUavList.contains enemyUav.uavId <;> rfl
  have h := (refines_getUavsByRole ENEMY_UAV_ROLE).bind fun enemyUavs =>
    Simulates.foldlM hbody enemyUavs.2 []
  refine h.of_abs_eq ?_
  simp only [StoreM.foldlM_read, foldl_eq_append_map, StoreM.read_bind_read, List.nil_append]

end BLAPerehvatDialog

namespace Interception

/-! ### Keys of UAVs -/

/-- The key of the first UAV with a public id, or `INVALID_INDEX`. -/
def keyOf (uav : SqlTable UavRow) (uavId : Nat) : Int :=
  lastInsertId (uav.firstId fun row => row.uavId == uavId)

theorem id_uavByUavId (s : Store) (uavId : Nat) : (s.uavByUavId uavId).id = keyOf s.uav uavId := by
  rw [Store.uavByUavId, firstUav_id]
  rfl

variable {uav : SqlTable UavRow}

theorem keyOf_cases (uav : SqlTable UavRow) (uavId : Nat) : keyOf uav uavId = INVALID_INDEX ∨
    ∃ key : Nat, keyOf uav uavId = key ∧ ∃ row, uav.get? key = some row ∧ row.uavId = uavId := by
  rw [keyOf]
  cases hfirst : uav.firstId fun row => row.uavId == uavId with
  | none => exact Or.inl rfl
  | some key =>
      obtain ⟨row, hget, huavId⟩ := Table.firstId_eq_some hfirst
      exact Or.inr ⟨key, rfl, row, hget, eq_of_beq huavId⟩

theorem exists_row_of_keyOf {uavId key : Nat} (h : keyOf uav uavId = key) :
    ∃ row, uav.get? key = some row ∧ row.uavId = uavId := by
  rcases keyOf_cases uav uavId with hinvalid | ⟨key', hkey, hrow⟩
  · rw [h, INVALID_INDEX] at hinvalid
    omega
  · rw [h, Nat.cast_inj] at hkey
    rwa [hkey]

theorem keyOf_inj {uavId uavId' key : Nat} (h : keyOf uav uavId = key)
    (h' : keyOf uav uavId' = key) : uavId = uavId' := by
  obtain ⟨row, hget, rfl⟩ := exists_row_of_keyOf h
  obtain ⟨row', hget', rfl⟩ := exists_row_of_keyOf h'
  rw [Option.some.inj (hget.symm.trans hget')]

theorem eq_uint_keyOf_iff {n : Nat} (hn : n < 2 ^ 31) (uavId : Nat) :
    n = uint (keyOf uav uavId) ↔ n = keyOf uav uavId := by
  rcases keyOf_cases uav uavId with hinvalid | ⟨key, hkey, row, hget, -⟩
  · rw [hinvalid, INVALID_INDEX, uint]
    omega
  · rw [hkey, StoreM.uint_of_get? hget, Nat.cast_inj]

theorem keyOf_nonneg {uavId : Nat} {row : UavRow} (h : uav.get? (keyOf uav uavId).toNat = some row) :
    0 ≤ keyOf uav uavId := by
  rcases keyOf_cases uav uavId with hinvalid | ⟨key, hkey, -⟩
  · rw [hinvalid, INVALID_INDEX] at h
    exact absurd (uav.positive _ (uav.get?_eq_some_iff.mp h)) (lt_irrefl 0)
  · rw [hkey]
    exact Int.natCast_nonneg key

theorem uint_keyOf {uavId : Nat} {row : UavRow} (h : uav.get? (uint (keyOf uav uavId)) = some row) :
    (uint (keyOf uav uavId) : Int) = keyOf uav uavId :=
  (eq_uint_keyOf_iff (uav.lt_limit_of_get? h) uavId).mp rfl

theorem keyOf_eq_of_mem (hunique : (uav.rows.map fun r => uint r.2.uavId).Nodup) {r : Nat × UavRow}
    (hr : r ∈ uav.rows) {uavId key : Nat} (hsame : uavId = uint r.2.uavId)
    (hkey : keyOf uav uavId = key) : key = r.1 := by
  obtain ⟨row, hget, hrow⟩ := exists_row_of_keyOf hkey
  have hmem := uav.get?_eq_some_iff.mp hget
  have huint : uint row.uavId = uint r.2.uavId := by
    rw [hrow, hsame, uint_of_lt (uint_lt _)]
  exact congrArg Prod.fst (List.inj_on_of_nodup_map hunique hmem hr huint)

theorem uint_toInt_inj {f f' : Int32} (h : uint f.toInt = uint f'.toInt) : f = f' := by
  have hf := f.le_toInt
  have hlt := f.toInt_lt
  have hf' := f'.le_toInt
  have hlt' := f'.toInt_lt
  rw [uint, uint] at h
  exact Int32.toInt_inj.mp (by omega)

/-! ### The two tables as one list -/

/-- A mission with the target it points to. -/
structure Assignment where
  mission : Nat × MissionRow
  target : Nat × TargetRow
  points : mission.2.targetID = target.1

/-- The keys of the UAV of the mission and of the UAV of the target. -/
def Assignment.keys (z : Assignment) : Int × Int := (z.mission.2.uavID, z.target.2.uavID)

/-- The keys of a friend and an enemy. -/
def pairKeys (uav : SqlTable UavRow) (pair : Int32 × Nat) : Int × Int :=
  (keyOf uav (uint pair.1.toInt), keyOf uav pair.2)

/-- The tables of missions and targets are the two halves of a list of interceptions. -/
structure Rows (uav : SqlTable UavRow) (s : Store) (zs : List Assignment) : Prop where
  uav : s.uav = uav
  missions : s.uavmission.rows = zs.map Assignment.mission
  targets : s.target.rows = zs.map Assignment.target
  typed : ∀ z ∈ zs, ∃ type : Nat,
    (s.dictionary .targettypes).firstId (· == "InterceptType") = some type ∧
      z.target.2.targetTypeId = type

namespace Rows

variable {s : Store} {c c' : DbContents} {zs : List Assignment}

theorem mission_mem (h : Rows uav s zs) {z : Assignment} (hz : z ∈ zs) :
    z.mission ∈ s.uavmission.rows := by
  rw [h.missions]
  exact List.mem_map_of_mem hz

theorem target_mem (h : Rows uav s zs) {z : Assignment} (hz : z ∈ zs) :
    z.target ∈ s.target.rows := by
  rw [h.targets]
  exact List.mem_map_of_mem hz

theorem uint_target (h : Rows uav s zs) {z : Assignment} (hz : z ∈ zs) :
    uint (z.target.1 : Int) = z.target.1 :=
  uint_of_lt (lt_of_lt_of_le (s.target.lt_limit (h.target_mem hz)) (by decide))

theorem eq_of_target (h : Rows uav s zs) {z z' : Assignment} (hz : z ∈ zs) (hz' : z' ∈ zs)
    (htarget : z.target.1 = z'.target.1) : z = z' := by
  have hkeys : (zs.map fun z => z.target.1).Nodup := by
    have hsorted := s.target.sorted
    rw [h.targets] at hsorted
    exact List.pairwise_map.mpr ((List.pairwise_map.mp hsorted).imp fun hlt => Nat.ne_of_lt hlt)
  exact List.inj_on_of_nodup_map hkeys hz hz' htarget

theorem mem_missionsOf (h : Rows uav s zs) {uavId : Nat} {mission : UavMission} :
    mission ∈ s.missionsOf uavId ↔
      ∃ z ∈ zs, z.mission.2.uavID = uavId ∧ readMission z.mission.1 z.mission.2 = mission := by
  simp only [Store.missionsOf, Table.select, h.missions, List.filter_map, List.map_map,
    List.mem_map, List.mem_filter, Function.comp_apply, beq_iff_eq, and_assoc]

theorem mem_targetsByUavId (h : Rows uav s zs) (hvalid : ∀ z ∈ zs, 0 ≤ z.target.2.uavID)
    {uavId : Nat} {target : Target} :
    target ∈ s.targetsByUavId uavId ↔
      ∃ z ∈ zs, z.target.2.uavID = keyOf uav uavId ∧ readTarget z.target.1 z.target.2 = target := by
  rw [Store.targetsByUavId, id_uavByUavId, h.uav]
  split
  · rename_i hinvalid
    refine ⟨fun hmem => absurd hmem List.not_mem_nil, fun hmem => ?_⟩
    obtain ⟨z, hz, hkey, -⟩ := hmem
    have hnonneg := hvalid z hz
    rw [hkey, hinvalid, INVALID_INDEX] at hnonneg
    omega
  · simp only [Store.targetsOf, Table.select, h.targets, List.filter_map, List.map_map,
      List.mem_map, List.mem_filter, Function.comp_apply, beq_iff_eq, and_assoc]

theorem deleteTarget (h : Rows uav c.store zs) {id : Nat} {r : PUnit}
    (hrun : (StoreM.deleteTarget id).run c = some (r, c')) :
    Rows uav c'.store (zs.filter fun z => z.target.1 != id) := by
  obtain ⟨n, mid, hmissions, hrest⟩ := StoreM.run_bind_eq_some.mp hrun
  obtain ⟨n', after, htarget, hpure⟩ := StoreM.run_bind_eq_some.mp hrest
  obtain ⟨-, rfl⟩ := StoreM.run_pure_eq_some.mp hpure
  have hmid := (StoreM.run_exec_eq_some.mp hmissions).1
  have hafter := (StoreM.run_exec_eq_some.mp htarget).1
  obtain ⟨-, hmid⟩ := Prod.mk.inj (Option.some.inj hmid)
  rw [Store.apply] at hafter
  split at hafter
  · cases hafter
  · obtain ⟨-, hafter⟩ := Prod.mk.inj (Option.some.inj hafter)
    rw [← hafter, ← hmid]
    refine ⟨h.uav, ?_, ?_, fun z hz => h.typed z (List.mem_of_mem_filter hz)⟩
    · change c.store.uavmission.rows.filter _ = _
      rw [h.missions, List.filter_map]
      refine congrArg _ (List.filter_congr fun z _ => ?_)
      change (!(z.mission.2.targetID == id)) = _
      rw [z.points]
      rfl
    · change c.store.target.rows.filter _ = _
      rw [h.targets, List.filter_map]
      rfl

theorem append (h : Rows uav s zs) (z : Assignment) {type : Nat} {targets : SqlTable TargetRow}
    {missions : SqlTable MissionRow}
    (htargets : s.target.insert z.target.2 = some (z.target.1, targets))
    (hmissions : s.uavmission.insert z.mission.2 = some (z.mission.1, missions))
    (hfirst : (s.dictionary .targettypes).firstId (· == "InterceptType") = some type)
    (htype : z.target.2.targetTypeId = type) :
    Rows uav { s with target := targets, uavmission := missions } (zs ++ [z]) where
  uav := h.uav
  missions := by
    rw [(Table.insert_eq_some hmissions).2, h.missions, List.map_append]
    rfl
  targets := by
    rw [(Table.insert_eq_some htargets).2, h.targets, List.map_append]
    rfl
  typed := by
    intro z' hz'
    rcases List.mem_append.mp hz' with hz' | hz'
    · exact h.typed z' hz'
    · rw [List.mem_singleton.mp hz']
      exact ⟨type, hfirst, htype⟩

theorem recordId (h : Rows uav c.store zs) {type : Nat}
    (hrun : (StoreM.recordId .targettypes "InterceptType").run c = some (type, c')) :
    Rows uav c'.store zs := by
  have hgrows := (StoreM.recordId_adds (W := fun _ => True) hrun trivial).grows
  have htyped : ∀ z ∈ zs, ∃ type : Nat,
      (c'.store.dictionary .targettypes).firstId (· == "InterceptType") = some type ∧
        z.target.2.targetTypeId = type := by
    intro z hz
    obtain ⟨type, hfirst, htype⟩ := h.typed z hz
    exact ⟨type, (hgrows.dictionary .targettypes).firstId hfirst, htype⟩
  rcases StoreM.run_getOrElse_eq_some.mp hrun with ⟨-, rfl⟩ | ⟨-, hexec⟩
  · exact h
  · obtain ⟨t, -, hstore⟩ := Store.apply_insertDictionary (StoreM.run_exec_eq_some.mp hexec).1
    have huav : c'.store.uav = c.store.uav := by rw [hstore]
    have hmissions : c'.store.uavmission = c.store.uavmission := by rw [hstore]
    have htargets : c'.store.target = c.store.target := by rw [hstore]
    exact ⟨huav.trans h.uav, hmissions ▸ h.missions, htargets ▸ h.targets, htyped⟩

theorem uncheckLoop (h : Rows uav c.store zs) {m_id enemyUavId : Int}
    {missionsList : List UavMission} {targets : List Target} {r : List MapCall}
    (hrun : (StoreM.uncheckLoop m_id enemyUavId missionsList targets).run c = some (r, c')) :
    Rows uav c'.store (zs.filter fun z => missionsList.all fun mission =>
      targets.all fun target =>
        !(mission.targetId == uint target.id && z.target.1 == uint target.id)) := by
  refine foldlM_filter (R := fun c zs => Rows uav c.store zs) (fun hrows hmission => ?_) h hrun
  refine foldlM_filter (R := fun c zs => Rows uav c.store zs) (fun hrows htarget => ?_) hrows
    hmission
  rename_i mission _ _ _ _ _ calls target c zs r c'
  by_cases hsame : mission.targetId = uint target.id
  · rw [if_pos hsame] at htarget
    obtain ⟨n, mid, hdelete, hpure⟩ := StoreM.run_bind_eq_some.mp htarget
    obtain ⟨-, rfl⟩ := StoreM.run_pure_eq_some.mp hpure
    simp only [beq_iff_eq.mpr hsame, Bool.true_and]
    exact hrows.deleteTarget hdelete
  · rw [if_neg hsame] at htarget
    obtain ⟨-, rfl⟩ := StoreM.run_pure_eq_some.mp htarget
    simpa only [beq_eq_false_iff_ne.mpr hsame, Bool.false_and, Bool.not_false, List.filter_true]
      using hrows

theorem targetsByMission (h : Rows uav s zs) {z : Assignment} (hz : z ∈ zs) :
    s.targetsByMission (uint (z.mission.1 : Int)) = [readTarget z.target.1 z.target.2] := by
  have hmission := s.uavmission.get?_eq_some_iff.mpr (h.mission_mem hz)
  have htarget := s.target.get?_eq_some_iff.mpr (h.target_mem hz)
  rw [Store.targetsByMission, StoreM.uint_of_get? hmission, hmission, Option.map_some,
    Option.getD_some, z.points, htarget]
  rfl

theorem targetTypeByName (h : Rows uav s zs) {z : Assignment} (hz : z ∈ zs) :
    z.target.2.targetTypeId = s.targetTypeByName "InterceptType" := by
  obtain ⟨type, hfirst, htype⟩ := h.typed z hz
  rw [htype, Store.targetTypeByName, hfirst]
  rfl

/-- The third way to the assignments: through the missions of a friend to the targets of the type. -/
theorem mem_targetsByUavIdAndTargetType (h : Rows uav s zs) {uavId : Nat} {target : Target} :
    target ∈ s.targetsByUavIdAndTargetType uavId "InterceptType" ↔
      ∃ z ∈ zs, z.mission.2.uavID = uavId ∧ readTarget z.target.1 z.target.2 = target := by
  rw [Store.targetsByUavIdAndTargetType, List.mem_flatMap]
  constructor
  · intro hmem
    obtain ⟨mission, hmission, htarget⟩ := hmem
    obtain ⟨z, hz, hfriend, rfl⟩ := h.mem_missionsOf.mp hmission
    have hread := (List.mem_filter.mp htarget).1
    rw [show (readMission z.mission.1 z.mission.2).id = (z.mission.1 : Int) from rfl,
      h.targetsByMission hz, List.mem_singleton] at hread
    exact ⟨z, hz, hfriend, hread.symm⟩
  · intro hexists
    obtain ⟨z, hz, hfriend, rfl⟩ := hexists
    refine ⟨_, h.mem_missionsOf.mpr ⟨z, hz, hfriend, rfl⟩, List.mem_filter.mpr ⟨?_, ?_⟩⟩
    · rw [show (readMission z.mission.1 z.mission.2).id = (z.mission.1 : Int) from rfl,
        h.targetsByMission hz]
      exact List.mem_singleton_self _
    · exact decide_eq_true (h.targetTypeByName hz)

theorem isMissionOf_eq (h : Rows uav s zs) (pair : Int32 × Nat) {z : Assignment} (hz : z ∈ zs) :
    s.isMissionOf pair.1 pair.2 z.mission = decide (z.keys = pairKeys uav pair) := by
  rw [Store.isMissionOf, id_uavByUavId, id_uavByUavId, h.uav, Bool.eq_iff_iff, Bool.and_eq_true_iff,
    beq_iff_eq, List.any_eq_true, decide_eq_true_iff]
  constructor
  · intro hboth
    obtain ⟨hfriend, target, htarget, hsame⟩ := hboth
    rw [h.targets] at htarget
    obtain ⟨z', hz', rfl⟩ := List.mem_map.mp htarget
    rw [Bool.and_eq_true_iff, beq_iff_eq, beq_iff_eq, z.points] at hsame
    obtain rfl := h.eq_of_target hz' hz hsame.1
    exact Prod.ext hfriend hsame.2
  · intro hkeys
    obtain ⟨hfriend, henemy⟩ := Prod.mk.inj hkeys
    refine ⟨hfriend, z.target, h.target_mem hz, ?_⟩
    rw [Bool.and_eq_true_iff, beq_iff_eq, beq_iff_eq]
    exact ⟨z.points.symm, henemy⟩

theorem isTargetOf_eq (h : Rows uav s zs) (pair : Int32 × Nat) {z : Assignment} (hz : z ∈ zs) :
    s.isTargetOf pair.1 pair.2 z.target = decide (z.keys = pairKeys uav pair) := by
  rw [Store.isTargetOf, id_uavByUavId, id_uavByUavId, h.uav, Bool.eq_iff_iff, Bool.and_eq_true_iff,
    beq_iff_eq, List.any_eq_true, decide_eq_true_iff]
  constructor
  · intro hboth
    obtain ⟨henemy, mission, hmission, hsame⟩ := hboth
    rw [h.missions] at hmission
    obtain ⟨z', hz', rfl⟩ := List.mem_map.mp hmission
    rw [Bool.and_eq_true_iff, beq_iff_eq, beq_iff_eq, z'.points] at hsame
    obtain rfl := h.eq_of_target hz hz' hsame.1
    exact Prod.ext hsame.2 henemy
  · intro hkeys
    obtain ⟨hfriend, henemy⟩ := Prod.mk.inj hkeys
    refine ⟨henemy, z.mission, h.mission_mem hz, ?_⟩
    rw [Bool.and_eq_true_iff, beq_iff_eq, beq_iff_eq]
    exact ⟨z.points.symm, hfriend⟩

theorem assigned_iff (h : Rows uav s zs) (pair : Int32 × Nat) :
    s.Assigned pair.1 pair.2 ↔ ∃ z ∈ zs, z.keys = pairKeys uav pair := by
  rw [Store.Assigned, id_uavByUavId, id_uavByUavId, h.uav]
  constructor
  · intro hassigned
    obtain ⟨mission, hmission, hfriend, target, htarget, hsame, henemy, -⟩ := hassigned
    rw [h.missions] at hmission
    rw [h.targets] at htarget
    obtain ⟨z, hz, rfl⟩ := List.mem_map.mp hmission
    obtain ⟨z', hz', rfl⟩ := List.mem_map.mp htarget
    rw [z.points] at hsame
    obtain rfl := h.eq_of_target hz' hz hsame
    exact ⟨z', hz', Prod.ext hfriend henemy⟩
  · intro hexists
    obtain ⟨z, hz, hkeys⟩ := hexists
    obtain ⟨hfriend, henemy⟩ := Prod.mk.inj hkeys
    exact ⟨z.mission, h.mission_mem hz, hfriend, z.target, h.target_mem hz, z.points.symm, henemy,
      h.targetTypeByName hz⟩

/-- What leaves the assignments of the other pairs, unassigns the pair. -/
theorem unassigns {s' : Store} (h : Rows uav s zs) (pair : Int32 × Nat)
    (h' : Rows uav s' (zs.filter fun z => z.keys ≠ pairKeys uav pair)) :
    s.Unassigns s' pair.1 pair.2 where
  missions := by
    rw [h'.missions, h.missions, List.filter_map]
    refine congrArg _ (List.filter_congr fun z hz => ?_)
    rw [Function.comp_apply, h.isMissionOf_eq pair hz, ← decide_not]
  targets := by
    rw [h'.targets, h.targets, List.filter_map]
    refine congrArg _ (List.filter_congr fun z hz => ?_)
    rw [Function.comp_apply, h.isTargetOf_eq pair hz, ← decide_not]
  noOrphan := by
    intro target htarget
    rw [h'.targets] at htarget
    obtain ⟨z, hz, rfl⟩ := List.mem_map.mp htarget
    exact ⟨z.mission, h'.mission_mem hz, z.points⟩

end Rows

end Interception

end ArmOd
