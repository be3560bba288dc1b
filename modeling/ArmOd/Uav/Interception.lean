import ArmOd.Base.Boxes
import ArmOd.Uav.Assignments

/-!
# Who intercepts whom

The assignments that the dialogs keep in two tables, against what was last done to the boxes. A pair
that has been checked twice has two assignments, and the nested loops of an uncheck come upon both:
they take out exactly the assignments of the pair. Hence the tables hold an assignment for each
entry of the list that `Boxes` keeps, and every action keeps it so.
-/

namespace ArmOd

open DbUavController DbUavManager

namespace Interception

variable {uav : SqlTable UavRow}

/-- The interception is one of the pair. -/
structure IsFor (uav : SqlTable UavRow) (z : Assignment) (pair : Int32 × Nat) : Prop where
  keys : z.keys = pairKeys uav pair
  valid : 0 ≤ z.target.2.uavID
  isInt : pair.2 < 2 ^ 31

namespace IsFor

variable {z : Assignment} {pair : Int32 × Nat}

theorem keys_eq_iff (h : IsFor uav z pair) (pair' : Int32 × Nat) :
    z.keys = pairKeys uav pair' ↔ pair = pair' := by
  constructor
  · intro hkeys
    obtain ⟨hfriend, henemy⟩ := Prod.mk.inj h.keys
    obtain ⟨hfriend', henemy'⟩ := Prod.mk.inj hkeys
    obtain ⟨key, hkey⟩ := Int.eq_ofNat_of_zero_le h.valid
    rw [hkey] at henemy henemy'
    exact Prod.ext (uint_toInt_inj (keyOf_inj hfriend.symm hfriend'.symm))
      (keyOf_inj henemy.symm henemy'.symm)
  · intro hpair
    rw [← hpair]
    exact h.keys

theorem mission_lt (h : IsFor uav z pair) : z.mission.2.uavID < 2 ^ 31 := by
  obtain ⟨row, hget, -⟩ := exists_row_of_keyOf (Prod.mk.inj h.keys).1.symm
  exact uav.lt_limit_of_get? hget

end IsFor

/-- **The invariant**: the tables hold an interception for each pair of the list. -/
structure Holds (uav : SqlTable UavRow) (s : Store) (zs : List Assignment)
    (held : List (Int32 × Nat)) : Prop where
  rows : Rows uav s zs
  pairs : List.Forall₂ (IsFor uav) zs held

namespace Holds

variable {s : Store} {c c' : DbContents} {zs : List Assignment} {held : List (Int32 × Nat)}

theorem exists_isFor (h : Holds uav s zs held) {z : Assignment} (hz : z ∈ zs) :
    ∃ pair ∈ held, IsFor uav z pair := by
  obtain ⟨i, hi, rfl⟩ := List.getElem_of_mem hz
  have hi' : i < held.length := by rwa [← h.pairs.length_eq]
  exact ⟨held[i], List.getElem_mem hi', (List.forall₂_iff_get.mp h.pairs).2 i hi hi'⟩

theorem exists_assignment (h : Holds uav s zs held) {pair : Int32 × Nat} (hpair : pair ∈ held) :
    ∃ z ∈ zs, IsFor uav z pair := by
  obtain ⟨i, hi, rfl⟩ := List.getElem_of_mem hpair
  have hi' : i < zs.length := by rwa [h.pairs.length_eq]
  exact ⟨zs[i], List.getElem_mem hi', (List.forall₂_iff_get.mp h.pairs).2 i hi' hi⟩

/-- **A pair has an assignment exactly when it is held.** -/
theorem exists_keys_iff (h : Holds uav s zs held) (pair : Int32 × Nat) :
    (∃ z ∈ zs, z.keys = pairKeys uav pair) ↔ pair ∈ held := by
  constructor
  · intro hexists
    obtain ⟨z, hz, hkeys⟩ := hexists
    obtain ⟨pair', hmem, hfor⟩ := h.exists_isFor hz
    rwa [← (hfor.keys_eq_iff pair).mp hkeys]
  · intro hmem
    obtain ⟨z, hz, hfor⟩ := h.exists_assignment hmem
    exact ⟨z, hz, hfor.keys⟩

theorem assigned_iff (h : Holds uav s zs held) (pair : Int32 × Nat) :
    s.Assigned pair.1 pair.2 ↔ pair ∈ held :=
  (h.rows.assigned_iff pair).trans (h.exists_keys_iff pair)

/-- **What an item shows** is whether the pair is held. -/
theorem checkState_iff (h : Holds uav s zs held)
    (hunique : (uav.rows.map fun r => uint r.2.uavId).Nodup) (f : Int32) {role : String}
    {enemyUav : Uav} (hmem : enemyUav ∈ s.uavsByRole role) :
    s.checkState f.toInt enemyUav = true ↔ (f, enemyUav.uavId) ∈ held := by
  obtain ⟨r, hr, rfl⟩ := Store.mem_uavsByRole hmem
  rw [h.rows.uav] at hr
  rw [Store.checkState, List.any_eq_true, id_uavByUavId, h.rows.uav]
  constructor
  · intro hexists
    obtain ⟨target, htarget, henemy⟩ := hexists
    obtain ⟨z, hz, hfriend, rfl⟩ := h.rows.mem_targetsByUavIdAndTargetType.mp htarget
    obtain ⟨pair, hpair, hfor⟩ := h.exists_isFor hz
    obtain ⟨hfriendKey, henemyKey⟩ := Prod.mk.inj hfor.keys
    have hkey : z.target.2.uavID = r.1 := of_decide_eq_true henemy
    -- the enemy of the pair is the row the item was made from
    obtain ⟨row, hget, hrow⟩ := exists_row_of_keyOf (henemyKey.symm.trans hkey)
    have hsame : r.2.uavId = pair.2 := by
      rw [← hrow, uav.eq_of_mem_of_mem hr (uav.get?_eq_some_iff.mp hget)]
    have hfriend' := (eq_uint_keyOf_iff hfor.mission_lt _).mp hfriend
    have hf : pair.1 = f := uint_toInt_inj (keyOf_inj hfriendKey.symm hfriend'.symm)
    have he : uint r.2.uavId = pair.2 := by
      rw [hsame, uint_of_lt (lt_trans hfor.isInt (by decide))]
    change (f, uint r.2.uavId) ∈ held
    rw [he, ← hf]
    exact hpair
  · intro hheld
    obtain ⟨z, hz, hfor⟩ := h.exists_assignment hheld
    obtain ⟨hfriendKey, henemyKey⟩ := Prod.mk.inj hfor.keys
    refine ⟨_, h.rows.mem_targetsByUavIdAndTargetType.mpr
      ⟨z, hz, (eq_uint_keyOf_iff hfor.mission_lt _).mpr hfriendKey, rfl⟩, ?_⟩
    obtain ⟨key, hkey⟩ := Int.eq_ofNat_of_zero_le hfor.valid
    have heq := keyOf_eq_of_mem hunique hr rfl (henemyKey.symm.trans hkey)
    exact decide_eq_true (hkey.trans (congrArg Nat.cast heq))

theorem uncheck_all_eq (h : Holds uav s zs held) (f : Int32) (e : Nat) {z : Assignment} (hz : z ∈ zs) :
    ((s.missionsOf (uint (keyOf uav (uint f.toInt)))).all fun mission =>
      (s.targetsByUavId e).all fun target =>
        !(mission.targetId == uint target.id && z.target.1 == uint target.id)) =
      decide (z.keys ≠ pairKeys uav (f, e)) := by
  have hvalid : ∀ z ∈ zs, 0 ≤ z.target.2.uavID := by
    intro z hz
    obtain ⟨pair, -, hfor⟩ := h.exists_isFor hz
    exact hfor.valid
  rw [Bool.eq_iff_iff, decide_eq_true_iff]
  constructor
  · intro hall hkeys
    obtain ⟨hfriend, henemy⟩ := Prod.mk.inj hkeys
    obtain ⟨pair, -, hfor⟩ := h.exists_isFor hz
    have hmission := h.rows.mem_missionsOf.mpr
      ⟨z, hz, (eq_uint_keyOf_iff hfor.mission_lt _).mpr hfriend, rfl⟩
    have htarget := (h.rows.mem_targetsByUavId hvalid).mpr ⟨z, hz, henemy, rfl⟩
    have hkept := List.all_eq_true.mp (List.all_eq_true.mp hall _ hmission) _ htarget
    simp [readMission, readTarget, z.points, h.rows.uint_target hz] at hkept
  · intro hkeys
    refine List.all_eq_true.mpr fun mission hmission => List.all_eq_true.mpr fun target htarget => ?_
    obtain ⟨z', hz', hfriend, rfl⟩ := h.rows.mem_missionsOf.mp hmission
    obtain ⟨z'', hz'', henemy, rfl⟩ := (h.rows.mem_targetsByUavId hvalid).mp htarget
    rw [Bool.not_eq_true', Bool.and_eq_false_imp]
    intro hsame
    rw [beq_iff_eq] at hsame
    rw [beq_eq_false_iff_ne]
    intro htarget
    -- the two rows found and the assignment share one target
    change uint z'.mission.2.targetID = uint (z''.target.1 : Int) at hsame
    change z.target.1 = uint (z''.target.1 : Int) at htarget
    rw [z'.points, h.rows.uint_target hz', h.rows.uint_target hz''] at hsame
    rw [h.rows.uint_target hz''] at htarget
    obtain rfl := h.rows.eq_of_target hz' hz'' hsame
    obtain rfl := h.rows.eq_of_target hz hz' htarget
    obtain ⟨pair, -, hfor⟩ := h.exists_isFor hz
    exact hkeys (Prod.ext ((eq_uint_keyOf_iff hfor.mission_lt _).mp hfriend) henemy)

/-- **Unchecking** takes out all that is of the pair, and nothing else. -/
theorem uncheck (h : Holds uav c.store zs held) {f : Int32} {e : Nat} (he : e < 2 ^ 31)
    {r : List MapCall} (hrun : (StoreM.uncheck f.toInt e).run c = some (r, c')) :
    Holds uav c'.store (zs.filter fun z => z.keys ≠ pairKeys uav (f, e))
      (held.filter (· ≠ (f, e))) := by
  obtain ⟨uavF, c, hread, hrest⟩ := StoreM.run_bind_eq_some.mp hrun
  obtain ⟨rfl, rfl⟩ := StoreM.run_read_eq_some.mp hread
  obtain ⟨targets, c, hread, hrest⟩ := StoreM.run_bind_eq_some.mp hrest
  obtain ⟨rfl, rfl⟩ := StoreM.run_read_eq_some.mp hread
  obtain ⟨missionsList, c, hread, hloop⟩ := StoreM.run_bind_eq_some.mp hrest
  obtain ⟨rfl, rfl⟩ := StoreM.run_read_eq_some.mp hread
  have hrows := h.rows.uncheckLoop hloop
  rw [id_uavByUavId, h.rows.uav, uint_of_lt (lt_trans he (by decide)),
    List.filter_congr fun z hz => h.uncheck_all_eq f e hz] at hrows
  refine ⟨hrows, ?_⟩
  refine List.rel_filter (R := IsFor uav) (fun z pair hfor => ?_) h.pairs
  simp only [decide_eq_true_iff, ne_eq, hfor.keys_eq_iff]

/-- **Checking** adds an assignment of the pair. -/
theorem check (h : Holds uav c.store zs held) {f : Int32} {e : Nat} (he : e < 2 ^ 31)
    {r : List MapCall} (hrun : (StoreM.check f.toInt e).run c = some (r, c')) :
    ∃ z, Holds uav c'.store (zs ++ [z]) (held ++ [(f, e)]) := by
  obtain ⟨type, ctype, htype, hrest⟩ := StoreM.run_bind_eq_some.mp hrun
  have hrows := h.rows.recordId htype
  have hfirst := StoreM.recordId_firstId htype
  obtain ⟨uavEnemy, c, hread, hrest⟩ := StoreM.run_bind_eq_some.mp hrest
  obtain ⟨rfl, rfl⟩ := StoreM.run_read_eq_some.mp hread
  obtain ⟨uavFriend, c, hread, hrest⟩ := StoreM.run_bind_eq_some.mp hrest
  obtain ⟨rfl, rfl⟩ := StoreM.run_read_eq_some.mp hread
  obtain ⟨targetId, ctarget, htarget, hrest⟩ := StoreM.run_bind_eq_some.mp hrest
  obtain ⟨missionId, cmission, hmission, hrest⟩ := StoreM.run_bind_eq_some.mp hrest
  obtain ⟨friendInfo, c'', hread, hrest⟩ := StoreM.run_bind_eq_some.mp hrest
  obtain ⟨-, rfl⟩ := StoreM.run_read_eq_some.mp hread
  obtain ⟨enemyInfo, c'', hread, hpure⟩ := StoreM.run_bind_eq_some.mp hrest
  obtain ⟨-, rfl⟩ := StoreM.run_read_eq_some.mp hread
  obtain ⟨-, rfl⟩ := StoreM.run_pure_eq_some.mp hpure
  rw [uint_of_lt (lt_trans he (by decide))] at htarget
  obtain ⟨⟨_, henemy⟩, targets, htargets, hafter⟩ :=
    Store.apply_insertTarget (StoreM.run_exec_eq_some.mp htarget).1
  obtain ⟨⟨_, hfriend⟩, missions, hmissions, hlast⟩ :=
    Store.apply_insertMission (StoreM.run_exec_eq_some.mp hmission).1
  rw [hlast]
  rw [hafter] at hfriend hmissions ⊢
  rw [id_uavByUavId, hrows.uav] at henemy hfriend
  have hpoints : uint (targetId : Int) = targetId := StoreM.uint_of_get? (Table.insert_get? htargets)
  have hz := hrows.append ⟨(missionId, _), (targetId, _), hpoints⟩ htargets hmissions hfirst rfl
  refine ⟨_, hz, ?_⟩
  refine List.rel_append h.pairs (List.Forall₂.cons ⟨?_, ?_, he⟩ .nil)
  · change (((uint (c.store.uavByUavId (uint f.toInt)).id : Nat) : Int),
      (c.store.uavByUavId e).id) = pairKeys uav (f, e)
    rw [id_uavByUavId, id_uavByUavId, hrows.uav, uint_keyOf hfriend]
    rfl
  · change 0 ≤ (c.store.uavByUavId e).id
    rw [id_uavByUavId, hrows.uav]
    exact keyOf_nonneg henemy

end Holds

/-! ### Any sequence of actions -/

/-- The box of an enemy in the dialog of a friend has been changed. A dialog keeps its id as an
`int`, and so does `addUav` the frequency that is the id of an enemy. -/
structure Action where
  m_id : Int32
  enemyUavId : Nat
  isInt : enemyUavId < 2 ^ 31
  checked : Bool

/-- What happens in the dialogs: one is opened, or a box is changed. -/
inductive DialogOp where
  | init (id : Int32) (knownUavList : QMap Nat Uav)
  | treeItemChanged (action : Action)

def DialogOp.program (language : Language) : DialogOp → DbM PUnit
  | .init id knownUavList => do
      let _ ← BLAPerehvatDialog.init language id.toInt knownUavList
      return ⟨⟩
  | .treeItemChanged a => do
      let _ ← BLAPerehvatDialog.treeItemChangedSlot language a.m_id.toInt
        (BLAPerehvatDialog.itemText language a.enemyUavId) a.checked
      return ⟨⟩

/-- The action on a box, with its pair. -/
def DialogOp.action? : DialogOp → Option ((Int32 × Nat) × Bool)
  | .init _ _ => none
  | .treeItemChanged a => some ((a.m_id, a.enemyUavId), a.checked)

def dialogStep (language : Language) (s : Session) (op : DialogOp) : Session :=
  ((op.program language).run s).2

/-- The connection after what happened. -/
def after (language : Language) (store : Store) (faults : List Bool) (ops : List DialogOp) :
    Session :=
  ops.foldl (dialogStep language) (Session.connect store faults)

/-- Whether the last action on the box of the enemy in the dialogs of the friend was a check. -/
def lastChecked (ops : List DialogOp) (m_id : Int32) (enemyUavId : Nat) : Bool :=
  Boxes.lastChecked (ops.filterMap DialogOp.action?) (m_id, enemyUavId)

theorem after_concat (language : Language) (store : Store) (faults : List Bool)
    (ops : List DialogOp) (op : DialogOp) :
    after language store faults (ops ++ [op]) =
      dialogStep language (after language store faults ops) op := by
  rw [after, List.foldl_append]
  rfl

/-- What a change of a box does where nothing fails. -/
theorem refines_treeItemChanged (language : Language) (a : Action) :
    Refines (DialogOp.program language (.treeItemChanged a)) (do
      let _ ← (if a.checked then StoreM.check a.m_id.toInt a.enemyUavId
        else StoreM.uncheck a.m_id.toInt a.enemyUavId)
      return ⟨⟩) := by
  rw [DialogOp.program, BLAPerehvatDialog.treeItemChangedSlot_itemText language _ a.isInt]
  simp only [bind_map_left]
  exact (Simulates.ite (fun _ => BLAPerehvatDialog.refines_check _ _) fun _ =>
    BLAPerehvatDialog.refines_uncheck _ _).bind fun _ => Simulates.pure PUnit.unit

theorem refines_openDialog (language : Language) (id : Int32) (knownUavList : QMap Nat Uav) :
    Refines (DialogOp.program language (.init id knownUavList)) (pure ⟨⟩) := by
  have h := (BLAPerehvatDialog.refines_init language id.toInt knownUavList).bind fun _ =>
    Simulates.pure PUnit.unit
  exact h.of_abs_eq rfl

theorem healthy_of_step {language : Language} {s : Session} {op : DialogOp}
    (h : (dialogStep language s op).Healthy) : s.Healthy := by
  cases op with
  | init id knownUavList => exact (refines_openDialog language id knownUavList).back s h
  | treeItemChanged a => exact (refines_treeItemChanged language a).back s h

theorem run_treeItemChanged {language : Language} {s : Session} {a : Action}
    (hhealthy : (dialogStep language s (.treeItemChanged a)).Healthy) :
    ∃ calls c, (if a.checked then StoreM.check a.m_id.toInt a.enemyUavId
        else StoreM.uncheck a.m_id.toInt a.enemyUavId).run s.contents = some (calls, c) ∧
      (dialogStep language s (.treeItemChanged a)).store = c.store := by
  have hrun := (refines_treeItemChanged language a).run s hhealthy
  obtain ⟨calls, c, hbox, hpure⟩ := StoreM.run_bind_eq_some.mp hrun
  obtain ⟨-, hsame⟩ := StoreM.run_pure_eq_some.mp hpure
  exact ⟨calls, c, hbox, congrArg DbContents.store hsame⟩

variable {language : Language} {s : Session} {zs : List Assignment} {held : List (Int32 × Nat)}

theorem Holds.step_check (h : Holds uav s.store zs held) {a : Action} (ha : a.checked = true)
    (hhealthy : (dialogStep language s (.treeItemChanged a)).Healthy) :
    ∃ z, Holds uav (dialogStep language s (.treeItemChanged a)).store (zs ++ [z])
      (held ++ [(a.m_id, a.enemyUavId)]) := by
  obtain ⟨calls, c, hbox, hstore⟩ := run_treeItemChanged hhealthy
  rw [if_pos ha] at hbox
  rw [hstore]
  exact Holds.check (c := s.contents) h a.isInt hbox

theorem Holds.step_uncheck (h : Holds uav s.store zs held) {a : Action} (ha : a.checked = false)
    (hhealthy : (dialogStep language s (.treeItemChanged a)).Healthy) :
    Holds uav (dialogStep language s (.treeItemChanged a)).store
      (zs.filter fun z => z.keys ≠ pairKeys uav (a.m_id, a.enemyUavId))
      (held.filter (· ≠ (a.m_id, a.enemyUavId))) := by
  obtain ⟨calls, c, hbox, hstore⟩ := run_treeItemChanged hhealthy
  rw [if_neg (by rw [ha]; exact Bool.noConfusion)] at hbox
  rw [hstore]
  exact Holds.uncheck (c := s.contents) h a.isInt hbox

/-- **One step**: the tables follow the list. -/
theorem Holds.step {op : DialogOp} (h : Holds uav s.store zs held)
    (hhealthy : (dialogStep language s op).Healthy) :
    ∃ zs', Holds uav (dialogStep language s op).store zs'
      (op.action?.toList.foldl Boxes.step held) := by
  cases op with
  | init id knownUavList =>
      have hrun := (refines_openDialog language id knownUavList).run s hhealthy
      obtain ⟨-, hsame⟩ := StoreM.run_pure_eq_some.mp hrun
      have hstore : (dialogStep language s (.init id knownUavList)).store = s.store :=
        congrArg DbContents.store hsame
      exact ⟨zs, hstore ▸ h⟩
  | treeItemChanged a =>
      change ∃ zs', Holds uav _ zs' (Boxes.step held ((a.m_id, a.enemyUavId), a.checked))
      rw [Boxes.step]
      cases ha : a.checked with
      | true =>
          obtain ⟨z, hchecked⟩ := h.step_check ha hhealthy
          exact ⟨zs ++ [z], hchecked⟩
      | false => exact ⟨_, h.step_uncheck ha hhealthy⟩

/-- **Every run** keeps the invariant. -/
theorem holds_after {language : Language} {store : Store} {faults : List Bool}
    (htarget : store.target.rows = []) (hmission : store.uavmission.rows = [])
    (ops : List DialogOp) (hhealthy : (after language store faults ops).Healthy) :
    ∃ zs, Holds store.uav (after language store faults ops).store zs
      (Boxes.held (ops.filterMap DialogOp.action?)) := by
  induction ops using List.reverseRecOn with
  | nil =>
      exact ⟨[], ⟨rfl, hmission, htarget, fun _ hz => absurd hz List.not_mem_nil⟩, .nil⟩
  | append_singleton ops op ih =>
      rw [after_concat] at hhealthy ⊢
      obtain ⟨zs, hholds⟩ := ih (healthy_of_step hhealthy)
      obtain ⟨zs', hholds'⟩ := hholds.step hhealthy
      refine ⟨zs', ?_⟩
      have hactions : Boxes.held ((ops ++ [op]).filterMap DialogOp.action?) =
          op.action?.toList.foldl Boxes.step (Boxes.held (ops.filterMap DialogOp.action?)) := by
        rw [List.filterMap_append, Boxes.held, List.foldl_append]
        cases haction : op.action? <;> simp [haction, Boxes.held]
      rw [hactions]
      exact hholds'

/-- **The interceptions are what the boxes say.** On empty tables of targets and missions, where
nothing fails and the ids of the UAVs are unique as the controller reads them: after any actions in
the dialogs a pair is assigned exactly when the last action on it was a check, an uncheck takes out
the rows of its pair and leaves those of the others, and a dialog opened then shows the enemies that
are known, each checked when the pair is assigned. -/
theorem interceptions (language : Language) (store : Store) (faults : List Bool)
    (htarget : store.target.rows = []) (hmission : store.uavmission.rows = [])
    (hunique : (store.uav.rows.map fun r => uint r.2.uavId).Nodup) (ops : List DialogOp)
    (hhealthy : (after language store faults ops).Healthy) :
    (∀ f e, (after language store faults ops).store.Assigned f e ↔ lastChecked ops f e = true) ∧
      (∀ a : Action, a.checked = false →
        (after language store faults (ops ++ [.treeItemChanged a])).Healthy →
        (after language store faults ops).store.Unassigns
          (after language store faults (ops ++ [.treeItemChanged a])).store a.m_id a.enemyUavId) ∧
      ∀ f knownUavList, ((BLAPerehvatDialog.init language f.toInt knownUavList).run
          (after language store faults ops)).2.Healthy →
        ((BLAPerehvatDialog.init language f.toInt knownUavList).run
          (after language store faults ops)).1 =
          (((after language store faults ops).store.uavsByRole ENEMY_UAV_ROLE).filter
          fun enemyUav => knownUavList.contains enemyUav.uavId).map fun enemyUav =>
            (BLAPerehvatDialog.itemText language enemyUav.uavId,
              lastChecked ops f enemyUav.uavId) := by
  obtain ⟨zs, hholds⟩ := holds_after htarget hmission ops hhealthy
  refine ⟨fun f e => ?_, fun a ha hstep => ?_, fun f knownUavList hopened => ?_⟩
  · rw [hholds.assigned_iff (f, e), lastChecked, Boxes.mem_held_iff]
  · rw [after_concat] at hstep ⊢
    exact hholds.rows.unassigns (a.m_id, a.enemyUavId) (hholds.step_uncheck ha hstep).rows
  · have hread := (BLAPerehvatDialog.refines_init language f.toInt knownUavList).run
      (after language store faults ops) hopened
    rw [(StoreM.run_read_eq_some.mp hread).1]
    refine List.map_congr_left fun enemyUav hmem => congrArg (Prod.mk _) ?_
    rw [Bool.eq_iff_iff, lastChecked, ← Boxes.mem_held_iff]
    exact hholds.checkState_iff hunique f (List.mem_of_mem_filter hmem)

/-- Two boards of ours and an enemy. -/
def twoAgainstOne : Store :=
  [Write.insertDictionary .uavtypes "type", .insertRole ⟨OUR_UAV_ROLE, OUR_UAV_ROLE⟩,
    .insertRole ⟨ENEMY_UAV_ROLE, ENEMY_UAV_ROLE⟩, .insertUav ⟨7, "", 1, 1, "", 0⟩,
    .insertUav ⟨8, "", 1, 1, "", 0⟩, .insertUav ⟨100, "", 1, 2, "", 100⟩].foldl
    (fun s w => ((s.apply w).map Prod.snd).getD s) .empty

/-- The box of the enemy is changed in the dialog of a board. -/
def change (m_id : Int32) (checked : Bool) : DialogOp :=
  .treeItemChanged ⟨m_id, 100, by decide, checked⟩

def knownEnemy : QMap Nat Uav := (∅ : QMap Nat Uav).insert 100 { id := 3, uavId := 100 }

/-- Both boards are assigned, the first twice, and then the first is taken off. -/
def takenOff : List DialogOp := [change 7 true, change 8 true, change 7 true, change 7 false]

theorem interceptions_takenOff :
    ¬ (after .ru twoAgainstOne [] takenOff).store.Assigned 7 100 ∧
      (after .ru twoAgainstOne [] takenOff).store.Assigned 8 100 ∧
      ((BLAPerehvatDialog.init .ru (Int32.toInt 8) knownEnemy).run
        (after .ru twoAgainstOne [] takenOff)).1 = [("БПЛА: №100".toList, true)] := by
  obtain ⟨hassigned, -, hshown⟩ := interceptions .ru twoAgainstOne [] (by decide +kernel)
    (by decide +kernel) (by decide +kernel) takenOff ⟨by decide +kernel, by decide +kernel⟩
  refine ⟨?_, ?_, ?_⟩
  · rw [hassigned]
    decide +kernel
  · rw [hassigned]
    decide +kernel
  · rw [hshown 8 knownEnemy ⟨by decide +kernel, by decide +kernel⟩]
    decide +kernel

end Interception

end ArmOd
