import ArmOd.Base.Run
import ArmOd.DbBla.Record

/-!
# Live UAVs

Two maps have to be kept in step, one by id and one by the decimal text of the id, and the listeners
have to hear of every UAV a life: that it appeared, changes, that it disappeared. `Live` is the
invariant of the complete operations. Which record and which UAV an operation is about comes from
the database, which may be any database at every operation.
-/

namespace ArmOd

namespace DbUavManager

open DbUavController

/-- The maps are in step: a UAV is known under its own id, and exactly the known UAVs have a life
timer, which runs. -/
structure InStep (m : DbUavManager) : Prop where
  timers : ∀ key, key ∈ m.m_lifeTimerMap ↔ ∃ k ∈ m.m_knownUavsList, QString.number k = key
  running : ∀ (key : String) (timer : QTimer), m.m_lifeTimerMap[key]? = some timer →
    timer.running = true
  named : ∀ (k : Nat) (uav : Uav), m.m_knownUavsList[k]? = some uav → uav.uavId = k
  small : ∀ k ∈ m.m_knownUavsList, k < 2 ^ 32

/-- The maps are in step, and the listeners have been told so. -/
structure Live (w : World) : Prop extends InStep w.manager where
  told : Told UavNotification.uavId UavNotification.mark w.manager.m_receiversList
    (w.manager.m_knownUavsList.contains ·) w.sent

theorem InStep.mem_number {m : DbUavManager} (h : m.InStep) {k : Nat} :
    QString.number k ∈ m.m_lifeTimerMap ↔ k ∈ m.m_knownUavsList := by
  rw [h.timers]
  constructor
  · rintro ⟨k', hk', heq⟩
    rwa [← QString.number_injective heq]
  · exact fun hk => ⟨k, hk, rfl⟩

theorem InStep.isNew_eq {m : DbUavManager} (h : m.InStep) (k : Nat) :
    m.isNew k = !m.m_knownUavsList.contains k := by
  have hiff := h.mem_number (k := k)
  rw [isNew]
  cases hk : m.m_knownUavsList.contains k with
  | true => rfl
  | false =>
      have hkey : m.m_lifeTimerMap.contains (QString.number k) = false := by
        rw [Bool.eq_false_iff]
        intro hkey
        rw [hiff.mp hkey] at hk
        exact Bool.noConfusion hk
      rw [hkey]
      rfl

theorem inStep_empty (receivers : List Listener) : InStep { m_receiversList := receivers } :=
  ⟨fun _ => ⟨fun h => absurd h Std.TreeMap.not_mem_emptyc, fun ⟨_, h, _⟩ =>
    absurd h Std.TreeMap.not_mem_emptyc⟩,
    fun _ _ h => absurd (QMap.mem_of_getElem? h) Std.TreeMap.not_mem_emptyc,
    fun _ _ h => absurd (QMap.mem_of_getElem? h) Std.TreeMap.not_mem_emptyc, fun _ h =>
      absurd h Std.TreeMap.not_mem_emptyc⟩

theorem InStep.startTimer {m : DbUavManager} (h : m.InStep) {k : Nat} (hk : k ∈ m.m_knownUavsList) :
    (m.startTimer k).InStep := by
  have hkey : m.m_lifeTimerMap.contains (QString.number k) = true := h.mem_number.mpr hk
  rw [DbUavManager.startTimer, if_pos hkey]
  refine ⟨fun key => ?_, fun key timer hget => ?_, h.named, h.small⟩
  · rw [QMap.mem_insert, h.timers]
    constructor
    · rintro (rfl | hold)
      · exact ⟨k, hk, rfl⟩
      · exact hold
    · exact Or.inr
  · rw [QMap.getElem?_insert] at hget
    split at hget
    · cases hget
      rfl
    · exact h.running key timer hget

theorem InStep.insertUav {m : DbUavManager} (h : m.InStep) {uav : Uav}
    (hsmall : uav.uavId < 2 ^ 32) :
    ((m.insertUav uav).startTimer uav.uavId).InStep := by
  have hkey : (m.insertUav uav).m_lifeTimerMap.contains (QString.number uav.uavId) = true :=
    QMap.mem_insert.mpr (Or.inl rfl)
  rw [DbUavManager.startTimer, if_pos hkey]
  refine ⟨fun key => ?_, fun key timer hget => ?_, fun k other hget => ?_, fun k hk => ?_⟩
  · change key ∈ ((m.m_lifeTimerMap.insert _ _).insert _ _) ↔
      ∃ k ∈ m.m_knownUavsList.insert uav.uavId uav, _
    simp only [QMap.mem_insert, h.timers]
    constructor
    · rintro (rfl | rfl | ⟨k, hk, rfl⟩)
      · exact ⟨_, Or.inl rfl, rfl⟩
      · exact ⟨_, Or.inl rfl, rfl⟩
      · exact ⟨k, Or.inr hk, rfl⟩
    · rintro ⟨k, rfl | hk, rfl⟩
      · exact Or.inl rfl
      · exact Or.inr (Or.inr ⟨k, hk, rfl⟩)
  · change ((m.m_lifeTimerMap.insert _ _).insert _ _)[key]? = some timer at hget
    rw [QMap.getElem?_insert] at hget
    split at hget
    · cases hget
      rfl
    · rename_i hne
      rw [QMap.getElem?_insert, if_neg hne] at hget
      exact h.running key timer hget
  · change (m.m_knownUavsList.insert uav.uavId uav)[k]? = some other at hget
    rw [QMap.getElem?_insert] at hget
    split at hget
    · cases hget
      assumption
    · exact h.named k other hget
  · rcases QMap.mem_insert.mp hk with rfl | hk
    · exact hsmall
    · exact h.small k hk

theorem InStep.takeUav {m : DbUavManager} (h : m.InStep) {k : Nat} (hk : k ∈ m.m_knownUavsList) :
    (m.takeUav (QString.number k)).InStep := by
  rw [DbUavManager.takeUav, QString.toUInt_number (h.small k hk)]
  refine ⟨fun key => ?_, fun key timer hget => ?_, fun k' other hget => ?_, fun k' hk' => ?_⟩
  · change key ∈ m.m_lifeTimerMap.erase _ ↔ ∃ k' ∈ m.m_knownUavsList.erase k, _
    simp only [QMap.mem_erase, h.timers]
    constructor
    · rintro ⟨hne, k', hk', rfl⟩
      exact ⟨k', ⟨fun heq => hne (by rw [heq]), hk'⟩, rfl⟩
    · rintro ⟨k', ⟨hne, hk'⟩, rfl⟩
      exact ⟨fun heq => hne (QString.number_injective heq), k', hk', rfl⟩
  · exact h.running key timer (QMap.getElem?_erase_eq_some.mp hget).2
  · exact h.named k' other (QMap.getElem?_erase_eq_some.mp hget).2
  · exact h.small k' (QMap.mem_erase.mp hk').2

/-! ### The operations -/

variable {w : World}

theorem Live.withSession (h : Live w) (s : Session) : Live { w with m_dbController := s } :=
  ⟨h.toInStep, h.told⟩

theorem startTimer_keeps (m : DbUavManager) (uavId : Nat) :
    (m.startTimer uavId).m_knownUavsList = m.m_knownUavsList ∧
      (m.startTimer uavId).m_receiversList = m.m_receiversList := by
  rw [DbUavManager.startTimer]
  split <;> exact ⟨rfl, rfl⟩

theorem Live.trackUav_known (h : Live w) {uav : Uav} {uavRole : String}
    (hknown : w.manager.m_knownUavsList.contains uav.uavId = true) :
    Live ((trackUav uav uavRole).run w).2 ∧
      uav.uavId ∈ ((trackUav uav uavRole).run w).2.manager.m_knownUavsList ∧
      ((trackUav uav uavRole).run w).2.manager.m_receiversList = w.manager.m_receiversList := by
  have hrun : (DbUavManager.trackUav uav uavRole).run w =
    (⟨⟩, { w with manager := w.manager.startTimer uav.uavId }) := by
    simp only [DbUavManager.trackUav, run_bind, run_get, run_update, h.isNew_eq, hknown,
      Bool.not_true, Bool.false_eq_true, if_false]
  obtain ⟨hlist, hreceivers⟩ := startTimer_keeps w.manager uav.uavId
  rw [hrun]
  refine ⟨⟨h.toInStep.startTimer hknown, ?_⟩, ?_, hreceivers⟩
  · change Told _ _ (w.manager.startTimer uav.uavId).m_receiversList
      ((w.manager.startTimer uav.uavId).m_knownUavsList.contains ·) w.sent
    rw [hlist, hreceivers]
    exact h.told
  · change uav.uavId ∈ (w.manager.startTimer uav.uavId).m_knownUavsList
    rw [hlist]
    exact hknown

theorem Live.trackUav_new (h : Live w) (hnodup : w.manager.m_receiversList.Nodup) {uav : Uav}
    {uavRole : String} (hsmall : uav.uavId < 2 ^ 32)
    (hnew : w.manager.m_knownUavsList.contains uav.uavId = false) :
    Live ((trackUav uav uavRole).run w).2 ∧
      uav.uavId ∈ ((trackUav uav uavRole).run w).2.manager.m_knownUavsList ∧
      ((trackUav uav uavRole).run w).2.manager.m_receiversList = w.manager.m_receiversList := by
  have hrun : (DbUavManager.trackUav uav uavRole).run w = (⟨⟩, { w with
      manager := (w.manager.insertUav uav).startTimer uav.uavId
      sent := w.sent ++ broadcast w.manager.m_receiversList (.onUavAdded uav uavRole) }) := by
    simp only [DbUavManager.trackUav, run_bind, run_get, run_update, run_notify, h.isNew_eq,
      hnew, Bool.not_false, if_true]
    rfl
  obtain ⟨hlist, hreceivers⟩ := startTimer_keeps (w.manager.insertUav uav) uav.uavId
  rw [hrun]
  refine ⟨⟨h.toInStep.insertUav hsmall, ?_⟩, ?_, hreceivers⟩
  · change Told _ _ ((w.manager.insertUav uav).startTimer uav.uavId).m_receiversList
      (((w.manager.insertUav uav).startTimer uav.uavId).m_knownUavsList.contains ·) (w.sent ++ _)
    rw [hlist, hreceivers]
    exact h.told.onUavAdded hnodup hnew uavRole
  · change uav.uavId ∈ ((w.manager.insertUav uav).startTimer uav.uavId).m_knownUavsList
    rw [hlist]
    exact QMap.mem_insert.mpr (Or.inl rfl)

theorem Live.trackUav (h : Live w) (hnodup : w.manager.m_receiversList.Nodup) {uav : Uav}
    {uavRole : String} (hsmall : uav.uavId < 2 ^ 32) :
    Live ((trackUav uav uavRole).run w).2 ∧
      uav.uavId ∈ ((trackUav uav uavRole).run w).2.manager.m_knownUavsList ∧
      ((trackUav uav uavRole).run w).2.manager.m_receiversList = w.manager.m_receiversList := by
  cases hknown : w.manager.m_knownUavsList.contains uav.uavId with
  | true => exact h.trackUav_known hknown
  | false => exact h.trackUav_new hnodup hsmall hknown

theorem Live.announce (h : Live w) (hnodup : w.manager.m_receiversList.Nodup) {uavInfo : UavInfo}
    {r : Recorded} {tail tailStdDev : List QPointF}
    (hsmall : r.uav.uavId < 2 ^ 32) :
    Live ((announce uavInfo r tail tailStdDev).run w).2 ∧
      ((announce uavInfo r tail tailStdDev).run w).2.manager.m_receiversList =
      w.manager.m_receiversList := by
  have htrack : Live ((DbUavManager.trackUav r.uav r.uavRole).run w).2 ∧ _ :=
    h.trackUav hnodup hsmall
  obtain ⟨htracked, hknown, hreceivers⟩ := htrack
  rw [DbUavManager.announce, run_bind, run_ite]
  split
  · rw [run_notify]
    exact ⟨⟨htracked.toInStep, htracked.told.onUavInfoChanged (hreceivers ▸ hnodup) hknown _ _ _⟩,
      hreceivers⟩
  · exact ⟨htracked, hreceivers⟩

theorem Live.timeoutSlot (h : Live w) (hnodup : w.manager.m_receiversList.Nodup)
    (uninitialised : Uav) {k : Nat}
    (hk : k ∈ w.manager.m_knownUavsList) :
    ∃ s uav uavRole, uav.uavId = k ∧ ((timeoutSlot uninitialised (QString.number k)).run w).2 =
        { m_dbController := s, manager := w.manager.takeUav (QString.number k)
          sent := w.sent ++ broadcast w.manager.m_receiversList (.onUavRemoved uav uavRole) } ∧
      Live ((timeoutSlot uninitialised (QString.number k)).run w).2 := by
  obtain ⟨uav, huav⟩ := QMap.mem_iff.mp hk
  have hget : w.manager.m_knownUavsList.getD k uninitialised = uav := by
    rw [Std.TreeMap.getD_eq_getD_getElem?, huav, Option.getD_some]
  have hrun : ((DbUavManager.timeoutSlot uninitialised (QString.number k)).run w).2 =
      { m_dbController := ((getUavRole uav.roleId).run w.m_dbController).2
        manager := w.manager.takeUav (QString.number k)
        sent := w.sent ++ broadcast w.manager.m_receiversList
          (.onUavRemoved uav ((getUavRole uav.roleId).run w.m_dbController).1.code) } := by
    simp only [DbUavManager.timeoutSlot, run_bind, run_get, run_update, run_db, run_notify,
      QString.toUInt_number (h.small k hk), hget]
    rfl
  refine ⟨_, uav, _, h.named k uav huav, hrun, ?_⟩
  rw [hrun]
  refine ⟨h.toInStep.takeUav hk, ?_⟩
  have htake : (w.manager.takeUav (QString.number k)).m_knownUavsList =
    w.manager.m_knownUavsList.erase uav.uavId := by
    rw [takeUav, QString.toUInt_number (h.small k hk), h.named k uav huav]
  change Told _ _ w.manager.m_receiversList
    ((w.manager.takeUav (QString.number k)).m_knownUavsList.contains ·) (w.sent ++ _)
  rw [htake]
  refine h.told.onUavRemoved hnodup ?_ _
  rw [h.named k uav huav]
  exact hk

theorem InStep.exists_timerKeys {m : DbUavManager} (h : m.InStep) :
    ∃ ks : List Nat, ks.Nodup ∧ m.m_lifeTimerMap.keys = ks.map QString.number ∧
      ∀ k, k ∈ ks ↔ k ∈ m.m_knownUavsList := by
  have hnumber : ∀ key ∈ m.m_lifeTimerMap.keys, QString.number (QString.toUInt key) = key := by
    intro key hkey
    obtain ⟨k, hk, rfl⟩ := (h.timers key).mp (Std.TreeMap.mem_keys.mp hkey)
    rw [QString.toUInt_number (h.small k hk)]
  have hkeys : m.m_lifeTimerMap.keys =
      (m.m_lifeTimerMap.keys.map QString.toUInt).map QString.number := by
    rw [List.map_map]
    exact ((List.map_congr_left hnumber).trans (List.map_id _)).symm
  refine ⟨m.m_lifeTimerMap.keys.map QString.toUInt, ?_, hkeys, fun k => ?_⟩
  · have hnodup := Std.TreeMap.nodup_keys (t := m.m_lifeTimerMap)
    rw [hkeys] at hnodup
    exact hnodup.of_map _
  · rw [← h.mem_number, ← Std.TreeMap.mem_keys]
    conv_rhs => rw [hkeys]
    exact (List.mem_map_of_injective QString.number_injective).symm

theorem contains_eq_false {known : QMap Nat Uav} (h : ∀ k, k ∉ known) :
    (known.contains ·) = fun _ => false := by
  funext k
  exact Bool.eq_false_iff.mpr (h k)

/-- A run of removals: one for each UAV of the list, and nobody else is forgotten. -/
theorem Live.timeoutSlots {w' : World} (h : Live w) (hnodup : w.manager.m_receiversList.Nodup)
    {uninitialised : Uav} {ks : List Nat}
    (hks : ks.Nodup) (hknown : ∀ k ∈ ks, k ∈ w.manager.m_knownUavsList)
    (hw' : (((ks.map QString.number).forM (DbUavManager.timeoutSlot uninitialised)).run w).2 = w') :
    Live w' ∧ w'.manager.m_receiversList = w.manager.m_receiversList ∧
      (∀ k, k ∈ w'.manager.m_knownUavsList ↔ k ∈ w.manager.m_knownUavsList ∧ k ∉ ks) ∧
      ∃ removed : List (Uav × String), removed.map (fun r => r.1.uavId) = ks ∧
        w'.sent = w.sent ++ removed.flatMap fun r =>
        broadcast w.manager.m_receiversList (.onUavRemoved r.1 r.2) := by
  induction ks generalizing w with
  | nil =>
      subst hw'
      exact ⟨h, rfl, fun k => (and_iff_left List.not_mem_nil).symm, [], rfl,
        (List.append_nil _).symm⟩
  | cons k ks ih =>
      obtain ⟨hk, hrest⟩ := List.nodup_cons.mp hks
      have hmem := hknown k List.mem_cons_self
      obtain ⟨s, uav, uavRole, hid, hrun, hlive⟩ := h.timeoutSlot hnodup uninitialised hmem
      have hnow : ∀ k', k' ∈ (w.manager.takeUav (QString.number k)).m_knownUavsList ↔ k ≠ k' ∧
        k' ∈ w.manager.m_knownUavsList := by
        intro k'
        rw [takeUav, QString.toUInt_number (h.small k hmem)]
        exact QMap.mem_erase
      rw [List.map_cons, run_forM_cons, hrun] at hw'
      rw [hrun] at hlive
      obtain ⟨hlive', hreceivers, hleft, removed, hids, hsent⟩ := ih hlive hnodup hrest
        (fun k' hk' => (hnow k').mpr ⟨fun heq => hk (heq ▸ hk'),
        hknown k' (List.mem_cons_of_mem _ hk')⟩) hw'
      refine ⟨hlive', hreceivers, fun k' => ?_, (uav, uavRole) :: removed, ?_, ?_⟩
      · rw [hleft, hnow, List.mem_cons, not_or]
        constructor
        · rintro ⟨⟨hne, hold⟩, hnot⟩
          exact ⟨hold, fun heq => hne heq.symm, hnot⟩
        · rintro ⟨hold, hne, hnot⟩
          exact ⟨⟨fun heq => hne heq.symm, hold⟩, hnot⟩
      · rw [List.map_cons, hids, hid]
      · rw [hsent, List.flatMap_cons, List.append_assoc]
        rfl

theorem Live.deleteAllUav {w' : World} (h : Live w) (hnodup : w.manager.m_receiversList.Nodup)
    {uninitialised : Uav}
    (hw' : ((deleteAllUav uninitialised).run w).2 = w') :
    Live w' ∧ w'.manager.m_receiversList = w.manager.m_receiversList ∧
      w'.manager.m_knownUavsList = ∅ ∧ w'.manager.m_lifeTimerMap = ∅ ∧
      ∃ removed : List (Uav × String), (removed.map fun r => r.1.uavId).Nodup ∧
        (∀ k, k ∈ (removed.map fun r => r.1.uavId) ↔ k ∈ w.manager.m_knownUavsList) ∧
        w'.sent = w.sent ++ removed.flatMap fun r =>
          broadcast w.manager.m_receiversList (.onUavRemoved r.1 r.2) := by
  obtain ⟨ks, hks, hkeys, hmem⟩ := h.toInStep.exists_timerKeys
  have hrun : w' = {
      ((ks.map QString.number).forM (DbUavManager.timeoutSlot uninitialised)).run w |>.2 with
      manager := {
        (((ks.map QString.number).forM (DbUavManager.timeoutSlot uninitialised)).run w).2.manager with
        m_knownUavsList := ∅, m_lifeTimerMap := ∅ } } := by
    rw [← hw', DbUavManager.deleteAllUav, run_bind, run_get, run_bind, hkeys]
    rfl
  obtain ⟨hlive, hreceivers, hleft, removed, hids, hsent⟩ :=
    h.timeoutSlots hnodup hks (fun k hk => (hmem k).mp hk) rfl
  have hempty : ∀ k, k ∉ (((ks.map QString.number).forM
    (DbUavManager.timeoutSlot uninitialised)).run w).2.manager.m_knownUavsList := by
    intro k hk
    obtain ⟨hold, hnot⟩ := (hleft k).mp hk
    exact hnot ((hmem k).mpr hold)
  rw [hrun]
  refine ⟨⟨inStep_empty _, ?_⟩, hreceivers, rfl, rfl, removed, hids ▸ hks,
    fun k => by rw [hids, hmem], hsent⟩
  have htold := hlive.told
  rwa [contains_eq_false hempty] at htold

/-! ### Any number of operations -/

/-- The complete operations; each finds the database it finds. -/
inductive LiveOp where
  | addUavInfo (db : Session) (uavInfo : UavInfo) (actual : Bool) (tail tailStdDev : List QPointF)
  | expire (db : Session) (uninitialised : Uav) (key : String)
  | deleteAllUav (db : Session) (uninitialised : Uav)

/-- A life timer that runs is there under the key. -/
def timerRuns (m : DbUavManager) (key : String) : Bool :=
  (m.m_lifeTimerMap[key]?.map QTimer.running).getD false

theorem mem_of_timerRuns {m : DbUavManager} {key : String} (h : m.timerRuns key = true) :
    key ∈ m.m_lifeTimerMap := by
  rw [timerRuns] at h
  cases hget : m.m_lifeTimerMap[key]? with
  | none =>
      rw [hget] at h
      exact Bool.noConfusion h
  | some timer => exact QMap.mem_of_getElem? hget

def liveStep (w : World) : LiveOp → World
  | .addUavInfo db uavInfo actual tail tailStdDev =>
      ((addUavInfo uavInfo actual tail tailStdDev).run { w with m_dbController := db }).2
  | .expire db uninitialised key =>
      if w.manager.timerRuns key then
        ((timeoutSlot uninitialised key).run { w with m_dbController := db }).2 else w
  | .deleteAllUav db uninitialised =>
      ((deleteAllUav uninitialised).run { w with m_dbController := db }).2

/-- The manager as it is constructed, with its listeners. -/
def started (db : Session) (receivers : List Listener) : World :=
  ⟨db, { m_receiversList := receivers }, []⟩

theorem live_started (db : Session) (receivers : List Listener) : Live (started db receivers) :=
  ⟨inStep_empty receivers, Told.nil⟩

theorem uavId_lt_of_recordOf {uavInfo : UavInfo} {actual : Bool} {s s' : Session} {r : Recorded}
    (hrun : (recordOf uavInfo actual).run s = (some r, s')) : r.uav.uavId < 2 ^ 32 := by
  have hread : ∀ rows, (named (firstUav rows)).uavId < 2 ^ 32 := by
    intro rows
    have hnamed : (named (firstUav rows)).uavId = (firstUav rows).uavId := by
      rw [named]
      split <;> rfl
    rw [hnamed, firstUav]
    rcases rows.bind List.head? with _ | ⟨id, row⟩
    · decide
    · exact uint_lt row.uavId
  rw [recordOf, run_bind, run_ite] at hrun
  split at hrun
  · cases hrun
  · rw [run_ite] at hrun
    split at hrun
    · cases hrun
    · cases hrun
      exact hread _

/-- **One operation.** -/
theorem Live.step (h : Live w) (hnodup : w.manager.m_receiversList.Nodup) (op : LiveOp) :
    Live (liveStep w op) ∧ (liveStep w op).manager.m_receiversList = w.manager.m_receiversList := by
  cases op with
  | addUavInfo db uavInfo actual tail tailStdDev =>
      rw [liveStep, addUavInfo_run]
      rcases hrecord : (recordOf uavInfo actual).run db with ⟨_ | r, s⟩
      · exact ⟨h.withSession s, rfl⟩
      · exact (h.withSession s).announce hnodup (uavId_lt_of_recordOf hrecord)
  | expire db uninitialised key =>
      rw [liveStep]
      split
      · have hkey := mem_of_timerRuns ‹_›
        obtain ⟨k, hk, rfl⟩ := (h.timers key).mp hkey
        obtain ⟨s, uav, uavRole, -, hrun, hlive⟩ :=
          (h.withSession db).timeoutSlot hnodup uninitialised hk
        exact ⟨hlive, by rw [hrun]; rfl⟩
      · exact ⟨h, rfl⟩
  | deleteAllUav db uninitialised =>
      obtain ⟨hlive, hreceivers, -⟩ := (h.withSession db).deleteAllUav hnodup rfl
      exact ⟨hlive, hreceivers⟩

theorem live_run (db : Session) {receivers : List Listener} (hnodup : receivers.Nodup)
    (ops : List LiveOp) :
    Live (ops.foldl liveStep (started db receivers)) ∧
      (ops.foldl liveStep (started db receivers)).manager.m_receiversList = receivers := by
  have hstep : ∀ w op, Live w ∧ w.manager.m_receiversList = receivers → True →
      Live (liveStep w op) ∧ (liveStep w op).manager.m_receiversList = receivers := by
    rintro w op ⟨hlive, hreceivers⟩ -
    obtain ⟨hlive', hreceivers'⟩ := hlive.step (hreceivers ▸ hnodup) op
    exact ⟨hlive', hreceivers'.trans hreceivers⟩
  have hrun : Along liveStep (fun _ _ => True) (started db receivers) ops :=
    Along.of_forall fun _ _ => trivial
  exact hrun.invariant hstep ⟨live_started db receivers, rfl⟩

/-- **The live UAVs.** After any operations the timers are those of the known UAVs and run, every
listener has been told a life of every UAV that is open exactly while the UAV is known, and dropping
all UAVs empties both maps after one removal for each. -/
theorem liveUavs (db : Session) (receivers : List Listener) (hnodup : receivers.Nodup)
    (ops : List LiveOp) :
    (∀ key, key ∈ (ops.foldl liveStep (started db receivers)).manager.m_lifeTimerMap ↔
      ∃ k ∈ (ops.foldl liveStep (started db receivers)).manager.m_knownUavsList,
        QString.number k = key) ∧
    (∀ key ∈ (ops.foldl liveStep (started db receivers)).manager.m_lifeTimerMap,
      (ops.foldl liveStep (started db receivers)).manager.timerRuns key = true) ∧
    (∀ receiver ∈ receivers, ∀ k,
      Blocks.WellBracketed
        (wordOf UavNotification.uavId UavNotification.mark receiver k
          (ops.foldl liveStep (started db receivers)).sent)
        ((ops.foldl liveStep (started db receivers)).manager.m_knownUavsList.contains k)) ∧
    ∀ db' uninitialised w',
      liveStep (ops.foldl liveStep (started db receivers)) (.deleteAllUav db' uninitialised) = w' →
      w'.manager.m_knownUavsList = ∅ ∧
      w'.manager.m_lifeTimerMap = ∅ ∧
      ∃ removed : List (Uav × String),
        (removed.map fun r => r.1.uavId).Nodup ∧
        (∀ k, k ∈ (removed.map fun r => r.1.uavId) ↔
          k ∈ (ops.foldl liveStep (started db receivers)).manager.m_knownUavsList) ∧
        w'.sent = (ops.foldl liveStep (started db receivers)).sent ++
          removed.flatMap fun r => broadcast receivers (.onUavRemoved r.1 r.2) := by
  obtain ⟨hlive, hreceivers⟩ := live_run db hnodup ops
  refine ⟨hlive.timers, fun key hkey => ?_, fun receiver hreceiver k => ?_,
    fun db' uninitialised w' hw' => ?_⟩
  · obtain ⟨timer, htimer⟩ := QMap.mem_iff.mp hkey
    rw [timerRuns, htimer]
    exact hlive.running key timer htimer
  · exact hlive.told.wellBracketed (hreceivers.symm ▸ hreceiver) k
  · obtain ⟨-, -, hknown, htimers, removed, hids, hmem, hsent⟩ :=
      (hlive.withSession db').deleteAllUav (hreceivers.symm ▸ hnodup) hw'
    simp only [hreceivers] at hsent
    exact ⟨hknown, htimers, removed, hids, hmem, hsent⟩

/-- A database with the UAV 7. -/
def oneUav : Store :=
  [Write.insertDictionary .uavtypes "UnknownUavType",
    .insertRole ⟨OUR_UAV_ROLE, OUR_UAV_ROLE⟩,
    .insertUav { uavId := 7, ip := "127.0.0.1", uavTypeId := 1, roleId := 1, name := "",
                 freqId := -1 }].foldl
      (fun s w => ((s.apply w).map Prod.snd).getD s) .empty

/-- A record of the first UAV. -/
def firstRecord : UavInfo where
  uavId := 1
  source := 1
  lat := 55
  lon := 37
  latStddev := 0
  lonStddev := 0
  alt := 500
  speed := 20
  yaw := 90
  restTime := 3600000
  statusId := 1
  dateTime := ⟨0, 0⟩

theorem liveUavs_oneUav :
    Blocks.WellBracketed
      (wordOf UavNotification.uavId UavNotification.mark 0 7
        ([LiveOp.addUavInfo (.connect oneUav []) firstRecord true [] []].foldl liveStep
          (started (.connect oneUav []) [0, 1])).sent) true := by
  have hword := (liveUavs (.connect oneUav []) [0, 1] (by decide)
    [.addUavInfo (.connect oneUav []) firstRecord true [] []]).2.2.1 0 (by decide) 7
  rwa [show Std.TreeMap.contains _ 7 = true by decide +kernel] at hword

end DbUavManager

end ArmOd
