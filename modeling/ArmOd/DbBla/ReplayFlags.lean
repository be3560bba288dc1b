import ArmOd.DbBla.HistoryNotifications
import ArmOd.DbBla.LiveUavs
import ArmOd.DbBla.Separation

/-!
# Replayed and live

Who listens hears of live and of replayed UAVs, and tells them apart by a flag. Everything the replay
tells carries it. Of the live UAVs those that are removed do not carry it, since a UAV that is removed
is a known one and was read from the database.
-/

namespace ArmOd

/-- The flag of the UAV that a notification is about. -/
def UavNotification.historical : UavNotification → Bool
  | .onUavAdded uav _ => uav.historical
  | .onUavInfoChanged uavInfo _ _ _ => uavInfo.historical
  | .onUavRemoved uav _ => uav.historical

/-- Nothing is told between two states but what `allowed` allows. -/
def Sends (allowed : UavNotification → Prop) (sent sent' : List (Listener × UavNotification)) :
    Prop :=
  ∃ new, sent' = sent ++ new ∧ ∀ m ∈ new, allowed m.2

namespace Sends

variable {allowed : UavNotification → Prop} {sent sent' sent'' : List (Listener × UavNotification)}

theorem refl (allowed : UavNotification → Prop) (sent : List (Listener × UavNotification)) :
    Sends allowed sent sent :=
  ⟨[], (List.append_nil sent).symm, fun _ h => absurd h List.not_mem_nil⟩

theorem trans (h : Sends allowed sent sent') (h' : Sends allowed sent' sent'') :
    Sends allowed sent sent'' := by
  obtain ⟨new, rfl, hnew⟩ := h
  obtain ⟨new', rfl, hnew'⟩ := h'
  exact ⟨new ++ new', List.append_assoc .., List.forall_mem_append.mpr ⟨hnew, hnew'⟩⟩

theorem broadcast (receivers : List Listener) {n : UavNotification} (h : allowed n) :
    Sends allowed sent (sent ++ broadcast receivers n) :=
  ⟨_, rfl, List.forall_mem_map.mpr fun _ _ => h⟩

theorem foldl {σ α : Type} {step : σ → α → σ} (told : σ → List (Listener × UavNotification))
    {ops : List α} {s : σ} (h : ∀ s, ∀ op ∈ ops, Sends allowed (told s) (told (step s op))) :
    Sends allowed (told s) (told (ops.foldl step s)) := by
  induction ops generalizing s with
  | nil => exact .refl ..
  | cons op ops ih =>
      obtain ⟨hop, hrest⟩ := List.forall_mem_cons.mp fun op hop s => h s op hop
      exact (hop s).trans (ih fun s op hop => hrest op hop s)

end Sends

/-! ### The replay -/

namespace UavHistory

variable {h : UavHistory}

/-- The replay tells of replayed UAVs between the two states. -/
def SendsReplayed (h h' : UavHistory) : Prop :=
  Sends (fun n => n.historical = true) h.sent h'.sent

theorem SendsReplayed.stopInternal (h : UavHistory) : h.SendsReplayed h.stopInternal :=
  Sends.foldl sent fun h _ _ => .broadcast h.m_receiversList rfl

theorem SendsReplayed.stop (h : UavHistory) : h.SendsReplayed h.stop := by
  rw [UavHistory.stop]
  split
  · exact .refl ..
  · exact SendsReplayed.stopInternal (h.emit .stopped)

theorem SendsReplayed.announce {info : UavInfo} (hinfo : info.historical = true) (h : UavHistory) :
    h.SendsReplayed (h.announce info) := by
  rw [UavHistory.announce]
  dsimp only
  split
  · exact .broadcast h.m_receiversList hinfo
  · exact Sends.trans (.broadcast h.m_receiversList rfl) (.broadcast h.m_receiversList hinfo)

theorem SendsReplayed.removeOutdated (time : QDateTime) (h : UavHistory) (id : Nat) :
    h.SendsReplayed (UavHistory.removeOutdated time h id) := by
  rw [UavHistory.removeOutdated]
  split
  · exact .broadcast h.m_receiversList rfl
  · exact .refl ..

/-- All information of a second is made from rows, and made replayed. -/
theorem historical_of_mem_infos {query : QSqlQuery} {info : UavInfo}
    (hinfo : info ∈ QMap.values (infos query)) : info.historical = true := by
  have hcollect : ∀ (records : List (Option HistoryRow)) (collection : QMap String UavInfo),
      (∀ (key : String) (info : UavInfo), collection[key]? = some info → info.historical = true) →
      ∀ (key : String) (info : UavInfo), (records.foldl (fun infos record => collectInfo infos (record.getD {}).info)
        collection)[key]? = some info → info.historical = true := by
    intro records
    induction records with
    | nil => exact fun _ hall => hall
    | cons record records ih =>
        refine fun collection hall => ih _ fun key info hget => ?_
        dsimp only [collectInfo] at hget
        rw [QMap.getElem?_insert] at hget
        split at hget
        · cases hget
          rfl
        · exact hall key info hget
  obtain ⟨⟨key, value⟩, hmem, rfl⟩ := List.mem_map.mp hinfo
  refine hcollect query.group ∅ (fun key info hget => ?_) key value
    (Std.TreeMap.mem_toList_iff_getElem?_eq_some.mp hmem)
  exact absurd (QMap.mem_of_getElem? hget) Std.TreeMap.not_mem_emptyc

theorem SendsReplayed.updateHistoryState (h : UavHistory) :
    h.SendsReplayed h.updateHistoryState := by
  have hloop : h.SendsReplayed h.afterLoop := by
    have hremembered : (h.m_query.group.foldl (fun h record => h.remember record) h).sent =
        h.sent :=
      congrArg Audience.sent (audience_foldl_remember h.m_query.group h)
    rw [SendsReplayed, afterLoop]
    split
    · rw [← hremembered]
      exact SendsReplayed.stop { h.m_query.group.foldl (fun h record => h.remember record) h with
        m_query := {} }
    · rw [← hremembered]
      exact .refl ..
  rw [updateHistoryState_eq, deliver]
  refine Sends.trans hloop (Sends.trans (Sends.foldl sent fun h info hinfo => ?_)
    (Sends.foldl sent fun h id _ => SendsReplayed.removeOutdated _ h id))
  exact SendsReplayed.announce (historical_of_mem_infos hinfo) h

theorem SendsReplayed.startInternal (result : QueryResult) (mode : Int) (h : UavHistory) :
    h.SendsReplayed (h.startInternal result mode) := by
  have hstop := SendsReplayed.stop h
  rcases result with _ | _ | ⟨row, rest⟩
  · exact hstop
  · exact hstop
  · rw [UavHistory.startInternal]
    dsimp only
    split
    · exact Sends.trans hstop
        (SendsReplayed.updateHistoryState { h.stop with m_query := ⟨some row, rest⟩ })
    split
    · have hexported := congrArg Audience.sent
        (audience_exportRows row rest 0 { h.stop with m_query := ⟨some row, rest⟩ } ∅)
      exact Eq.mpr (congrArg (Sends _ h.sent) hexported) hstop
    · exact hstop

/-- **Whatever the replay does, it tells of replayed UAVs.** -/
theorem SendsReplayed.step (h : UavHistory) (op : HistoryOp) : h.SendsReplayed (h.step op) := by
  cases op with
  | start result mode =>
      rw [UavHistory.step, start]
      split
      · exact .refl ..
      · exact SendsReplayed.startInternal result mode (h.sendStatusOf .Loading)
  | stop => exact SendsReplayed.stop h
  | started result mode => exact SendsReplayed.startInternal result mode h
  | stopped => exact SendsReplayed.stopInternal h
  | paused =>
      rw [UavHistory.step, pauseInternal]
      split <;> exact .refl ..
  | resumed =>
      rw [UavHistory.step, resumeInternal]
      split <;> exact .refl ..
  | timeout =>
      rw [UavHistory.step]
      split
      · exact SendsReplayed.updateHistoryState h
      · exact .refl ..

end UavHistory

/-! ### The live UAVs -/

namespace DbUavManager

open DbUavController

/-- No UAV of the replay is known. -/
def KnowsLive (m : DbUavManager) : Prop :=
  ∀ (k : Nat) (uav : Uav), m.m_knownUavsList[k]? = some uav → uav.historical = false

/-- A notification that is not the end of a replayed UAV. -/
def EndsLive : UavNotification → Prop
  | .onUavRemoved uav _ => uav.historical = false
  | _ => True

/-- Only live UAVs have ended since `sent`, and only such are known. -/
structure StaysLive (sent : List (Listener × UavNotification)) (w : World) : Prop where
  knows : w.manager.KnowsLive
  sends : Sends EndsLive sent w.sent

variable {w : World}

theorem StaysLive.trans {w' : World} {sent : List (Listener × UavNotification)}
    (h : StaysLive sent w) (h' : StaysLive w.sent w') : StaysLive sent w' :=
  ⟨h'.knows, h.sends.trans h'.sends⟩

theorem StaysLive.trackUav (h : w.manager.KnowsLive) {uav : Uav} (huav : uav.historical = false)
    (uavRole : String) : StaysLive w.sent ((trackUav uav uavRole).run w).2 := by
  have hstart : ∀ m : DbUavManager, m.KnowsLive → (m.startTimer uav.uavId).KnowsLive := by
    intro m hm
    rwa [KnowsLive, (startTimer_keeps m uav.uavId).1]
  obtain ⟨new, hsent, hnew⟩ := trackUav_sent uav uavRole w
  refine ⟨?_, new, hsent, fun m hm => by rw [hnew m hm]; trivial⟩
  cases hisNew : w.manager.isNew uav.uavId with
  | true =>
      simp only [DbUavManager.trackUav, run_bind, run_get, run_update, run_notify, hisNew, if_true]
      refine hstart _ fun k other hget => ?_
      rw [insertUav, QMap.getElem?_insert] at hget
      split at hget
      · cases hget
        exact huav
      · exact h k other hget
  | false =>
      simp only [DbUavManager.trackUav, run_bind, run_get, run_update, hisNew, Bool.false_eq_true,
        if_false]
      exact hstart _ h

theorem historical_of_recordOf {uavInfo : UavInfo} {actual : Bool} {s s' : Session} {r : Recorded}
    (hrun : (recordOf uavInfo actual).run s = (some r, s')) : r.uav.historical = false := by
  have hread : ∀ rows, (named (firstUav rows)).historical = false := by
    intro rows
    have hfirst : (firstUav rows).historical = false := by
      rw [firstUav]
      split <;> rfl
    rw [named]
    split <;> exact hfirst
  rw [recordOf, run_bind, run_ite] at hrun
  split at hrun
  · cases hrun
  · rw [run_ite] at hrun
    split at hrun
    · cases hrun
    · cases hrun
      exact hread _

theorem StaysLive.announce (h : w.manager.KnowsLive) {r : Recorded}
    (hr : r.uav.historical = false) (uavInfo : UavInfo) (tail tailStdDev : List QPointF) :
    StaysLive w.sent ((announce uavInfo r tail tailStdDev).run w).2 := by
  have htrack := StaysLive.trackUav h hr r.uavRole
  rw [DbUavManager.announce, run_bind, run_ite]
  split
  · rw [run_notify]
    exact ⟨htrack.knows, htrack.sends.trans (.broadcast _ trivial)⟩
  · exact htrack

theorem StaysLive.timeoutSlot (h : w.manager.KnowsLive) (hlive : Live w) (uninitialised : Uav)
    {k : Nat} (hk : k ∈ w.manager.m_knownUavsList) :
    StaysLive w.sent ((timeoutSlot uninitialised (QString.number k)).run w).2 := by
  obtain ⟨uav, huav⟩ := QMap.mem_iff.mp hk
  have hget : w.manager.m_knownUavsList.getD k uninitialised = uav := by
    rw [Std.TreeMap.getD_eq_getD_getElem?, huav, Option.getD_some]
  simp only [DbUavManager.timeoutSlot, run_bind, run_get, run_update, run_db, run_notify,
    QString.toUInt_number (hlive.small k hk), hget]
  refine ⟨fun k' other hother => ?_, .broadcast _ (h k uav huav)⟩
  rw [takeUav, QMap.getElem?_erase_eq_some] at hother
  exact h k' other hother.2

theorem StaysLive.timeoutSlots (h : w.manager.KnowsLive) (hlive : Live w)
    (hnodup : w.manager.m_receiversList.Nodup) (uninitialised : Uav) {ks : List Nat}
    (hks : ks.Nodup) (hknown : ∀ k ∈ ks, k ∈ w.manager.m_knownUavsList) :
    StaysLive w.sent
      (((ks.map QString.number).forM (DbUavManager.timeoutSlot uninitialised)).run w).2 := by
  induction ks generalizing w with
  | nil => exact ⟨h, .refl ..⟩
  | cons k ks ih =>
      obtain ⟨hk, hrest⟩ := List.nodup_cons.mp hks
      have hmem := hknown k List.mem_cons_self
      have hfirst := StaysLive.timeoutSlot h hlive uninitialised hmem
      obtain ⟨s, uav, uavRole, -, hrun, hlive'⟩ := hlive.timeoutSlot hnodup uninitialised hmem
      rw [List.map_cons, run_forM_cons]
      refine hfirst.trans (ih hfirst.knows hlive' ?_ hrest fun k' hk' => ?_)
      · rw [hrun]
        exact hnodup
      · rw [hrun, takeUav, QString.toUInt_number (hlive.small k hmem), QMap.mem_erase]
        exact ⟨fun heq => hk (heq ▸ hk'), hknown k' (List.mem_cons_of_mem k hk')⟩

/-- **An operation ends live UAVs only.** -/
theorem StaysLive.step (h : w.manager.KnowsLive) (hlive : Live w)
    (hnodup : w.manager.m_receiversList.Nodup) (op : LiveOp) : StaysLive w.sent (liveStep w op) := by
  cases op with
  | addUavInfo db uavInfo actual tail tailStdDev =>
      rw [liveStep, addUavInfo_run]
      rcases hrecord : (recordOf uavInfo actual).run db with ⟨_ | r, s⟩
      · exact ⟨h, .refl ..⟩
      · exact StaysLive.announce (w := { w with m_dbController := s }) h
          (historical_of_recordOf hrecord) uavInfo tail tailStdDev
  | expire db uninitialised key =>
      rw [liveStep]
      split
      · obtain ⟨k, hk, rfl⟩ := (hlive.timers key).mp (mem_of_timerRuns ‹_›)
        exact StaysLive.timeoutSlot (w := { w with m_dbController := db }) h
          (hlive.withSession db) uninitialised hk
      · exact ⟨h, .refl ..⟩
  | deleteAllUav db uninitialised =>
      obtain ⟨ks, hks, hkeys, hmem⟩ := hlive.toInStep.exists_timerKeys
      have hslots := StaysLive.timeoutSlots (w := { w with m_dbController := db }) h
        (hlive.withSession db) hnodup uninitialised hks fun k hk => (hmem k).mp hk
      rw [liveStep, DbUavManager.deleteAllUav, run_bind, run_get, run_bind, hkeys]
      exact ⟨fun k uav hget => absurd (QMap.mem_of_getElem? hget) Std.TreeMap.not_mem_emptyc,
        hslots.sends⟩

end DbUavManager

end ArmOd
