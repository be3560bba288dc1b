import ArmOd.DbBla.HistoryReplay

/-!
# What the replay tells its listeners

The list of known UAVs is what the listeners have been told: a UAV is added to it with
`onUavAdded`, and each way out of it sends `onUavRemoved`. The last dates are a second list with the
same ids, except that an export writes to it too, and that stopping empties it while the second in
hand has still to be told.
-/

namespace ArmOd

theorem uavId_eq_of_getExtendedId {a b : UavInfo} (h : getExtendedId a = getExtendedId b) :
    a.uavId = b.uavId := by
  have hdigits : ∀ info : UavInfo,
      (getExtendedId info).toList.takeWhile Char.isDigit = (QString.number info.uavId).toList := by
    intro info
    have hall : ∀ c ∈ (QString.number info.uavId).toList, c.isDigit = true := by
      rw [QString.toList_number]
      exact fun c hc => Nat.isDigit_of_mem_toDigits (by decide) (by decide) hc
    simp only [getExtendedId, String.toList_append, List.append_assoc]
    rw [List.takeWhile_append_of_pos hall]
    exact List.append_nil _
  have htexts := hdigits a
  rw [h, hdigits b] at htexts
  exact (QString.number_injective (String.toList_injective htexts)).symm

namespace UavHistory

/-! ### What the listeners have been told -/

/-- The listeners, what they know and what they were sent. -/
structure Audience where
  m_receiversList : List Listener
  m_knownUavsList : QMap Nat Uav
  sent : List (Listener × UavNotification)

def audience (h : UavHistory) : Audience := ⟨h.m_receiversList, h.m_knownUavsList, h.sent⟩

/-- Every listener has been told the life of every UAV, which goes on exactly for the known ones. -/
structure Informed (receivers : List Listener) (a : Audience) : Prop where
  listeners : a.m_receiversList = receivers
  told : Told UavNotification.uavId UavNotification.mark receivers
    (a.m_knownUavsList.contains ·) a.sent

variable {receivers : List Listener} {h : UavHistory}

theorem told_foldl_removed (hnodup : receivers.Nodup) {isOpen : Nat → Bool} {ids : List Nat}
    (hids : ids.Nodup)
    (hopen : ∀ id ∈ ids, isOpen id = true) (hreceivers : h.m_receiversList = receivers)
    (htold : Told UavNotification.uavId UavNotification.mark receivers isOpen h.sent) :
    Told UavNotification.uavId UavNotification.mark receivers
      (fun id => isOpen id && !decide (id ∈ ids))
      (ids.foldl (fun h id => h.notify (h.removed id)) h).sent := by
  induction ids generalizing h isOpen with
  | nil => simpa using htold
  | cons id ids ih =>
      obtain ⟨hid, hrest⟩ := List.nodup_cons.mp hids
      have hone : Told UavNotification.uavId UavNotification.mark receivers
        (fun k => isOpen k && !decide (k = id))
          (h.notify (h.removed id)).sent := by
        rw [notify, hreceivers]
        refine htold.broadcast hnodup ?_ fun k hk => ?_
        · change Blocks.next (isOpen id) .removed = some (isOpen id && !decide (id = id))
          rw [hopen id List.mem_cons_self, decide_eq_true rfl]
          rfl
        · change k ≠ id at hk
          rw [decide_eq_false hk, Bool.not_false, Bool.and_true]
      have hleft : ∀ k ∈ ids, (isOpen k && !decide (k = id)) = true := by
        intro k hk
        have hne : k ≠ id := fun heq => hid (heq ▸ hk)
        rw [hopen k (List.mem_cons_of_mem id hk), decide_eq_false hne]
        rfl
      have hall := ih (h := h.notify (h.removed id)) hrest hleft hreceivers hone
      rw [List.foldl_cons]
      convert hall using 2 with k
      simp only [List.mem_cons, Bool.decide_or, Bool.not_or, Bool.and_assoc]

theorem Informed.stopInternal (hnodup : receivers.Nodup) (hinf : Informed receivers h.audience) :
    Informed receivers h.stopInternal.audience := by
  have hknown : ∀ id ∈ h.m_knownUavsList.keys, h.m_knownUavsList.contains id = true :=
    fun id hid => Std.TreeMap.mem_keys.mp hid
  have hall := told_foldl_removed hnodup Std.TreeMap.nodup_keys hknown hinf.listeners hinf.told
  have hreceivers := foldl_keeps (fun h id => h.notify (h.removed id)) m_receiversList
    (fun _ _ => rfl) h
    h.m_knownUavsList.keys
  have hnone : (fun id => h.m_knownUavsList.contains id && !decide (id ∈ h.m_knownUavsList.keys))
    = fun _ => false := by
    funext id
    cases hid : h.m_knownUavsList.contains id with
    | false => rfl
    | true =>
        rw [decide_eq_true (Std.TreeMap.mem_keys.mpr hid)]
        rfl
  rw [hnone] at hall
  exact ⟨hreceivers.trans hinf.listeners, hall⟩

theorem Informed.stop (hnodup : receivers.Nodup) (hinf : Informed receivers h.audience) :
    Informed receivers h.stop.audience := by
  rw [UavHistory.stop]
  split
  · exact hinf
  · exact Informed.stopInternal (h := h.emit .stopped) hnodup hinf

/-! ### One second -/

theorem Informed.announce (hnodup : receivers.Nodup) (info : UavInfo)
    (hinf : Informed receivers h.audience) :
    Informed receivers (h.announce info).audience := by
  have hreceivers : h.m_receiversList = receivers := hinf.listeners
  -- the information comes after the UAV is known, whether it was known before or not
  have hchanged : ∀ (h : UavHistory) role, h.m_knownUavsList.contains info.uavId = true →
    h.m_receiversList = receivers →
      Told UavNotification.uavId UavNotification.mark receivers
      (h.m_knownUavsList.contains ·) h.sent →
      Told UavNotification.uavId UavNotification.mark receivers (h.m_knownUavsList.contains ·)
        (h.notify (.onUavInfoChanged info role [] [])).sent := by
    intro h role hknown hreceivers htold
    rw [notify, hreceivers]
    exact htold.onUavInfoChanged hnodup hknown role [] []
  rw [UavHistory.announce]
  dsimp only
  split
  · rename_i hknown
    exact ⟨hreceivers, hchanged h _ hknown hreceivers hinf.told⟩
  · rename_i hnew
    refine ⟨hreceivers, hchanged _ _ QMap.contains_insert_self hreceivers ?_⟩
    rw [notify, hreceivers]
    refine hinf.told.onUavAdded hnodup ?_ _
    exact Bool.eq_false_iff.mpr hnew

theorem mem_known_announce {info : UavInfo} {id : Nat} :
    id ∈ (h.announce info).m_knownUavsList ↔ id = info.uavId ∨ id ∈ h.m_knownUavsList := by
  rw [announce]
  dsimp only
  split
  · rename_i hknown
    exact ⟨Or.inr, fun hid => hid.elim (fun heq => heq ▸ hknown) fun hold => hold⟩
  · exact QMap.mem_insert.trans (or_congr_left eq_comm)

theorem announce_m_uavLastDate (info : UavInfo) (h : UavHistory) :
    (h.announce info).m_uavLastDate = h.m_uavLastDate := by
  rw [announce]
  split <;> rfl

theorem announce_m_lifeTime (info : UavInfo) (h : UavHistory) :
    (h.announce info).m_lifeTime = h.m_lifeTime := by
  rw [announce]
  split <;> rfl

/-- Telling a second's information: all its UAVs are known afterwards. -/
theorem Informed.foldl_announce (hnodup : receivers.Nodup) (infos : List UavInfo)
    (hinf : Informed receivers h.audience) :
    Informed receivers (infos.foldl (fun h info => h.announce info) h).audience ∧
      ∀ id, id ∈ (infos.foldl (fun h info => h.announce info) h).m_knownUavsList ↔
        id ∈ infos.map UavInfo.uavId ∨ id ∈ h.m_knownUavsList := by
  induction infos generalizing h with
  | nil => exact ⟨hinf, fun id => by simp⟩
  | cons info infos ih =>
      obtain ⟨hinf', hknown⟩ := ih (hinf.announce hnodup info)
      refine ⟨hinf', fun id => ?_⟩
      rw [List.foldl_cons, hknown, mem_known_announce, List.map_cons, List.mem_cons,
        or_left_comm, or_assoc]

/-- Every outdated UAV is a known one. -/
def OutdatedKnown (time : QDateTime) (h : UavHistory) (ids : List Nat) : Prop :=
  ∀ id ∈ ids, h.outdated time id = true → id ∈ h.m_knownUavsList

theorem Informed.removeOutdated (hnodup : receivers.Nodup) {time : QDateTime} {id : Nat}
    (hknown : h.outdated time id = true → id ∈ h.m_knownUavsList)
    (hinf : Informed receivers h.audience) :
    Informed receivers (removeOutdated time h id).audience := by
  rw [UavHistory.removeOutdated]
  split
  · rename_i houtdated
    refine ⟨hinf.listeners, ?_⟩
    change Told UavNotification.uavId UavNotification.mark receivers
      ((h.m_knownUavsList.erase id).contains ·)
      (h.sent ++ broadcast h.m_receiversList (h.removed id))
    rw [show h.m_receiversList = receivers from hinf.listeners]
    refine hinf.told.onUavRemoved hnodup ?_ _
    exact hknown houtdated
  · exact hinf

theorem outdatedKnown_removeOutdated {time : QDateTime} {id : Nat} {ids : List Nat} (hid : id ∉ ids)
    (hknown : OutdatedKnown time h ids) : OutdatedKnown time (removeOutdated time h id) ids := by
  rw [removeOutdated]
  split
  · intro k hk houtdated
    have hne : id ≠ k := fun heq => hid (heq ▸ hk)
    refine QMap.mem_erase.mpr ⟨hne, hknown k hk ?_⟩
    rw [← houtdated, outdated, outdated]
    dsimp only [notify]
    rw [Std.TreeMap.getD_eq_getD_getElem?, Std.TreeMap.getD_eq_getD_getElem?,
      QMap.getElem?_erase, if_neg hne]
    rfl
  · exact hknown

theorem Informed.foldl_removeOutdated (hnodup : receivers.Nodup) {time : QDateTime} {ids : List Nat}
    (hids : ids.Nodup)
    (hknown : OutdatedKnown time h ids) (hinf : Informed receivers h.audience) :
    Informed receivers (ids.foldl (UavHistory.removeOutdated time) h).audience := by
  induction ids generalizing h with
  | nil => exact hinf
  | cons id ids ih =>
      obtain ⟨hid, hrest⟩ := List.nodup_cons.mp hids
      have hothers : OutdatedKnown time h ids := fun k hk => hknown k (List.mem_cons_of_mem id hk)
      exact ih hrest (outdatedKnown_removeOutdated hid hothers)
        (hinf.removeOutdated hnodup (hknown id List.mem_cons_self))

/-- **Delivering a second.** It is told right if whoever is outdated is known, or told about now. -/
theorem Informed.deliver (hnodup : receivers.Nodup) {time : QDateTime}
    {infoCollection : QMap String UavInfo}
    (hknown : ∀ id ∈ h.m_uavLastDate, h.outdated time id = true →
      id ∈ (QMap.values infoCollection).map UavInfo.uavId ∨ id ∈ h.m_knownUavsList)
    (hinf : Informed receivers h.audience) : Informed receivers
    (deliver time infoCollection h).audience := by
  obtain ⟨hinf', hmem⟩ := hinf.foldl_announce hnodup (QMap.values infoCollection)
  have hdates := foldl_keeps (fun h info => UavHistory.announce info h) m_uavLastDate
    (fun h info => announce_m_uavLastDate info h) h (QMap.values infoCollection)
  have hlife := foldl_keeps (fun h info => UavHistory.announce info h) m_lifeTime
    (fun h info => announce_m_lifeTime info h) h (QMap.values infoCollection)
  refine hinf'.foldl_removeOutdated hnodup Std.TreeMap.nodup_keys fun id hid houtdated => ?_
  rw [outdated, hdates, hlife] at houtdated
  rw [hdates, Std.TreeMap.mem_keys] at hid
  exact (hmem id).mpr (hknown id hid houtdated)

/-! ### Reading a second -/

/-- The UAV a record is about. -/
def recordUav (record : Option HistoryRow) : Nat := (record.getD {}).info.uavId

theorem getElem?_foldl_remember {records : List (Option HistoryRow)} {id : Nat}
    (hid : id ∉ records.map recordUav) :
    (records.foldl (fun h record => h.remember record) h).m_uavLastDate[id]? =
    h.m_uavLastDate[id]? := by
  induction records generalizing h with
  | nil => rfl
  | cons record records ih =>
      rw [List.map_cons, List.mem_cons, not_or] at hid
      rw [List.foldl_cons, ih hid.2]
      exact QMap.getElem?_insert.trans (if_neg fun heq => hid.1 heq.symm)

theorem audience_foldl_remember (records : List (Option HistoryRow)) (h : UavHistory) :
    (records.foldl (fun h record => h.remember record) h).audience = h.audience :=
  foldl_keeps (fun h record => UavHistory.remember record h) audience (fun _ _ => rfl) h records

theorem m_lifeTime_foldl_remember (records : List (Option HistoryRow)) (h : UavHistory) :
    (records.foldl (fun h record => h.remember record) h).m_lifeTime = h.m_lifeTime :=
  foldl_keeps (fun h record => UavHistory.remember record h) m_lifeTime (fun _ _ => rfl) h records

/-- The collection has information about a UAV, under its own key. -/
def HasInfo (infoCollection : QMap String UavInfo) (id : Nat) : Prop :=
  ∃ info, infoCollection[getExtendedId info]? = some info ∧ info.uavId = id

theorem hasInfo_collectInfo_self (infoCollection : QMap String UavInfo) (info : UavInfo) :
    HasInfo (collectInfo infoCollection info) info.uavId :=
  ⟨info, QMap.getElem?_insert.trans (if_pos rfl), rfl⟩

theorem HasInfo.collectInfo {infoCollection : QMap String UavInfo} {id : Nat}
    (hinfo : HasInfo infoCollection id)
    (info : UavInfo) : HasInfo (collectInfo infoCollection info) id := by
  obtain ⟨old, hold, rfl⟩ := hinfo
  by_cases hkey : getExtendedId info = getExtendedId old
  · rw [← uavId_eq_of_getExtendedId hkey]
    exact hasInfo_collectInfo_self infoCollection info
  · exact ⟨old, QMap.getElem?_insert.trans ((if_neg hkey).trans hold), rfl⟩

theorem hasInfo_foldl_collectInfo {records : List (Option HistoryRow)}
    {infoCollection : QMap String UavInfo} {id : Nat}
    (hid : id ∈ records.map recordUav ∨ HasInfo infoCollection id) :
    HasInfo (records.foldl (fun infos record => collectInfo infos (record.getD {}).info)
      infoCollection) id := by
  induction records generalizing infoCollection with
  | nil => exact hid.resolve_left List.not_mem_nil
  | cons record records ih =>
      refine ih ?_
      rw [List.map_cons, List.mem_cons, or_assoc] at hid
      rcases hid with rfl | hrest | hinfo
      · exact Or.inr (hasInfo_collectInfo_self infoCollection _)
      · exact Or.inl hrest
      · exact Or.inr (hinfo.collectInfo _)

theorem mem_infos {query : QSqlQuery} {id : Nat} (hid : id ∈ query.group.map recordUav) :
    id ∈ (QMap.values (infos query)).map UavInfo.uavId := by
  have hinfos : HasInfo (infos query) id := hasInfo_foldl_collectInfo (Or.inl hid)
  obtain ⟨info, hinfo, rfl⟩ := hinfos
  exact List.mem_map_of_mem (QMap.mem_values_of_getElem? hinfo)

/-- No UAV has a last date that is outdated at the second of the query, unless it is known or has a
row in this second. -/
def nothingStale (h : UavHistory) (query : QSqlQuery) : Bool :=
  h.m_uavLastDate.keys.all fun id =>
    h.m_knownUavsList.contains id || decide (id ∈ query.group.map recordUav) || !h.outdated
      query.record.time id

/-- **A step of the replay** tells every life right, where nothing stale is left over from an
export. -/
theorem Informed.updateHistoryState (hnodup : receivers.Nodup)
    (hstale : nothingStale h h.m_query = true)
    (hinf : Informed receivers h.audience) : Informed receivers h.updateHistoryState.audience := by
  have hremembered : Informed receivers
    (h.m_query.group.foldl (fun h record => h.remember record) h).audience := by
    rwa [audience_foldl_remember]
  -- an outdated UAV that is in no row of this second had its date before, and nothing stale means
  -- it is known
  have hknown : ∀ id ∈ (h.m_query.group.foldl (fun h record => h.remember record) h).m_uavLastDate,
      (h.m_query.group.foldl (fun h record => h.remember record) h).outdated
      h.m_query.record.time id = true →
      id ∈ (QMap.values (infos h.m_query)).map UavInfo.uavId ∨
        id ∈ (h.m_query.group.foldl (fun h record => h.remember record) h).m_knownUavsList := by
    intro id hid houtdated
    by_cases hrow : id ∈ h.m_query.group.map recordUav
    · exact Or.inl (mem_infos hrow)
    refine Or.inr ?_
    have hdate := getElem?_foldl_remember (h := h) hrow
    rw [outdated, Std.TreeMap.getD_eq_getD_getElem?, hdate, m_lifeTime_foldl_remember,
      ← Std.TreeMap.getD_eq_getD_getElem?] at houtdated
    rw [QMap.mem_iff, hdate, ← QMap.mem_iff, ← Std.TreeMap.mem_keys] at hid
    rw [show (h.m_query.group.foldl (fun h record => h.remember record) h).m_knownUavsList
      = h.m_knownUavsList from
      congrArg Audience.m_knownUavsList (audience_foldl_remember _ h)]
    have hthis := List.all_eq_true.mp hstale id hid
    rw [decide_eq_false hrow, Bool.or_false, Bool.or_eq_true, Bool.not_eq_true'] at hthis
    refine hthis.resolve_right fun hfresh => ?_
    rw [outdated, houtdated] at hfresh
    exact Bool.noConfusion hfresh
  rw [updateHistoryState_eq, afterLoop]
  rcases h.m_query.beyond with _ | ⟨next, after⟩
  · dsimp only
    rw [UavHistory.stop]
    split
    · exact Informed.deliver hnodup hknown hremembered
    · -- stopping has told the end of every UAV and emptied the dates
      refine Informed.deliver hnodup (fun id hid => ?_) (hremembered.stopInternal hnodup)
      exact absurd hid Std.TreeMap.not_mem_emptyc
  · exact Informed.deliver hnodup hknown hremembered

/-! ### Any number of operations -/

/-- Every life is told, and none goes on while the object is ready. -/
structure Bracketed (receivers : List Listener) (h : UavHistory) : Prop where
  informed : Informed receivers h.audience
  ready : h.getStatus = .Ready → h.m_knownUavsList = ∅

/-- A replay can be started over the result, with nothing stale left over from an export. -/
def startsFresh (h : UavHistory) : QueryResult → Bool
  | .rows (row :: rest) => h.getStatus != .Ready || nothingStale h ⟨some row, rest⟩
  | _ => true

/-- Every tick leaves a second to come, and nothing stale is left over where a replay steps. -/
def Continues (h : UavHistory) : HistoryOp → Prop
  | .start result mode => h.databaseValid = true → mode = 0 → startsFresh h result = true
  | .started result mode => mode = 0 → startsFresh h result = true
  | .timeout => h.m_timer = true → h.m_query.hasNextSecond = true ∧ nothingStale h h.m_query = true
  | _ => True

theorem Bracketed.known_stop (hbr : Bracketed receivers h) : h.stop.m_knownUavsList = ∅ := by
  rw [UavHistory.stop]
  split
  · exact hbr.ready ‹_›
  · rfl

theorem Bracketed.of_busy (hinf : Informed receivers h.audience)
    (hbusy : h.m_timer = true ∨ h.m_isPaused = true) :
    Bracketed receivers h := by
  refine ⟨hinf, fun hready => ?_⟩
  obtain ⟨htimer, hpaused⟩ := idle_of_ready hready
  rw [htimer, hpaused] at hbusy
  exact hbusy.elim (fun h => nomatch h) fun h => nomatch h

theorem audience_exportRows (record : HistoryRow) (rest : List HistoryRow) (cnt : Nat)
    (h : UavHistory)
    (infoCollection : QMap String UavInfo) :
    (exportRows record rest cnt h infoCollection).1.audience = h.audience := by
  induction rest generalizing record cnt h infoCollection with
  | nil => rfl
  | cons next rest ih =>
      rw [exportRows, ih]
      rfl

/-- Stopping leaves nothing stale, unless there was nothing to stop. -/
theorem nothingStale_stop {row : HistoryRow} {rest : List HistoryRow}
    (hfresh : startsFresh h (.rows (row :: rest)) = true) :
    nothingStale h.stop ⟨some row, rest⟩ = true := by
  rw [UavHistory.stop]
  split
  · rename_i hready
    rwa [startsFresh, hready] at hfresh
  · rfl

theorem Bracketed.startInternal (hnodup : receivers.Nodup) (hbr : Bracketed receivers h)
    {result : QueryResult}
    {mode : Int} (hfresh : mode = 0 → startsFresh h result = true) : Bracketed receivers
    (h.startInternal result mode) := by
  have hinf : Informed receivers h.stop.audience := hbr.informed.stop hnodup
  have hnone : h.stop.m_knownUavsList = ∅ := hbr.known_stop
  rcases result with _ | _ | ⟨row, rest⟩
  · exact ⟨hinf, fun _ => hnone⟩
  · exact ⟨hinf, fun _ => hnone⟩
  · simp only [UavHistory.startInternal]
    split_ifs with hplay hexport
    · refine Bracketed.of_busy ?_ (Or.inl rfl)
      exact Informed.updateHistoryState (h := { h.stop with m_query := ⟨some row, rest⟩ }) hnodup
        (nothingStale_stop (hfresh hplay)) hinf
    · have hexported := audience_exportRows row rest 0 { h.stop with m_query := ⟨some row, rest⟩ } ∅
      refine ⟨?_, fun _ => (congrArg Audience.m_knownUavsList hexported).trans hnone⟩
      exact Eq.mpr (congrArg (Informed receivers) hexported) hinf
    · exact ⟨hinf, fun _ => hnone⟩

/-- **One operation.** -/
theorem Bracketed.step (hnodup : receivers.Nodup) (hbr : Bracketed receivers h) {op : HistoryOp}
    (hop : Continues h op) :
    Bracketed receivers (h.step op) := by
  cases op with
  | start result mode =>
      simp only [UavHistory.step, start]
      split
      · exact hbr
      · rename_i hvalid
        have hloading : Bracketed receivers (h.sendStatusOf .Loading) := ⟨hbr.informed, hbr.ready⟩
        have hstarted : Bracketed receivers ((h.sendStatusOf .Loading).startInternal result mode) :=
          hloading.startInternal hnodup (hop (by simpa using hvalid))
        exact ⟨hstarted.informed, hstarted.ready⟩
  | stop => exact ⟨hbr.informed.stop hnodup, fun _ => hbr.known_stop⟩
  | started result mode => exact hbr.startInternal hnodup hop
  | stopped => exact ⟨hbr.informed.stopInternal hnodup, fun _ => rfl⟩
  | paused =>
      rw [UavHistory.step, pauseInternal]
      split
      · exact hbr
      · exact Bracketed.of_busy hbr.informed (Or.inr rfl)
  | resumed =>
      rw [UavHistory.step, resumeInternal]
      split
      · exact hbr
      · exact Bracketed.of_busy hbr.informed (Or.inl rfl)
  | timeout =>
      rw [UavHistory.step]
      split
      · rename_i htimer
        obtain ⟨hnext, hstale⟩ := hop htimer
        refine Bracketed.of_busy (hbr.informed.updateHistoryState hnodup hstale) (Or.inl ?_)
        have hcontrol := congrArg Control.m_timer (control_updateHistoryState h)
        exact hcontrol.trans (by rw [htimer, hnext]; rfl)
      · exact hbr

/-- **The notifications of the replay.** In a run whose ticks all leave a second to come, and whose
steps find nothing stale, every listener is told the life of every UAV, and none goes on while the
object is ready. -/
theorem notificationsBracketed (databaseValid databaseOpen startResult : Bool) (lifeTime : Int)
    (receivers : List Listener) (hnodup : receivers.Nodup) (ops : List HistoryOp)
    (hrun : Along step Continues (constructed databaseValid databaseOpen startResult lifeTime
      receivers) ops)
    (before : List HistoryOp) (hbefore : before <+: ops) (receiver : Listener)
    (hreceiver : receiver ∈ receivers)
    (uavId : Nat) :
    ∃ isOpen, Blocks.WellBracketed (wordOf UavNotification.uavId UavNotification.mark receiver uavId
        (before.foldl step (constructed databaseValid databaseOpen startResult lifeTime
        receivers)).sent) isOpen ∧
      ((before.foldl step (constructed databaseValid databaseOpen startResult lifeTime
        receivers)).getStatus = .Ready →
        isOpen = false) := by
  have hinit : Bracketed receivers
    (constructed databaseValid databaseOpen startResult lifeTime receivers) :=
    ⟨⟨rfl, Told.nil⟩, fun _ => rfl⟩
  obtain ⟨after, rfl⟩ := hbefore
  have hbr : Bracketed receivers (before.foldl step
    (constructed databaseValid databaseOpen startResult lifeTime receivers)) :=
    (Along.append.mp hrun).1.invariant (fun _ _ hbr hop => hbr.step hnodup hop) hinit
  refine ⟨_, hbr.informed.told.wellBracketed hreceiver uavId, fun hready => ?_⟩
  change Std.TreeMap.contains (before.foldl step _).m_knownUavsList uavId = false
  rw [hbr.ready hready]
  rfl

/-- A replay of three seconds that is stopped in its second one. -/
def stoppedReplay : List HistoryOp :=
  [.start (.rows [rowAt 7 0, rowAt 7 1, rowAt 8 2]) 0, .timeout, .paused, .resumed, .stop]

theorem notificationsBracketed_stoppedReplay :
    ∃ isOpen, Blocks.WellBracketed (wordOf UavNotification.uavId UavNotification.mark 0 7
        (stoppedReplay.foldl step (constructed true true true 30000 [0, 1])).sent) isOpen ∧
      ((stoppedReplay.foldl step (constructed true true true 30000 [0, 1])).getStatus = .Ready →
        isOpen = false) :=
  notificationsBracketed true true true 30000 [0, 1] (by decide) stoppedReplay
    ⟨fun _ _ => by decide +kernel, fun _ => by decide +kernel, trivial, trivial, trivial, trivial⟩
    stoppedReplay (List.prefix_refl _) 0 (by decide) 7

/-- The tick that takes the last second stops the replay first, and then tells of a UAV whose life
nothing ends. -/
theorem lastSecond_goesOn : ¬ ∀ (ops : List HistoryOp) (receiver : Listener) (uavId : Nat),
    receiver ∈ [0] →
    ∃ isOpen, Blocks.WellBracketed (wordOf UavNotification.uavId UavNotification.mark receiver uavId
        (ops.foldl step (constructed true true true 30000 [0])).sent) isOpen ∧
      ((ops.foldl step (constructed true true true 30000 [0])).getStatus = .Ready →
        isOpen = false) := by
  intro hall
  obtain ⟨isOpen, hword, hready⟩ :=
    hall [.start (.rows [rowAt 7 0, rowAt 7 1]) 0, .timeout] 0 7 (by decide)
  rw [hready (by decide +kernel), ← Blocks.scan_eq_some_iff] at hword
  exact absurd hword (by decide +kernel)

end UavHistory

end ArmOd
