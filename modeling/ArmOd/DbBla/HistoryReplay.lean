import ArmOd.DbBla.UavHistory

/-!
# The replay and its query

The status comes from the timer, the pause flag and the database; what a step of the replay reads
comes from the query. The two agree as long as the timer or the pause flag is set only while the
query is on a row. `Control` is the part of the state this is about: the notifications of a step
leave it alone, and one equation for each operation says what the operation makes of it.
-/

namespace ArmOd

namespace QSqlQuery

/-- The records of the second the query is in, as the replay reads them. -/
def group (query : QSqlQuery) : List (Option HistoryRow) :=
  query.current :: (query.rest.takeWhile fun row => row.time = query.record.time).map some

/-- The rows from the next second on. -/
def beyond (query : QSqlQuery) : List HistoryRow :=
  query.rest.dropWhile fun row => row.time = query.record.time

/-- There is a row of another second after the one the query is on. -/
def hasNextSecond (query : QSqlQuery) : Bool :=
  query.rest.any fun row => !decide (row.time = query.record.time)

/-- The query on the first row of the next second, or on none. -/
def nextSecond (query : QSqlQuery) : QSqlQuery :=
  match query.beyond with
  | [] => {}
  | next :: after => ⟨some next, after⟩

theorem beyond_eq_nil {query : QSqlQuery} : query.beyond = [] ↔ query.hasNextSecond = false := by
  simp [beyond, hasNextSecond, List.dropWhile_eq_nil_iff]

theorem isValid_nextSecond (query : QSqlQuery) :
    query.nextSecond.isValid = query.hasNextSecond := by
  cases hnext : query.hasNextSecond with
  | false => rw [nextSecond, beyond_eq_nil.mpr hnext]; rfl
  | true =>
      obtain ⟨next, after, hbeyond⟩ : ∃ next after, query.beyond = next :: after := by
        refine List.exists_cons_of_ne_nil fun hnil => ?_
        rw [beyond_eq_nil.mp hnil] at hnext
        exact Bool.false_ne_true hnext
      rw [nextSecond, hbeyond]
      rfl

theorem isSome_of_mem_group {query : QSqlQuery} (hvalid : query.isValid = true)
    {record : Option HistoryRow}
    (hrecord : record ∈ query.group) : record.isSome = true := by
  rcases List.mem_cons.mp hrecord with rfl | hrest
  · exact hvalid
  · obtain ⟨row, -, rfl⟩ := List.mem_map.mp hrest
    rfl

end QSqlQuery

namespace UavHistory

/-! ### The loop over one second -/

theorem remember_withQuery (query : QSqlQuery) (record : Option HistoryRow) (h : UavHistory) :
    { h with m_query := query }.remember record = { h.remember record with m_query := query } := rfl

theorem foldl_remember_withQuery (query : QSqlQuery) (records : List (Option HistoryRow))
    (h : UavHistory) :
    records.foldl (fun h record => h.remember record) { h with m_query := query } =
      { records.foldl (fun h record => h.remember record) h with m_query := query } := by
  induction records generalizing h with
  | nil => rfl
  | cons record records ih => rw [List.foldl_cons, List.foldl_cons, remember_withQuery, ih]

/-- The loop remembers the rows of the second, and stops the replay where no row comes after them.
-/
theorem collect_fst (time : QDateTime) (record : Option HistoryRow) (rest : List HistoryRow)
    (h : UavHistory) (infoCollection : QMap String UavInfo) :
    (collect time record rest h infoCollection).1 =
      let remembered := (record :: (rest.takeWhile fun row => row.time = time).map some).foldl
        (fun h record => h.remember record) h
      match rest.dropWhile fun row => row.time = time with
      | [] => { remembered with m_query := {} }.stop
      | next :: after => { remembered with m_query := ⟨some next, after⟩ } := by
  induction rest generalizing record h infoCollection with
  | nil => rfl
  | cons next rest ih =>
      rw [collect]
      by_cases hnext : next.time = time
      · rw [if_pos hnext, ih, List.takeWhile_cons_of_pos (by simpa using hnext),
          List.dropWhile_cons_of_pos (by simpa using hnext)]
        simp only [List.map_cons, List.foldl_cons, remember_withQuery, foldl_remember_withQuery]
      · rw [if_neg hnext, List.takeWhile_cons_of_neg (by simpa using hnext),
          List.dropWhile_cons_of_neg (by simpa using hnext)]
        rfl

theorem collect_snd (time : QDateTime) (record : Option HistoryRow) (rest : List HistoryRow)
    (h : UavHistory) (infoCollection : QMap String UavInfo) :
    (collect time record rest h infoCollection).2 =
      (record :: (rest.takeWhile fun row => row.time = time).map some).foldl
        (fun infos record => collectInfo infos (record.getD {}).info) infoCollection := by
  induction rest generalizing record h infoCollection with
  | nil => rfl
  | cons next rest ih =>
      rw [collect]
      by_cases hnext : next.time = time
      · rw [if_pos hnext, ih, List.takeWhile_cons_of_pos (by simpa using hnext)]
        rfl
      · rw [if_neg hnext, List.takeWhile_cons_of_neg (by simpa using hnext)]
        rfl

/-- The state after the rows of a second are read. -/
def afterLoop (h : UavHistory) : UavHistory :=
  let remembered := h.m_query.group.foldl (fun h record => h.remember record) h
  match h.m_query.beyond with
  | [] => { remembered with m_query := {} }.stop
  | next :: after => { remembered with m_query := ⟨some next, after⟩ }

/-- The information of a second, by extended id. -/
def infos (query : QSqlQuery) : QMap String UavInfo :=
  query.group.foldl (fun infos record => collectInfo infos (record.getD {}).info) ∅

/-- What a step of the replay tells: the information of the second, then who is outdated. -/
def deliver (time : QDateTime) (infoCollection : QMap String UavInfo) (h : UavHistory) :
    UavHistory :=
  let h := (QMap.values infoCollection).foldl (fun h info => h.announce info) h
  h.m_uavLastDate.keys.foldl (removeOutdated time) h

theorem updateHistoryState_eq (h : UavHistory) :
    h.updateHistoryState = deliver h.m_query.record.time (infos h.m_query) h.afterLoop := by
  have hloop : (collect h.m_query.record.time h.m_query.current h.m_query.rest h ∅).1
    = h.afterLoop :=
    collect_fst _ _ _ _ _
  rw [updateHistoryState, ← hloop, infos, QSqlQuery.group, ← collect_snd _ _ _ h]
  rfl

/-! ### What an operation makes of the control state -/

/-- What the status and the next step of the replay come from, with the records read so far. -/
structure Control where
  m_timer : Bool
  m_isPaused : Bool
  databaseOpen : Bool
  m_query : QSqlQuery
  records : List (Option HistoryRow)

def control (h : UavHistory) : Control :=
  ⟨h.m_timer, h.m_isPaused, h.databaseOpen, h.m_query, h.records⟩

theorem control_stopInternal (h : UavHistory) :
    h.stopInternal.control = ⟨false, false, h.databaseOpen, {}, h.records⟩ := by
  have htold := foldl_keeps (fun h id => h.notify (h.removed id)) control (fun _ _ => rfl) h
    h.m_knownUavsList.keys
  exact congrArg (fun c : Control =>
    (⟨false, false, c.databaseOpen, {}, c.records⟩ : Control)) htold

theorem idle_of_ready {h : UavHistory} (hready : h.getStatus = .Ready) : h.m_timer = false ∧
    h.m_isPaused = false := by
  rw [getStatus] at hready
  split_ifs at hready with hopen htimer hpaused
  exact ⟨Bool.eq_false_iff.mpr htimer, Bool.eq_false_iff.mpr hpaused⟩

theorem control_stop (h : UavHistory) :
    h.stop.control = ⟨false, false, h.databaseOpen, if h.getStatus = .Ready then h.m_query else {},
      h.records⟩ := by
  rw [stop]
  split
  · obtain ⟨htimer, hpaused⟩ := idle_of_ready ‹_›
    rw [control, htimer, hpaused]
  · exact control_stopInternal _

theorem control_stop_of_finished {h : UavHistory} (hquery : h.m_query = {}) :
    h.stop.control = ⟨false, false, h.databaseOpen, {}, h.records⟩ := by
  rw [control_stop, hquery, ite_self]

theorem control_foldl_remember (records : List (Option HistoryRow)) (h : UavHistory) :
    (records.foldl (fun h record => h.remember record) h).control =
      { h.control with records := h.records ++ records } := by
  induction records generalizing h with
  | nil => rw [List.append_nil]; rfl
  | cons record records ih =>
      rw [List.foldl_cons, ih]
      simp [control, remember]

theorem control_announce (info : UavInfo) (h : UavHistory) :
    (h.announce info).control = h.control := by
  rw [announce]
  split <;> rfl

theorem control_removeOutdated (time : QDateTime) (h : UavHistory) (id : Nat) :
    (removeOutdated time h id).control = h.control := by
  rw [removeOutdated]
  split <;> rfl

theorem control_deliver (time : QDateTime) (infoCollection : QMap String UavInfo) (h : UavHistory) :
    (deliver time infoCollection h).control = h.control := by
  rw [deliver, foldl_keeps _ control (control_removeOutdated time)]
  exact foldl_keeps _ control (fun h info => control_announce info h) h _

/-- A step reads the rows of one second and moves on to the next one; without a next one it ends
idle. -/
theorem control_updateHistoryState (h : UavHistory) :
    h.updateHistoryState.control =
      ⟨h.m_timer && h.m_query.hasNextSecond, h.m_isPaused && h.m_query.hasNextSecond,
      h.databaseOpen,
        h.m_query.nextSecond, h.records ++ h.m_query.group⟩ := by
  have hremembered := control_foldl_remember h.m_query.group h
  rw [updateHistoryState_eq, control_deliver, afterLoop, QSqlQuery.nextSecond,
    ← QSqlQuery.isValid_nextSecond,
    QSqlQuery.nextSecond]
  rcases h.m_query.beyond with _ | ⟨next, after⟩
  · rw [QSqlQuery.isValid, Option.isSome_none, Bool.and_false, Bool.and_false]
    exact (control_stop_of_finished rfl).trans
      (congrArg (fun c : Control => (⟨false, false, c.databaseOpen, {}, c.records⟩ : Control))
      hremembered)
  · rw [QSqlQuery.isValid, Option.isSome_some, Bool.and_true, Bool.and_true]
    exact congrArg (fun c : Control => { c with m_query := ⟨some next, after⟩ }) hremembered

theorem control_exportRows (record : HistoryRow) (rest : List HistoryRow) (cnt : Nat)
    (h : UavHistory)
    (infoCollection : QMap String UavInfo) :
    (exportRows record rest cnt h infoCollection).1.control = { h.control with m_query := {} } := by
  induction rest generalizing record cnt h infoCollection with
  | nil => rfl
  | cons next rest ih =>
      rw [exportRows, ih]
      rfl

theorem control_xlsExport (h : UavHistory) :
    h.xlsExport.control = { h.control with m_query := {} } :=
  control_exportRows h.m_query.record h.m_query.rest 0 h ∅

theorem control_emit (signal : HistorySignal) (h : UavHistory) :
    (h.emit signal).control = h.control := rfl

theorem control_playing (h : UavHistory) (started : Bool) :
    { h with m_timer := true, m_startResult := started }.control =
      { h.control with m_timer := true } := rfl

/-- Where the object is after a start that found rows. -/
def startedControl (h : UavHistory) (row : HistoryRow) (rest : List HistoryRow)
    (mode : Int) : Control :=
  let query : QSqlQuery := ⟨some row, rest⟩
  if mode = 0 then ⟨true, false, h.databaseOpen, query.nextSecond, h.records ++ query.group⟩
  else if mode = 1 then ⟨false, false, h.databaseOpen, {}, h.records⟩
  else ⟨false, false, h.databaseOpen, query, h.records⟩

theorem control_startInternal (result : QueryResult) (mode : Int) (h : UavHistory) :
    (h.startInternal result mode).control =
      match result with
      | .error | .rows [] => ⟨false, false, h.databaseOpen, {}, h.records⟩
      | .rows (row :: rest) => startedControl h row rest mode := by
  have hstop : h.stop.m_timer = false ∧ h.stop.m_isPaused = false ∧
    h.stop.databaseOpen = h.databaseOpen ∧
      h.stop.records = h.records := by
    have hcontrol := control_stop h
    exact ⟨congrArg Control.m_timer hcontrol, congrArg Control.m_isPaused hcontrol,
      congrArg Control.databaseOpen hcontrol, congrArg Control.records hcontrol⟩
  obtain ⟨htimer, hpaused, hopen, hrecords⟩ := hstop
  rcases result with _ | _ | ⟨row, rest⟩
  · simp [startInternal, emit, control, htimer, hpaused, hopen, hrecords]
  · simp [startInternal, emit, control, htimer, hpaused, hopen, hrecords]
  · have hplay := control_updateHistoryState { h.stop with m_query := ⟨some row, rest⟩ }
    have hexport := control_xlsExport { h.stop with m_query := ⟨some row, rest⟩ }
    simp only [startInternal, startedControl]
    by_cases hmode : mode = 0
    · rw [if_pos hmode, if_pos hmode, control_emit, control_playing, hplay]
      simp [hpaused, hopen, hrecords]
    by_cases hmode' : mode = 1
    · rw [if_neg hmode, if_pos hmode', if_neg hmode, if_pos hmode', control_emit, hexport]
      simp [control, htimer, hpaused, hopen, hrecords]
    · rw [if_neg hmode, if_neg hmode', if_neg hmode, if_neg hmode']
      simp [control, htimer, hpaused, hopen, hrecords]

/-! ### Any order of commands and ticks -/

/-- Only rows were read, and the timer or the pause flag is set only while the query is on one. -/
structure Seated (c : Control) : Prop where
  records : ∀ record ∈ c.records, record.isSome = true
  onRow : c.m_timer = true ∨ c.m_isPaused = true → c.m_query.isValid = true

/-- Every record a step was built from is a row, and the object plays or pauses only on a row. -/
def Sound (h : UavHistory) : Prop :=
  (∀ record ∈ h.records, record.isSome = true) ∧
    (h.getStatus = .Playing ∨ h.getStatus = .Paused → h.m_query.isValid = true)

/-- The result of a query goes on past its first second, where it has rows. -/
def goesOn : QueryResult → Bool
  | .rows (row :: rest) => QSqlQuery.hasNextSecond ⟨some row, rest⟩
  | _ => true

/-- A replay is started only over rows of more than one second, and paused only on a row. -/
def KeepsRow (h : UavHistory) : HistoryOp → Prop
  | .start result mode => h.databaseValid = true → mode = 0 → goesOn result = true
  | .started result mode => mode = 0 → goesOn result = true
  | .paused => h.m_isPaused = true ∨ h.m_query.isValid = true
  | _ => True

theorem Seated.idle {isOpen : Bool} {query : QSqlQuery} {records : List (Option HistoryRow)}
    (hrecords : ∀ record ∈ records, record.isSome = true) :
    Seated ⟨false, false, isOpen, query, records⟩ :=
  ⟨hrecords, fun hset => hset.elim (fun h => nomatch h) fun h => nomatch h⟩

theorem Seated.sound {h : UavHistory} (hseated : Seated h.control) : Sound h := by
  refine ⟨hseated.records, fun hstatus => hseated.onRow ?_⟩
  rw [getStatus] at hstatus
  split_ifs at hstatus with hopen htimer hpaused
  · simp at hstatus
  · exact Or.inl htimer
  · exact Or.inr hpaused
  · simp at hstatus

theorem Seated.read {c : Control} (hseated : Seated c) {query : QSqlQuery}
    (hvalid : query.isValid = true) :
    ∀ record ∈ c.records ++ query.group, record.isSome = true := by
  intro record hrecord
  rcases List.mem_append.mp hrecord with hold | hnew
  · exact hseated.records record hold
  · exact QSqlQuery.isSome_of_mem_group hvalid hnew

theorem Seated.updateHistoryState {h : UavHistory} (hseated : Seated h.control)
    (htimer : h.m_timer = true) :
    Seated h.updateHistoryState.control := by
  have hvalid : h.m_query.isValid = true := hseated.onRow (Or.inl htimer)
  rw [control_updateHistoryState]
  refine ⟨hseated.read hvalid, fun hset => ?_⟩
  rw [Bool.and_eq_true, Bool.and_eq_true, ← or_and_right] at hset
  exact (QSqlQuery.isValid_nextSecond _).trans hset.2

theorem Seated.startInternal {h : UavHistory} (hseated : Seated h.control) {result : QueryResult}
    {mode : Int}
    (hgoes : mode = 0 → goesOn result = true) : Seated (h.startInternal result mode).control := by
  rw [control_startInternal]
  rcases result with _ | _ | ⟨row, rest⟩
  · exact Seated.idle hseated.records
  · exact Seated.idle hseated.records
  · simp only [startedControl]
    split_ifs with hplay
    · exact ⟨hseated.read rfl, fun _ => (QSqlQuery.isValid_nextSecond _).trans (hgoes hplay)⟩
    · exact Seated.idle hseated.records
    · exact Seated.idle hseated.records

/-- **One command or tick.** -/
theorem Seated.step {h : UavHistory} (hseated : Seated h.control) {op : HistoryOp}
    (hop : KeepsRow h op) :
    Seated (h.step op).control := by
  cases op with
  | start result mode =>
      simp only [UavHistory.step, start]
      split
      · exact hseated
      · rename_i hvalid
        exact Seated.startInternal (h := h.sendStatusOf .Loading) hseated
          (hop (by simpa using hvalid))
  | stop =>
      rw [UavHistory.step, control_stop]
      exact Seated.idle hseated.records
  | started result mode => exact hseated.startInternal hop
  | stopped =>
      rw [UavHistory.step, control_stopInternal]
      exact Seated.idle hseated.records
  | paused =>
      rw [UavHistory.step, pauseInternal]
      split
      · exact hseated
      · rename_i hpaused
        exact ⟨hseated.records, fun _ => hop.resolve_left hpaused⟩
  | resumed =>
      rw [UavHistory.step, resumeInternal]
      split
      · exact hseated
      · rename_i hpaused
        have hset : h.m_isPaused = true := by simpa using hpaused
        exact ⟨hseated.records, fun _ => hseated.onRow (Or.inr hset)⟩
  | timeout =>
      rw [UavHistory.step]
      split
      · exact hseated.updateHistoryState ‹_›
      · exact hseated

theorem step_databaseOpen (h : UavHistory) (op : HistoryOp) :
    (h.step op).databaseOpen = h.databaseOpen := by
  have hstarted : ∀ (h : UavHistory) result mode,
    (h.startInternal result mode).databaseOpen = h.databaseOpen := by
    intro h result mode
    have hcontrol := congrArg Control.databaseOpen (control_startInternal result mode h)
    rcases result with _ | _ | ⟨row, rest⟩
    · exact hcontrol
    · exact hcontrol
    · simp only [startedControl] at hcontrol
      split_ifs at hcontrol <;> exact hcontrol
  cases op with
  | start result mode =>
      simp only [step, start]
      split
      · rfl
      · exact hstarted (h.sendStatusOf .Loading) result mode
  | stop => exact congrArg Control.databaseOpen (control_stop h)
  | started result mode => exact hstarted h result mode
  | stopped => exact congrArg Control.databaseOpen (control_stopInternal h)
  | paused =>
      rw [step, pauseInternal]
      split <;> rfl
  | resumed =>
      rw [step, resumeInternal]
      split <;> rfl
  | timeout =>
      rw [step]
      split
      · exact congrArg Control.databaseOpen (control_updateHistoryState h)
      · rfl

/-- Where the database is open, a replay started over a single second plays without a row. -/
theorem goesOn_of_sound {h : UavHistory} (hopen : h.databaseOpen = true) {result : QueryResult}
    (hsound : Sound (h.startInternal result 0)) : goesOn result = true := by
  rcases result with _ | _ | ⟨row, rest⟩
  · rfl
  · rfl
  · have hcontrol := control_startInternal (.rows (row :: rest)) 0 h
    have htimer : (h.startInternal (.rows (row :: rest)) 0).m_timer = true :=
      congrArg Control.m_timer hcontrol
    have hisOpen : (h.startInternal (.rows (row :: rest)) 0).databaseOpen = true :=
      (congrArg Control.databaseOpen hcontrol).trans hopen
    have hplaying : (h.startInternal (.rows (row :: rest)) 0).getStatus = .Playing := by
      rw [getStatus, hisOpen, htimer]
      rfl
    have hvalid := hsound.2 (Or.inl hplaying)
    rw [show (h.startInternal (.rows (row :: rest)) 0).m_query =
      _ from congrArg Control.m_query hcontrol] at hvalid
    exact (QSqlQuery.isValid_nextSecond _).symm.trans hvalid

theorem keepsRow_of_sound {h : UavHistory} (hopen : h.databaseOpen = true) {op : HistoryOp}
    (hsound : Sound (h.step op)) : KeepsRow h op := by
  cases op with
  | start result mode =>
      rintro hvalid rfl
      simp only [step, start, hvalid, Bool.not_true, Bool.false_eq_true, if_false] at hsound
      exact goesOn_of_sound (h := h.sendStatusOf .Loading) hopen hsound
  | started result mode =>
      rintro rfl
      exact goesOn_of_sound hopen hsound
  | paused =>
      by_cases hpaused : h.m_isPaused = true
      · exact Or.inl hpaused
      · rw [step, pauseInternal, if_neg hpaused] at hsound
        refine Or.inr (hsound.2 (Or.inr ?_))
        simp [getStatus, sendStatus, sendStatusOf, hopen]
  | _ => trivial

/-- **The replay and its query.** In a run that starts replays only over more than one second and
pauses only on a row, every step is built from rows and the object plays or pauses only on a row.
Where the database is open, every other run ends in a state where this fails. -/
theorem sound_iff (databaseValid databaseOpen startResult : Bool) (lifeTime : Int)
    (receivers : List Listener)
    (ops : List HistoryOp) :
    (Along step KeepsRow (constructed databaseValid databaseOpen startResult lifeTime
      receivers) ops →
        ∀ before, before <+: ops →
          Sound (before.foldl step (constructed databaseValid databaseOpen startResult lifeTime
          receivers))) ∧
      (databaseOpen = true →
        (Along step KeepsRow (constructed databaseValid databaseOpen startResult lifeTime
        receivers) ops ↔
          ∀ before, before <+: ops →
            Sound (before.foldl step (constructed databaseValid databaseOpen startResult lifeTime
            receivers)))) := by
  have hinit : Seated (constructed databaseValid databaseOpen startResult lifeTime
    receivers).control :=
    Seated.idle fun _ hrecord => absurd hrecord List.not_mem_nil
  have hstep : ∀ h op, Seated h.control → KeepsRow h op → Seated (h.step op).control :=
    fun _ _ hseated hop => hseated.step hop
  have hkeeps : Along step KeepsRow
    (constructed databaseValid databaseOpen startResult lifeTime receivers) ops →
      ∀ before, before <+: ops →
        Sound (before.foldl step (constructed databaseValid databaseOpen startResult lifeTime
        receivers)) := by
    intro hrun
    rw [Along.forall_prefix_iff Sound]
    exact ⟨hinit.sound, hrun.imp hstep (fun _ _ hseated hop => (hseated.step hop).sound) hinit⟩
  refine ⟨hkeeps, fun hopen => ⟨hkeeps, fun hsound => ?_⟩⟩
  rw [Along.forall_prefix_iff Sound] at hsound
  have hstays : ∀ (h : UavHistory) op, h.databaseOpen = true → Sound (h.step op) →
    (h.step op).databaseOpen = true :=
    fun h op hisOpen _ => (step_databaseOpen h op).trans hisOpen
  exact hsound.2.imp hstays (fun h op hisOpen => keepsRow_of_sound hisOpen) hopen

/-- A recorded row of a UAV at a second of the day. -/
def rowAt (uavId : Int) (second : Nat) : HistoryRow :=
  { uavIdReal := uavId, datetime := ⟨0, second * 1000⟩, sourceReal := 1, code := OUR_UAV_ROLE }

theorem sound_iff_replay :
    Sound ([HistoryOp.started (.rows [rowAt 7 0, rowAt 7 1]) 0, .paused, .resumed,
      .timeout].foldl step
      (constructed true true true 30000 [0])) := by
  refine (sound_iff true true true 30000 [0] _).1 ?_ _ (List.prefix_refl _)
  exact ⟨fun _ => by decide +kernel, Or.inr (by decide +kernel), trivial, trivial, trivial⟩

/-- A pause that arrives before any replay is started pauses it, and the tick after the resume reads
a missing row. -/
theorem pause_before_start : ¬ ∀ ops : List HistoryOp, Sound
    (ops.foldl step (constructed true true true 30000 [0])) := by
  intro hsound
  have hpaused := (hsound [.paused, .resumed, .timeout]).1 none
  exact absurd (hpaused (by decide +kernel)) Bool.false_ne_true

end UavHistory

end ArmOd
