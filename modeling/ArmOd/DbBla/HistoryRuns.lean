import ArmOd.Base.Latest
import ArmOd.DbBla.HistoryNotifications

/-!
# The replay and its rows

What a replay makes of a result, call by call. The rows of one second are a maximal run of rows with
the same date-time without its milliseconds. The first call comes with the start, the others with
the timer; the last row of the result stops the replay, which forgets the roles before the last
second is told, and does nothing where the timer does not run yet.
-/

namespace ArmOd

theorem splitBy_key_cons {α κ : Type} [DecidableEq κ] (key : α → κ) (a : α) (as : List α) :
    (a :: as).splitBy (fun a b => decide (key a = key b)) =
      (a :: as.takeWhile fun b => key b = key a) ::
        (as.dropWhile fun b => key b = key a).splitBy fun a b => decide (key a = key b) := by
  have hsame : ∀ b ∈ a :: as.takeWhile fun b => key b = key a, key b = key a := by
    intro b hb
    rcases List.mem_cons.mp hb with rfl | hrest
    · rfl
    · simpa using List.mem_takeWhile_imp hrest
  have hrun : (a :: as.takeWhile fun b => key b = key a).splitBy
      (fun a b => decide (key a = key b)) = [a :: as.takeWhile fun b => key b = key a] := by
    refine List.splitBy_of_isChain (List.cons_ne_nil _ _) (List.Pairwise.isChain ?_)
    refine List.pairwise_of_forall_mem_list fun b hb c hc => ?_
    rw [hsame b hb, hsame c hc, decide_eq_true_eq]
  have hsplit : a :: as = (a :: as.takeWhile fun b => key b = key a) ++
      as.dropWhile fun b => key b = key a := by
    rw [List.cons_append, List.takeWhile_append_dropWhile]
  rw [hsplit, List.splitBy_append, hrun, List.singleton_append]
  intro b hb c hc
  have hnot : ¬key c = key a := by
    have hhead := List.head?_dropWhile_not (fun b => decide (key b = key a)) as
    rw [Option.mem_def.mp hc] at hhead
    exact of_decide_eq_false hhead
  rw [hsame b (List.mem_of_getLast? hb), decide_eq_false_iff_not]
  exact Ne.symm hnot

namespace UavHistory

/-! ### The runs -/

/-- The rows of every second. -/
def seconds (rows : List HistoryRow) : List (List HistoryRow) :=
  rows.splitBy fun a b => decide (a.time = b.time)

/-- The rows of a second that no row with the same extended id follows. -/
def sentRows (run : List HistoryRow) : List HistoryRow :=
  latest (fun row => getExtendedId row.info) run

/-- The notifications of these rows, each with the role of its row. -/
def changesOf (receivers : List Listener) (run : List HistoryRow) :
    List (Listener × UavNotification) :=
  (sentRows run).flatMap fun row =>
    broadcast receivers (.onUavInfoChanged row.info row.code [] [])

def isInfoChanged : UavNotification → Bool
  | .onUavInfoChanged .. => true
  | _ => false

/-- The changes that were sent. -/
def changes (h : UavHistory) : List (Listener × UavNotification) :=
  h.sent.filter fun p => isInfoChanged p.2

/-- The object in front of every call: the start makes the first, the timer the others. -/
def replayed (rows : List HistoryRow) (h : UavHistory) : Nat → UavHistory
  | 0 => h
  | 1 => h.startInternal (.rows rows) 0
  | n + 2 => (replayed rows h (n + 1)).step .timeout

/-- A call reads the rows of a run and tells those of them that are to be sent. -/
def Tells (run : List HistoryRow) (h h' : UavHistory) : Prop :=
  h'.records = h.records ++ run.map some ∧
    ∃ told, h'.changes = h.changes ++ told ∧ told.Perm (changesOf h.m_receiversList run)

/-- The calls take the runs of the result one after the other, and nothing after the last. -/
def Faithful (rows : List HistoryRow) (h : UavHistory) : Prop :=
  ∀ n, Tells ((seconds rows)[n]?.getD []) (replayed rows h n) (replayed rows h (n + 1))

/-- Rows of one UAV are sent with one role. -/
def RolesAgree (run : List HistoryRow) : Prop :=
  ∀ a ∈ sentRows run, ∀ b ∈ sentRows run, a.info.uavId = b.info.uavId → a.code = b.code

/-- The rows that are sent have no role. -/
def NoRoles (run : List HistoryRow) : Prop := ∀ row ∈ sentRows run, row.code = ""

variable {h : UavHistory} {rows run : List HistoryRow} {receivers : List Listener}

/-! ### The query on the runs -/

theorem seconds_cons (row : HistoryRow) (rest : List HistoryRow) :
    seconds (row :: rest) = (row :: rest.takeWhile fun next => next.time = row.time) ::
      seconds (rest.dropWhile fun next => next.time = row.time) :=
  splitBy_key_cons HistoryRow.time row rest

theorem flatten_seconds (rows : List HistoryRow) : (seconds rows).flatten = rows :=
  List.flatten_splitBy _ rows

theorem seconds_flatten_tail (rows : List HistoryRow) :
    seconds (seconds rows).tail.flatten = (seconds rows).tail := by
  cases rows with
  | nil => rfl
  | cons row rest => rw [seconds_cons, List.tail_cons, flatten_seconds]

/-- The query on the first of the rows. -/
def queryOn : List HistoryRow → QSqlQuery
  | [] => {}
  | row :: rest => ⟨some row, rest⟩

theorem group_queryOn {more : List (List HistoryRow)} (hrows : seconds rows = run :: more) :
    (queryOn rows).group = run.map some := by
  cases rows with
  | nil => cases hrows
  | cons row rest =>
      rw [seconds_cons] at hrows
      rw [← (List.cons.inj hrows).1]
      rfl

theorem beyond_queryOn {more : List (List HistoryRow)} (hrows : seconds rows = run :: more) :
    (queryOn rows).beyond = more.flatten := by
  cases rows with
  | nil => cases hrows
  | cons row rest =>
      rw [seconds_cons] at hrows
      rw [← (List.cons.inj hrows).2, flatten_seconds]
      rfl

theorem nextSecond_eq (query : QSqlQuery) : query.nextSecond = queryOn query.beyond := by
  rw [QSqlQuery.nextSecond]
  cases query.beyond <;> rfl

theorem hasNextSecond_queryOn {more : List (List HistoryRow)}
    (hrows : seconds rows = run :: more) : (queryOn rows).hasNextSecond = !more.isEmpty := by
  cases more with
  | nil => exact QSqlQuery.beyond_eq_nil.mp (beyond_queryOn hrows)
  | cons next more =>
      rw [Bool.eq_iff_iff]
      refine iff_of_true ?_ rfl
      by_contra hnone
      have hnil := QSqlQuery.beyond_eq_nil.mpr (Bool.eq_false_iff.mpr hnone)
      rw [beyond_queryOn hrows, List.flatten_cons, List.append_eq_nil_iff] at hnil
      have hnext : next ∈ seconds rows := by
        rw [hrows]
        exact List.mem_cons_of_mem run List.mem_cons_self
      exact List.ne_nil_of_mem_splitBy hnext hnil.1

/-! ### What is sent -/

theorem changes_notify (n : UavNotification) : (h.notify n).changes =
    h.changes ++ if isInfoChanged n then broadcast h.m_receiversList n else [] := by
  rw [changes, notify, List.filter_append, changes, broadcast]
  cases hn : isInfoChanged n <;> simp [hn]

/-- What the changes of a call come from, the query and the roles apart. -/
def heard (h : UavHistory) : List Listener × List (Listener × UavNotification) :=
  (h.m_receiversList, h.changes)

theorem heard_notify_removed (id : Nat) : (h.notify (h.removed id)).heard = h.heard :=
  Prod.ext rfl ((changes_notify _).trans (List.append_nil _))

theorem heard_stop : h.stop.heard = h.heard := by
  rw [stop]
  split
  · rfl
  · exact foldl_keeps (fun h id => h.notify (h.removed id)) heard
      (fun h id => heard_notify_removed id) (h.emit .stopped) h.m_knownUavsList.keys

theorem heard_afterLoop : h.afterLoop.heard = h.heard := by
  have hremembered := foldl_keeps (fun h record => UavHistory.remember record h) heard
    (fun _ _ => rfl) h h.m_query.group
  rw [afterLoop]
  split
  · exact heard_stop.trans hremembered
  · exact hremembered

/-- The change of a UAV. -/
def change (roles : QMap Nat String) (info : UavInfo) : UavNotification :=
  .onUavInfoChanged info (roles.getD info.uavId "") [] []

theorem changes_announce (info : UavInfo) : (h.announce info).changes =
    h.changes ++ broadcast h.m_receiversList (change h.m_uavRoles info) := by
  rw [announce]
  dsimp only
  split
  · exact changes_notify _
  · refine (changes_notify _).trans (congrArg (· ++ _) ?_)
    exact (changes_notify _).trans (List.append_nil _)

theorem roles_announce (info : UavInfo) : (h.announce info).m_uavRoles = h.m_uavRoles := by
  rw [announce]
  split <;> rfl

theorem receivers_announce (info : UavInfo) :
    (h.announce info).m_receiversList = h.m_receiversList := by
  rw [announce]
  split <;> rfl

theorem changes_foldl_announce (infos : List UavInfo) :
    (infos.foldl (fun h info => h.announce info) h).changes =
      h.changes ++ infos.flatMap fun info =>
        broadcast h.m_receiversList (change h.m_uavRoles info) := by
  induction infos generalizing h with
  | nil => exact (List.append_nil _).symm
  | cons info infos ih =>
      rw [List.foldl_cons, ih, changes_announce, roles_announce, receivers_announce,
        List.flatMap_cons, List.append_assoc]

theorem heard_removeOutdated (time : QDateTime) (h : UavHistory) (id : Nat) :
    (removeOutdated time h id).heard = h.heard := by
  rw [removeOutdated]
  split
  · exact heard_notify_removed (h := h) id
  · rfl

theorem heard_announce_receivers (infos : List UavInfo) :
    (infos.foldl (fun h info => h.announce info) h).m_receiversList = h.m_receiversList :=
  foldl_keeps (fun h info => UavHistory.announce info h) m_receiversList
    (fun _ info => receivers_announce info) h infos

theorem heard_updateHistoryState : h.updateHistoryState.heard = (h.m_receiversList,
    h.changes ++ (QMap.values (infos h.m_query)).flatMap fun info =>
      broadcast h.m_receiversList (change h.afterLoop.m_uavRoles info)) := by
  obtain ⟨hreceivers, hchanges⟩ := Prod.mk.inj (heard_afterLoop (h := h))
  rw [updateHistoryState_eq, deliver, foldl_keeps _ heard (heard_removeOutdated _), heard,
    heard_announce_receivers, changes_foldl_announce, hreceivers, hchanges]

/-! ### One call -/

theorem perm_values_infos {query : QSqlQuery} (hgroup : query.group = run.map some) :
    (QMap.values (infos query)).Perm ((sentRows run).map HistoryRow.info) := by
  have hinfos : infos query =
      insertAll (fun row => getExtendedId row.info) HistoryRow.info run ∅ := by
    rw [infos, hgroup, List.foldl_map]
    rfl
  have hperm := (perm_insertAll (fun row => getExtendedId row.info) HistoryRow.info run).map
    Prod.snd
  rw [List.map_map] at hperm
  rw [hinfos]
  exact hperm

theorem perm_changesOf_iff {infos : List UavInfo} {roles : QMap Nat String}
    (hinfos : infos.Perm ((sentRows run).map HistoryRow.info)) :
    (infos.flatMap fun info => broadcast receivers (change roles info)).Perm
        (changesOf receivers run) ↔
      receivers = [] ∨ ∀ row ∈ sentRows run, roles.getD row.info.uavId "" = row.code := by
  constructor
  · intro hperm
    refine or_iff_not_imp_left.mpr fun hne row hrow => ?_
    obtain ⟨receiver, others, rfl⟩ := List.exists_cons_of_ne_nil hne
    have hsent : (receiver, UavNotification.onUavInfoChanged row.info row.code [] []) ∈
        changesOf (receiver :: others) run :=
      List.mem_flatMap.mpr ⟨row, hrow, List.mem_cons_self⟩
    obtain ⟨info, -, hchange⟩ := List.mem_flatMap.mp (hperm.mem_iff.mpr hsent)
    obtain ⟨_, -, heq⟩ := List.mem_map.mp hchange
    obtain ⟨rfl, hrole⟩ := UavNotification.onUavInfoChanged.inj (Prod.mk.inj heq).2
    exact hrole.1
  · intro h
    rcases h with rfl | hroles
    · have hnil : changesOf [] run = [] := List.flatMap_eq_nil_iff.mpr fun _ _ => rfl
      rw [hnil, List.perm_nil]
      exact List.flatMap_eq_nil_iff.mpr fun _ _ => rfl
    · refine (hinfos.flatMap_right _).trans (List.Perm.of_eq ?_)
      rw [List.flatMap_map, changesOf]
      refine List.flatMap_congr fun row hrow => ?_
      rw [change, hroles row hrow]

/-- A call tells the rows of its run right when the roles are those of the rows. -/
theorem tells_updateHistoryState_iff (hgroup : h.m_query.group = run.map some) :
    Tells run h h.updateHistoryState ↔ h.m_receiversList = [] ∨
      ∀ row ∈ sentRows run, h.afterLoop.m_uavRoles.getD row.info.uavId "" = row.code := by
  have hrecords : h.updateHistoryState.records = h.records ++ run.map some :=
    (congrArg Control.records (control_updateHistoryState h)).trans (by rw [hgroup])
  obtain ⟨-, hchanges⟩ := Prod.mk.inj (heard_updateHistoryState (h := h))
  rw [← perm_changesOf_iff (perm_values_infos hgroup), Tells, hchanges]
  constructor
  · intro htells
    obtain ⟨-, told, htold, hperm⟩ := htells
    rwa [List.append_cancel_left htold]
  · intro hperm
    exact ⟨hrecords, _, rfl, hperm⟩

theorem roles_foldl_remember (rows : List HistoryRow) (h : UavHistory) :
    ((rows.map some).foldl (fun h record => h.remember record) h).m_uavRoles =
      insertAll (fun row => row.info.uavId) HistoryRow.code rows h.m_uavRoles := by
  induction rows generalizing h with
  | nil => rfl
  | cons row rows ih =>
      rw [List.map_cons, List.foldl_cons, ih]
      rfl

/-- Where a second follows, the role of a UAV is that of its last row. -/
theorem roles_iff_rolesAgree {roles : QMap Nat String} :
    (∀ row ∈ sentRows run,
      (insertAll (fun row => row.info.uavId) HistoryRow.code run roles).getD row.info.uavId "" =
        row.code) ↔ RolesAgree run := by
  have hlast : ∀ row ∈ sentRows run, ∃ last ∈ sentRows run, last.info.uavId = row.info.uavId ∧
      (insertAll (fun row => row.info.uavId) HistoryRow.code run roles).getD row.info.uavId "" =
        last.code := by
    intro row hrow
    obtain ⟨last, hlatest, hid⟩ := exists_mem_latest (fun row => row.info.uavId)
      (mem_of_mem_latest hrow)
    refine ⟨last, mem_latest_of_finer (fun _ _ => uavId_eq_of_getExtendedId) hlatest, hid, ?_⟩
    rw [Std.TreeMap.getD_eq_getD_getElem?, ← hid, getElem?_insertAll_of_mem hlatest,
      Option.getD_some]
  constructor
  · intro hroles a ha b hb hid
    rw [← hroles a ha, ← hroles b hb, hid]
  · intro hagree row hrow
    obtain ⟨last, hsent, hid, hrole⟩ := hlast row hrow
    rw [hrole, hagree last hsent row hrow hid]

theorem afterLoop_of_next {more : List (List HistoryRow)} (hrows : seconds rows = run :: more)
    (hmore : more ≠ []) (hquery : h.m_query = queryOn rows) :
    h.afterLoop.m_uavRoles =
      insertAll (fun row => row.info.uavId) HistoryRow.code run h.m_uavRoles := by
  obtain ⟨next, rest, hbeyond⟩ : ∃ next rest, h.m_query.beyond = next :: rest := by
    refine List.exists_cons_of_ne_nil fun hnil => ?_
    rw [QSqlQuery.beyond_eq_nil, hquery, hasNextSecond_queryOn hrows] at hnil
    simp [hmore] at hnil
  rw [afterLoop, hbeyond, ← roles_foldl_remember, ← group_queryOn hrows, ← hquery]

theorem afterLoop_of_last (hrows : seconds rows = [run]) (hquery : h.m_query = queryOn rows)
    (hbusy : h.m_timer = true) : h.afterLoop.m_uavRoles = ∅ := by
  have hbeyond : h.m_query.beyond = [] := by rw [hquery, beyond_queryOn hrows, List.flatten_nil]
  have hremembered := control_foldl_remember h.m_query.group h
  rw [afterLoop, hbeyond]
  dsimp only
  rw [stop, if_neg]
  · rfl
  · intro hready
    have hidle := (idle_of_ready hready).1
    exact Bool.false_ne_true
      (hidle.symm.trans ((congrArg Control.m_timer hremembered).trans hbusy))

/-! ### All the calls -/

/-- The runs that are still to come: the timer runs while there are any. -/
structure Stands (receivers : List Listener) (later : List (List HistoryRow)) (h : UavHistory) :
    Prop where
  runs : seconds later.flatten = later
  listeners : h.m_receiversList = receivers
  timer : h.m_timer = !later.isEmpty
  query : later ≠ [] → h.m_query = queryOn later.flatten

/-- What the next call needs of the runs that are still to come. -/
def Ready (receivers : List Listener) : List (List HistoryRow) → Prop
  | [] => True
  | [last] => receivers = [] ∨ NoRoles last
  | run :: _ :: _ => receivers = [] ∨ RolesAgree run

theorem receivers_updateHistoryState : h.updateHistoryState.m_receiversList = h.m_receiversList :=
  congrArg Prod.fst heard_updateHistoryState

theorem Stands.timeout {later : List (List HistoryRow)} (hstands : Stands receivers later h) :
    Stands receivers later.tail (h.step .timeout) := by
  cases later with
  | nil =>
      have htimer : h.m_timer = false := hstands.timer
      rw [UavHistory.step, htimer]
      exact hstands
  | cons run more =>
      have htimer : h.m_timer = true := hstands.timer
      have hquery := hstands.query (List.cons_ne_nil run more)
      have hcontrol := control_updateHistoryState h
      rw [hquery, hasNextSecond_queryOn hstands.runs, htimer, Bool.true_and, nextSecond_eq,
        beyond_queryOn hstands.runs] at hcontrol
      rw [UavHistory.step, htimer]
      have hruns := seconds_flatten_tail (run :: more).flatten
      rw [hstands.runs] at hruns
      exact ⟨hruns, receivers_updateHistoryState.trans hstands.listeners,
        congrArg Control.m_timer hcontrol, fun _ => congrArg Control.m_query hcontrol⟩

theorem Stands.tells_iff {later : List (List HistoryRow)} (hstands : Stands receivers later h) :
    Tells (later[0]?.getD []) h (h.step .timeout) ↔ Ready receivers later := by
  rw [← hstands.listeners]
  cases later with
  | nil =>
      have htimer : h.m_timer = false := hstands.timer
      rw [UavHistory.step, htimer]
      exact iff_of_true ⟨(List.append_nil _).symm, [], (List.append_nil _).symm, .refl _⟩ trivial
  | cons run more =>
      have htimer : h.m_timer = true := hstands.timer
      have hquery := hstands.query (List.cons_ne_nil run more)
      have hgroup : h.m_query.group = run.map some := by rw [hquery, group_queryOn hstands.runs]
      rw [UavHistory.step, htimer, List.getElem?_cons_zero, Option.getD_some, if_pos rfl,
        tells_updateHistoryState_iff hgroup]
      cases more with
      | nil =>
          rw [afterLoop_of_last hstands.runs hquery htimer]
          refine or_congr_right (forall₂_congr fun row _ => ?_)
          rw [Std.TreeMap.getD_emptyc]
          exact eq_comm
      | cons next more =>
          rw [afterLoop_of_next hstands.runs (List.cons_ne_nil next more) hquery,
            roles_iff_rolesAgree]
          exact Iff.rfl

theorem Stands.replayed {n : Nat} {later : List (List HistoryRow)}
    (hstands : Stands receivers later (replayed rows h 1)) :
    Stands receivers (later.drop n) (replayed rows h (n + 1)) := by
  induction n with
  | zero => exact hstands
  | succ n ih =>
      rw [← List.tail_drop]
      exact ih.timeout

theorem forall_ready_iff (runs : List (List HistoryRow)) :
    (∀ n, Ready receivers (runs.drop n)) ↔ receivers = [] ∨
      (∀ run ∈ runs.dropLast, RolesAgree run) ∧ ∀ run ∈ runs.getLast?, NoRoles run := by
  induction runs with
  | nil => simp [Ready]
  | cons run more ih =>
      have hcons : (∀ n, Ready receivers ((run :: more).drop n)) ↔
          Ready receivers (run :: more) ∧ ∀ n, Ready receivers (more.drop n) := by
        constructor
        · exact fun hall => ⟨hall 0, fun n => hall (n + 1)⟩
        · intro hall n
          cases n with
          | zero => exact hall.1
          | succ n => exact hall.2 n
      rw [hcons, ih]
      cases more with
      | nil => simp [Ready]
      | cons next more =>
          rw [Ready, List.dropLast_cons_cons, List.getLast?_cons_cons, List.forall_mem_cons]
          tauto

theorem tells_start_iff {row : HistoryRow} {rest : List HistoryRow} (h : UavHistory) :
    Tells run h (replayed (row :: rest) h 1) ↔
      Tells run { h.stop with m_query := ⟨some row, rest⟩ }
        { h.stop with m_query := ⟨some row, rest⟩ }.updateHistoryState := by
  obtain ⟨hreceivers, hchanges⟩ := Prod.mk.inj (heard_stop (h := h))
  have hrecords : h.stop.records = h.records := congrArg Control.records (control_stop h)
  rw [Tells, Tells, ← hreceivers, ← hchanges, ← hrecords]
  rfl

theorem stands_start {row : HistoryRow} {rest : List HistoryRow} {more : List (List HistoryRow)}
    (hrows : seconds (row :: rest) = run :: more) (hmore : more ≠ []) :
    Stands h.m_receiversList more (replayed (row :: rest) h 1) := by
  have hreceivers := congrArg Prod.fst (heard_stop (h := h))
  have hcontrol := control_updateHistoryState { h.stop with m_query := queryOn (row :: rest) }
  rw [nextSecond_eq, beyond_queryOn hrows] at hcontrol
  have hruns := seconds_flatten_tail (row :: rest)
  rw [hrows] at hruns
  refine ⟨hruns, receivers_updateHistoryState.trans hreceivers, ?_, fun _ =>
    congrArg Control.m_query hcontrol⟩
  rw [List.isEmpty_eq_false_iff.mpr hmore]
  rfl

theorem faithful_nil (h : UavHistory) : Faithful [] h := by
  have hstop := control_stop h
  have hstands : Stands h.m_receiversList [] (replayed [] h 1) :=
    ⟨rfl, congrArg Prod.fst heard_stop, congrArg Control.m_timer hstop, fun hne => absurd rfl hne⟩
  intro n
  cases n with
  | zero =>
      obtain ⟨-, hchanges⟩ := Prod.mk.inj (heard_stop (h := h))
      refine ⟨(congrArg Control.records hstop).trans (List.append_nil _).symm, [], ?_, .refl _⟩
      rw [List.append_nil]
      exact hchanges
  | succ n =>
      have hlater := hstands.replayed (n := n)
      rw [List.drop_nil] at hlater
      exact hlater.tells_iff.mpr trivial

theorem not_tells_of_no_row (htimer : h.m_timer = true) (hquery : h.m_query = {}) :
    ¬Tells [] h (h.step .timeout) := by
  intro htells
  have hread : h.updateHistoryState.records = h.records ++ [none] :=
    (congrArg Control.records (control_updateHistoryState h)).trans (by rw [hquery]; rfl)
  have hrecords := htells.1
  rw [step, if_pos htimer, hread] at hrecords
  exact List.cons_ne_nil none [] (List.append_cancel_left hrecords)

/-- After a start over a single second the timer goes on without a row. -/
theorem not_faithful_of_single {row : HistoryRow} {rest : List HistoryRow}
    (hrows : seconds (row :: rest) = [run]) (h : UavHistory) : ¬Faithful (row :: rest) h := by
  intro hfaithful
  have hcontrol := control_updateHistoryState { h.stop with m_query := queryOn (row :: rest) }
  rw [nextSecond_eq, beyond_queryOn hrows] at hcontrol
  have hsecond := hfaithful 1
  rw [hrows] at hsecond
  refine not_tells_of_no_row rfl ?_ hsecond
  exact congrArg Control.m_query hcontrol

theorem faithful_iff_of_runs {row : HistoryRow} {rest : List HistoryRow}
    {more : List (List HistoryRow)} (hrows : seconds (row :: rest) = run :: more)
    (hmore : more ≠ []) (h : UavHistory) :
    Faithful (row :: rest) h ↔ ∀ n, Ready h.m_receiversList ((seconds (row :: rest)).drop n) := by
  have hstands := stands_start (h := h) hrows hmore
  have hreceivers := congrArg Prod.fst (heard_stop (h := h))
  refine forall_congr' fun n => ?_
  cases n with
  | zero =>
      rw [hrows, List.getElem?_cons_zero, Option.getD_some]
      change Tells run h (replayed (row :: rest) h 1) ↔ _
      rw [tells_start_iff, tells_updateHistoryState_iff (group_queryOn hrows),
        afterLoop_of_next hrows hmore rfl, roles_iff_rolesAgree]
      obtain ⟨next, others, rfl⟩ := List.exists_cons_of_ne_nil hmore
      exact or_congr_left (Eq.congr_left hreceivers)
  | succ n =>
      have hlater := (hstands.replayed (n := n)).tells_iff
      rw [hrows, List.drop_succ_cons, List.getElem?_cons_succ]
      rw [List.getElem?_drop, add_zero] at hlater
      exact hlater

/-- **The replay and its rows.** -/
theorem faithful_iff (rows : List HistoryRow) (h : UavHistory) :
    Faithful rows h ↔ rows = [] ∨ 1 < (seconds rows).length ∧ (h.m_receiversList = [] ∨
      (∀ run ∈ (seconds rows).dropLast, RolesAgree run) ∧
        ∀ run ∈ (seconds rows).getLast?, NoRoles run) := by
  cases rows with
  | nil => exact iff_of_true (faithful_nil h) (Or.inl rfl)
  | cons row rest =>
      rw [or_iff_right (List.cons_ne_nil row rest)]
      cases hrows : seconds (row :: rest) with
      | nil =>
          rw [seconds_cons] at hrows
          cases hrows
      | cons run more =>
          by_cases hmore : more = []
          · subst hmore
            exact iff_of_false (not_faithful_of_single hrows h) fun hlong =>
              absurd hlong.1 (lt_irrefl 1)
          · have hlong : 1 < (run :: more).length :=
              Nat.succ_lt_succ (List.length_pos_iff.mpr hmore)
            rw [faithful_iff_of_runs hrows hmore, hrows, forall_ready_iff, and_iff_right hlong]

/-- Two seconds of a UAV: the second row is told without its role. -/
theorem not_faithful :
    ¬Faithful [rowAt 7 0, rowAt 7 1] (constructed true true true 30000 [0]) := by
  have hrows : seconds [rowAt 7 0, rowAt 7 1] = [[rowAt 7 0], [rowAt 7 1]] := by decide +kernel
  rw [faithful_iff_of_runs hrows (List.cons_ne_nil _ _), hrows]
  intro hready
  have hlast : [0] = [] ∨ NoRoles [rowAt 7 1] := hready 1
  have hrole := hlast.resolve_left (List.cons_ne_nil 0 []) (rowAt 7 1) List.mem_cons_self
  exact absurd hrole (by decide)

end UavHistory

end ArmOd
