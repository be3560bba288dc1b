import ArmOd.DbBla.ReplayFlags
import ArmOd.Map.BplaTracks

/-!
# The map and the known UAVs

The manager of the live UAVs and the replay tell the map of the UAVs from their thread, and the Atlant
positions reach it from another one; what they ask for waits in the queue of the map. Between two of
these calls the timer of the single points may come, or a map may be opened, which takes everything
off. Once the map has caught up, a live UAV has the features it was reported with in the life that
goes on, and a UAV that is not known has none.
-/

namespace ArmOd

open MapFeature MapClient1

/-! ### What the map is asked for -/

namespace MapController

def onUavInfoChanged (uavInfo : UavInfo) (uavRole : String) (tail tailStdDev : List QPointF) :
    List BplaCall :=
  if uavRole = OUR_UAV_ROLE then [.addFriendBpla uavInfo]
  else if uavRole = ENEMY_UAV_ROLE then [.addEnemyBpla uavInfo tail tailStdDev]
  else []

def onUavRemoved (uav : Uav) : List BplaCall := [.removeBpla uav]

/-- `onUavAdded` does nothing. -/
def calls : UavNotification → List BplaCall
  | .onUavAdded _ _ => []
  | .onUavInfoChanged uavInfo uavRole tail tailStdDev =>
    onUavInfoChanged uavInfo uavRole tail tailStdDev
  | .onUavRemoved uav _ => onUavRemoved uav

end MapController

namespace MapClient1

/-- `removeAll`, which a map that is opened begins with. The sources stay known. -/
def removeAll (s : BplaFeatures) : BplaFeatures :=
  { s with m_friendBplaList := .empty, m_enemyBplaList := .empty }

/-- The record that a call shows. -/
def BplaCall.info? : BplaCall → Option UavInfo
  | addFriendBpla uav => some uav
  | addEnemyBpla uav _ _ => some uav
  | onePointTimer => none
  | removeBpla _ => none

/-- A call that puts something on the friends' list, under the id of `info`. -/
def addsFriend (info : UavInfo) : BplaCall → Bool
  | .addFriendBpla uav => decide (getExtendedId uav = getExtendedId info ∧
      (uav.source = UAV_SLICES_SOURCE ∨ uav.source = UAV_AUTOPILOT_SOURCE))
  | _ => false

def addsEnemy (info : UavInfo) : BplaCall → Bool
  | .addEnemyBpla uav _ _ => decide (getExtendedId uav = getExtendedId info)
  | _ => false

/-- Whether something stands under the id of `info` after a call. -/
def standsAfter (adds : BplaCall → Bool) (info : UavInfo) (stands : Bool) : BplaCall → Bool
  | .removeBpla uav =>
    stands && !decide (info.uavId = uav.uavId ∧ info.historical = uav.historical)
  | call => adds call || stands

variable {same : QPointF → QPointF → Bool} {s : BplaFeatures} {info uav : UavInfo}
  {adds : BplaCall → Bool} {call : BplaCall} {b b' : Bool}

theorem standsAfter_mono (h : b = true → b' = true) :
    standsAfter adds info b call = true → standsAfter adds info b' call = true := by
  cases b with
  | false => cases call <;> simp +contextual [standsAfter]
  | true =>
      rw [h rfl]
      exact id

theorem foldl_standsAfter_mono {calls : List BplaCall} (h : b = true → b' = true) :
    calls.foldl (standsAfter adds info) b = true →
      calls.foldl (standsAfter adds info) b' = true := by
  induction calls generalizing b b' with
  | nil => exact h
  | cons call calls ih => exact ih (standsAfter_mono h)

/-! ### What stands on the lists -/

theorem isSome_update {ν : Type} (m : ObjectMap String ν) (id key : String) (f : ν → ν) (v : ν) :
    ((m.update id f v).value key).isSome = (decide (id = key) || (m.value key).isSome) := by
  rw [ObjectMap.value_update]
  by_cases hkey : id = key
  · rw [if_pos hkey, decide_eq_true hkey]
    cases m.value key <;> rfl
  · rw [if_neg hkey, decide_eq_false hkey, Bool.false_or]

theorem isSome_removed {ν : Type} {v : Option ν} {c : Prop} [Decidable c] :
    (if c then none else v).isSome = (v.isSome && !decide c) := by
  by_cases hc : c
  · rw [if_pos hc, decide_eq_true hc, Bool.not_true, Bool.and_false]
    rfl
  · rw [if_neg hc, decide_eq_false hc, Bool.not_false, Bool.and_true]

theorem friend_run (h : s.Known) (info : UavInfo) (call : BplaCall) :
    ((call.run same s).m_friendBplaList.value (getExtendedId info)).isSome =
      standsAfter (addsFriend info) info
        (s.m_friendBplaList.value (getExtendedId info)).isSome call := by
  cases call with
  | addFriendBpla uav =>
      rw [BplaCall.run, addFriendBplaInternal]
      dsimp only [standsAfter, addsFriend]
      by_cases hslices : uav.source = UAV_SLICES_SOURCE
      · rw [if_pos hslices]
        dsimp only
        rw [isSome_update]
        simp only [hslices, true_or, and_true]
      rw [if_neg hslices]
      by_cases hautopilot : uav.source = UAV_AUTOPILOT_SOURCE
      · rw [if_pos hautopilot]
        dsimp only
        rw [isSome_update]
        simp only [hautopilot, or_true, and_true]
      · rw [if_neg hautopilot]
        simp only [hslices, hautopilot, or_self, and_false, decide_false, Bool.false_or]
  | addEnemyBpla uav tail tailStdDev => rfl
  | onePointTimer => rfl
  | removeBpla uav =>
      rw [BplaCall.run, removeBplaInternal, removeSources_eq]
      dsimp only [standsAfter]
      rw [h.value_takeAll Or.inl, isSome_removed]

theorem enemies_addFriend (same : QPointF → QPointF → Bool) (uav : UavInfo) (s : BplaFeatures) :
    (addFriendBplaInternal same uav s).m_enemyBplaList = s.m_enemyBplaList := by
  rw [addFriendBplaInternal]
  dsimp only
  split
  · rfl
  split <;> rfl

theorem source_eq_of_getExtendedId (h : getExtendedId uav = getExtendedId info)
    (hsource : uav.source = 104) : info.source = 104 := by
  have hid := uavId_eq_of_getExtendedId h
  have hhistorical := historical_eq_of_getExtendedId h
  rw [getExtendedId, getExtendedId, hid, hhistorical, String.append_left_inj,
    String.append_left_inj, String.append_right_inj] at h
  have hnumber := QString.number_injective h
  rw [hsource, if_neg (by decide)] at hnumber
  split at hnumber
  · exact absurd hnumber (by decide)
  · exact hnumber.symm

/-- The style of an enemy is the one of the source in its id. -/
def BplaFeatures.Styled (s : BplaFeatures) : Prop :=
  ∀ key enemy, s.m_enemyBplaList.value key = some enemy →
    ∃ uav : UavInfo, getExtendedId uav = key ∧ enemy.m_styleName = getEnemyBplaStyleName uav.source

theorem BplaFeatures.Styled.of_value {s' : BplaFeatures} (h : s.Styled)
    (hold : ∀ key enemy, s'.m_enemyBplaList.value key = some enemy →
      s.m_enemyBplaList.value key = some enemy) : s'.Styled :=
  fun key enemy henemy => h key enemy (hold key enemy henemy)

theorem BplaFeatures.Styled.addEnemyBplaInternal (h : s.Styled) (uav : UavInfo)
    (tail tailStdDev : List QPointF) :
    (addEnemyBplaInternal same uav tail tailStdDev s).Styled := by
  intro key enemy henemy
  rw [MapClient1.addEnemyBplaInternal] at henemy
  dsimp only at henemy
  rw [ObjectMap.value_update] at henemy
  by_cases hkey : getExtendedId uav = key
  · rw [if_pos hkey, hkey] at henemy
    cases hold : s.m_enemyBplaList.value key with
    | none =>
        rw [hold] at henemy
        refine ⟨uav, hkey, ?_⟩
        cases henemy
        split <;> rfl
    | some old =>
        obtain ⟨uav', hkey', hstyle⟩ := h key old hold
        rw [hold] at henemy
        refine ⟨uav', hkey', ?_⟩
        cases henemy
        rw [← hstyle]
        have hupdate : (old.update same uav).m_styleName = old.m_styleName := by
          rw [EnemyBpla.update]
          split <;> rfl
        rw [← hupdate]
        split <;> rfl
  · rw [if_neg hkey] at henemy
    exact h key enemy henemy

theorem BplaFeatures.Styled.removeAllonePointTimer (h : s.Styled) :
    (removeAllonePointTimer s).Styled := by
  refine h.of_value fun key enemy henemy => ?_
  rw [value_removeAllonePointTimer, Option.filter_eq_some_iff] at henemy
  exact henemy.1

theorem BplaFeatures.Styled.run (h : s.Styled) (call : BplaCall) : (call.run same s).Styled := by
  cases call with
  | addFriendBpla uav =>
      refine h.of_value fun key enemy henemy => ?_
      rwa [BplaCall.run, enemies_addFriend] at henemy
  | addEnemyBpla uav tail tailStdDev => exact h.addEnemyBplaInternal uav tail tailStdDev
  | onePointTimer => exact h.removeAllonePointTimer
  | removeBpla uav =>
      refine h.of_value fun key enemy henemy => ?_
      rw [BplaCall.run, removeBplaInternal, removeSources_eq] at henemy
      dsimp only at henemy
      rw [MapClient1.value_takeAll] at henemy
      split at henemy
      · cases henemy
      · exact henemy

/-- An enemy is taken off by the timer only where its source is 104. -/
theorem enemy_run (hknown : s.Known) (info : UavInfo) (call : BplaCall) :
    (((call.run same s).m_enemyBplaList.value (getExtendedId info)).isSome = true →
      standsAfter (addsEnemy info) info
        (s.m_enemyBplaList.value (getExtendedId info)).isSome call = true) ∧
    (s.Styled → info.source ≠ 104 →
      standsAfter (addsEnemy info) info
        (s.m_enemyBplaList.value (getExtendedId info)).isSome call = true →
      ((call.run same s).m_enemyBplaList.value (getExtendedId info)).isSome = true) := by
  cases call with
  | addFriendBpla uav =>
      rw [BplaCall.run, enemies_addFriend]
      exact ⟨id, fun _ _ => id⟩
  | addEnemyBpla uav tail tailStdDev =>
      rw [BplaCall.run, MapClient1.addEnemyBplaInternal]
      dsimp only [standsAfter, addsEnemy]
      rw [isSome_update]
      exact ⟨id, fun _ _ => id⟩
  | onePointTimer =>
      rw [BplaCall.run, value_removeAllonePointTimer]
      dsimp only [standsAfter, addsEnemy]
      rw [Bool.false_or]
      cases hvalue : s.m_enemyBplaList.value (getExtendedId info) with
      | none => exact ⟨id, fun _ _ => id⟩
      | some enemy =>
          refine ⟨fun _ => rfl, fun hstyled hsource _ => ?_⟩
          obtain ⟨uav, hkey, hstyle⟩ := hstyled _ enemy hvalue
          rw [Option.filter_some, if_pos]
          · rfl
          rw [decide_eq_true_iff, hstyle]
          intro heq
          have hnumber := QString.number_injective (String.append_right_inj _ |>.mp heq)
          exact hsource (source_eq_of_getExtendedId hkey hnumber)
  | removeBpla uav =>
      rw [BplaCall.run, removeBplaInternal, removeSources_eq]
      dsimp only [standsAfter]
      rw [hknown.value_takeAll Or.inr, isSome_removed]
      exact ⟨id, fun _ _ => id⟩

end MapClient1

/-! ### The manager, the replay and the map -/

/-- The manager and the replay with the map, and the calls that wait for it. -/
structure LiveMap where
  manager : World
  history : UavHistory
  waiting : List BplaCall := []
  features : BplaFeatures := {}

namespace LiveMap

/-- What the map is asked for by notifications, as one of those who are told. -/
def heard (map : Listener) (sent : List (Listener × UavNotification)) : List BplaCall :=
  sent.flatMap fun m => if m.1 = map then MapController.calls m.2 else []

inductive Event where
  | manager (op : DbUavManager.LiveOp)
  | history (op : UavHistory.HistoryOp)
  /-- A position from Atlant. -/
  | position (uav : UavInfo)
  /-- The map comes to the next call. -/
  | called
  | onePointTimer
  | mapReady

def step (same : QPointF → QPointF → Bool) (map : Listener) (s : LiveMap) : Event → LiveMap
  | .manager op =>
    let manager := DbUavManager.liveStep s.manager op
    { s with
      manager
      waiting := s.waiting ++ heard map (manager.sent.drop s.manager.sent.length) }
  | .history op =>
    let history := s.history.step op
    { s with
      history
      waiting := s.waiting ++ heard map (history.sent.drop s.history.sent.length) }
  | .position uav => { s with waiting := s.waiting ++ [.addEnemyBpla uav [] []] }
  | .called =>
    match s.waiting with
    | [] => s
    | call :: waiting => { s with waiting, features := call.run same s.features }
  | .onePointTimer => { s with features := removeAllonePointTimer s.features }
  | .mapReady => { s with features := removeAll s.features }

/-- The manager has just been constructed, and the replay has done anything. -/
def start (db : Session) (receivers : List Listener) (history : UavHistory) : LiveMap where
  manager := DbUavManager.started db receivers
  history := history

/-- The life of a UAV that goes on, as the map was told it by the manager. -/
def life (map : Listener) (uavId : Nat) (s : LiveMap) : List UavNotification :=
  currentLife UavNotification.uavId UavNotification.mark map uavId s.manager.sent

variable {same : QPointF → QPointF → Bool} {map : Listener} {s : LiveMap} {info : UavInfo}
  {adds : BplaCall → Bool} {b : Bool} {n : UavNotification}

/-- A call adds under the id of `info` only what has this id. -/
def AddsId (info : UavInfo) (adds : BplaCall → Bool) : Prop :=
  ∀ call, adds call = true → ∃ uav, call.info? = some uav ∧ getExtendedId uav = getExtendedId info

/-- The notification asks for something under the id. -/
def tells (adds : BplaCall → Bool) (n : UavNotification) : Bool := (MapController.calls n).any adds

theorem info?_of_mem_calls {call : BplaCall} {uav : UavInfo} (hcall : call ∈ MapController.calls n)
    (hinfo : call.info? = some uav) : ∃ role tail tailStdDev,
      n = .onUavInfoChanged uav role tail tailStdDev := by
  cases n with
  | onUavAdded uav uavRole => cases hcall
  | onUavInfoChanged uavInfo uavRole tail tailStdDev =>
      rw [MapController.calls, MapController.onUavInfoChanged] at hcall
      refine ⟨uavRole, tail, tailStdDev, ?_⟩
      split at hcall
      · cases List.mem_singleton.mp hcall
        cases hinfo
        rfl
      split at hcall
      · cases List.mem_singleton.mp hcall
        cases hinfo
        rfl
      · cases hcall
  | onUavRemoved uav uavRole =>
      cases List.mem_singleton.mp hcall
      cases hinfo

theorem AddsId.of_tells (hadds : AddsId info adds) (htells : tells adds n = true) :
    n.uavId = info.uavId ∧ n.historical = info.historical ∧ n.mark = .changed := by
  obtain ⟨call, hcall, hadd⟩ := List.any_eq_true.mp htells
  obtain ⟨uav, hinfo, hid⟩ := hadds call hadd
  obtain ⟨role, tail, tailStdDev, rfl⟩ := info?_of_mem_calls hcall hinfo
  exact ⟨uavId_eq_of_getExtendedId hid, historical_eq_of_getExtendedId hid, rfl⟩

/-- The record of a UAV puts something under the id, or changes nothing. -/
theorem foldl_calls_changed (uavInfo : UavInfo) (uavRole : String) (tail tailStdDev : List QPointF) :
    (MapController.calls (.onUavInfoChanged uavInfo uavRole tail tailStdDev)).foldl
      (standsAfter adds info) b =
      (tells adds (.onUavInfoChanged uavInfo uavRole tail tailStdDev) || b) := by
  rw [tells, MapController.calls, MapController.onUavInfoChanged]
  split
  · rw [List.foldl_cons, List.foldl_nil, List.any_cons, List.any_nil, Bool.or_false]
    rfl
  split
  · rw [List.foldl_cons, List.foldl_nil, List.any_cons, List.any_nil, Bool.or_false]
    rfl
  · rfl

theorem foldl_calls_replayed (hadds : AddsId info adds) (hinfo : info.historical = false)
    (hn : n.historical = true) :
    (MapController.calls n).foldl (standsAfter adds info) b = b := by
  cases n with
  | onUavAdded uav uavRole => rfl
  | onUavInfoChanged uavInfo uavRole tail tailStdDev =>
      rw [foldl_calls_changed]
      cases htells : tells adds (.onUavInfoChanged uavInfo uavRole tail tailStdDev) with
      | false => rfl
      | true =>
          have hflag := (hadds.of_tells htells).2.1
          rw [hn, hinfo] at hflag
          cases hflag
  | onUavRemoved uav uavRole =>
      have hflag : uav.historical = true := hn
      rw [MapController.calls, MapController.onUavRemoved, List.foldl_cons, List.foldl_nil,
        standsAfter, hinfo, hflag, decide_eq_false (by simp), Bool.not_false, Bool.and_true]

/-- A notification of the manager changes what stands under the id as it changes the life. -/
theorem foldl_calls_live (hadds : AddsId info adds) (hinfo : info.historical = false)
    (hn : DbUavManager.EndsLive n) (life : List UavNotification) :
    (MapController.calls n).foldl (standsAfter adds info) (life.any (tells adds)) =
      (lifeStep UavNotification.uavId UavNotification.mark map info.uavId life (map, n)).any
        (tells adds) := by
  rw [lifeStep]
  dsimp only
  cases n with
  | onUavAdded uav uavRole =>
      split
      · rw [if_neg (by simp [UavNotification.mark]), List.any_append]
        exact (Bool.or_false _).symm
      · rfl
  | onUavInfoChanged uavInfo uavRole tail tailStdDev =>
      rw [foldl_calls_changed]
      split
      · rw [if_neg (by simp [UavNotification.mark]), List.any_append, List.any_cons, List.any_nil,
          Bool.or_false, Bool.or_comm]
      · rename_i hother
        cases htells : tells adds (.onUavInfoChanged uavInfo uavRole tail tailStdDev) with
        | false => rfl
        | true => exact (hother ⟨rfl, (hadds.of_tells htells).1⟩).elim
  | onUavRemoved uav uavRole =>
      have hflag : uav.historical = false := hn
      rw [MapController.calls, MapController.onUavRemoved, List.foldl_cons, List.foldl_nil,
        standsAfter, hinfo, hflag]
      by_cases hid : uav.uavId = info.uavId
      · have hend : (UavNotification.onUavRemoved uav uavRole).mark = .removed := rfl
        rw [if_pos ⟨rfl, hid⟩, if_pos hend, decide_eq_true ⟨hid.symm, rfl⟩, Bool.not_true,
          Bool.and_false]
        rfl
      · rw [if_neg (fun h => hid h.2), decide_eq_false (fun h => hid h.1.symm), Bool.not_false,
          Bool.and_true]

theorem foldl_heard_live (hadds : AddsId info adds) (hinfo : info.historical = false)
    {new : List (Listener × UavNotification)} (hnew : ∀ m ∈ new, DbUavManager.EndsLive m.2)
    (life : List UavNotification) :
    (heard map new).foldl (standsAfter adds info) (life.any (tells adds)) =
      (new.foldl (lifeStep UavNotification.uavId UavNotification.mark map info.uavId) life).any
        (tells adds) := by
  induction new generalizing life with
  | nil => rfl
  | cons m new ih =>
      obtain ⟨receiver, n⟩ := m
      obtain ⟨hn, hrest⟩ := List.forall_mem_cons.mp hnew
      rw [heard, List.flatMap_cons, List.foldl_append, List.foldl_cons]
      by_cases hmap : receiver = map
      · subst hmap
        rw [if_pos rfl, foldl_calls_live hadds hinfo hn]
        exact ih hrest _
      · have hkeep : lifeStep UavNotification.uavId UavNotification.mark map info.uavId life
            (receiver, n) = life := if_neg fun h => hmap h.1
        rw [if_neg hmap, List.foldl_nil, hkeep]
        exact ih hrest life

theorem foldl_heard_replayed (hadds : AddsId info adds) (hinfo : info.historical = false)
    {new : List (Listener × UavNotification)} (hnew : ∀ m ∈ new, m.2.historical = true) :
    (heard map new).foldl (standsAfter adds info) b = b := by
  induction new with
  | nil => rfl
  | cons m new ih =>
      obtain ⟨hm, hrest⟩ := List.forall_mem_cons.mp hnew
      rw [heard, List.flatMap_cons, List.foldl_append]
      split
      · rw [foldl_calls_replayed hadds hinfo hm]
        exact ih hrest
      · exact ih hrest

/-! ### Any run -/

/-- A list of which the calls decide what stands under the id of `info`: nothing they do not leave
there, and `exact` what they leave there. -/
structure Listed (same : QPointF → QPointF → Bool) (info : UavInfo) (adds : BplaCall → Bool)
    (exact : Prop) (on : BplaFeatures → Bool) : Prop where
  id : AddsId info adds
  sound : ∀ s : BplaFeatures, s.Known → ∀ call, on (call.run same s) = true →
    standsAfter adds info (on s) call = true
  complete : exact → ∀ s : BplaFeatures, s.Known → s.Styled → ∀ call,
    standsAfter adds info (on s) call = true → on (call.run same s) = true
  cleared : ∀ s, on (removeAll s) = false

def friendOn (info : UavInfo) (s : BplaFeatures) : Bool :=
  (s.m_friendBplaList.value (getExtendedId info)).isSome

def enemyOn (info : UavInfo) (s : BplaFeatures) : Bool :=
  (s.m_enemyBplaList.value (getExtendedId info)).isSome

theorem listed_friends (info : UavInfo) (exact : Prop) :
    Listed same info (addsFriend info) exact (friendOn info) where
  id call hcall := by
    cases call with
    | addFriendBpla uav => exact ⟨uav, rfl, (of_decide_eq_true hcall).1⟩
    | _ => cases hcall
  sound s hknown call := by
    rw [friendOn, friend_run hknown]
    exact id
  complete _ s hknown _ call := by
    rw [friendOn, friendOn, friend_run hknown]
    exact id
  cleared s := by
    rw [friendOn, removeAll, ObjectMap.value_empty]
    rfl

theorem listed_enemies {exact : Prop} (hexact : exact → info.source ≠ 104) :
    Listed same info (addsEnemy info) exact (enemyOn info) where
  id call hcall := by
    cases call with
    | addEnemyBpla uav tail tailStdDev => exact ⟨uav, rfl, of_decide_eq_true hcall⟩
    | _ => cases hcall
  sound s hknown call := (enemy_run hknown info call).1
  complete h s hknown hstyled call := (enemy_run hknown info call).2 hstyled (hexact h)
  cleared s := by
    rw [enemyOn, removeAll, ObjectMap.value_empty]
    rfl

/-- No position from Atlant has the id, and no map is opened where the list is exact. -/
def Allowed (adds : BplaCall → Bool) (exact : Prop) : Event → Prop
  | .position uav => adds (.addEnemyBpla uav [] []) = false
  | .mapReady => ¬exact
  | _ => True

/-- What is going to stand under the id when the map has caught up was told in the life that goes on;
`exact` all of it. -/
structure Follows (map : Listener) (info : UavInfo) (adds : BplaCall → Bool) (exact : Prop)
    (on : BplaFeatures → Bool) (receivers : List Listener) (s : LiveMap) : Prop where
  live : DbUavManager.Live s.manager
  receivers : s.manager.manager.m_receiversList = receivers
  knows : s.manager.manager.KnowsLive
  known : s.features.Known
  styled : s.features.Styled
  sound : s.waiting.foldl (standsAfter adds info) (on s.features) = true →
    (s.life map info.uavId).any (tells adds) = true
  complete : exact → (s.life map info.uavId).any (tells adds) = true →
    s.waiting.foldl (standsAfter adds info) (on s.features) = true

variable {exact : Prop} {on : BplaFeatures → Bool} {receivers : List Listener}

theorem Follows.manager (h : Follows map info adds exact on receivers s)
    (hadds : AddsId info adds) (hinfo : info.historical = false) (hnodup : receivers.Nodup)
    (op : DbUavManager.LiveOp) :
    Follows map info adds exact on receivers (step same map s (.manager op)) := by
  obtain ⟨hlive, hreceivers⟩ := h.live.step (h.receivers ▸ hnodup) op
  obtain ⟨hknows, new, hsent, hnew⟩ :=
    DbUavManager.StaysLive.step h.knows h.live (h.receivers ▸ hnodup) op
  have hlife : (step same map s (.manager op)).life map info.uavId =
      new.foldl (lifeStep UavNotification.uavId UavNotification.mark map info.uavId)
        (s.life map info.uavId) := by
    rw [life, step, hsent, currentLife_append, life]
  have hstands : (step same map s (.manager op)).waiting.foldl (standsAfter adds info)
      (on s.features) = (heard map new).foldl (standsAfter adds info)
        (s.waiting.foldl (standsAfter adds info) (on s.features)) := by
    rw [step, ← List.foldl_append, hsent, List.drop_left]
  refine ⟨hlive, hreceivers.trans h.receivers, hknows, h.known, h.styled, ?_, fun hexact => ?_⟩
  · rw [hlife, ← foldl_heard_live hadds hinfo hnew]
    exact fun hlist => foldl_standsAfter_mono h.sound (hstands ▸ hlist)
  · rw [hlife, ← foldl_heard_live hadds hinfo hnew]
    exact fun htold => hstands ▸ foldl_standsAfter_mono (h.complete hexact) htold

/-- The replay asks for nothing that concerns a live UAV. -/
theorem Follows.history (h : Follows map info adds exact on receivers s)
    (hadds : AddsId info adds) (hinfo : info.historical = false) (op : UavHistory.HistoryOp) :
    Follows map info adds exact on receivers (step same map s (.history op)) := by
  obtain ⟨new, hsent, hnew⟩ := UavHistory.SendsReplayed.step s.history op
  have hstands : (step same map s (.history op)).waiting.foldl (standsAfter adds info)
      (on s.features) = s.waiting.foldl (standsAfter adds info) (on s.features) := by
    rw [step, hsent, List.drop_left, List.foldl_append, foldl_heard_replayed hadds hinfo hnew]
  exact ⟨h.live, h.receivers, h.knows, h.known, h.styled, fun hlist => h.sound (hstands ▸ hlist),
    fun hexact htold => hstands ▸ h.complete hexact htold⟩

theorem Follows.called (h : Follows map info adds exact on receivers s)
    (hlist : Listed same info adds exact on) :
    Follows map info adds exact on receivers (step same map s .called) := by
  rw [step]
  cases hwaiting : s.waiting with
  | nil => exact h
  | cons call waiting =>
      have hsound := h.sound
      have hcomplete := h.complete
      rw [hwaiting, List.foldl_cons] at hsound hcomplete
      exact ⟨h.live, h.receivers, h.knows, h.known.run call, h.styled.run call,
        fun hstands => hsound
          (foldl_standsAfter_mono (hlist.sound s.features h.known call) hstands),
        fun hexact htold => foldl_standsAfter_mono
          (hlist.complete hexact s.features h.known h.styled call) (hcomplete hexact htold)⟩

theorem Follows.onePointTimer (h : Follows map info adds exact on receivers s)
    (hlist : Listed same info adds exact on) :
    Follows map info adds exact on receivers (step same map s .onePointTimer) := by
  have hkeeps : standsAfter adds info (on s.features) .onePointTimer = on s.features := by
    change (adds .onePointTimer || on s.features) = on s.features
    cases hadd : adds .onePointTimer with
    | false => rfl
    | true =>
        obtain ⟨uav, hnone, -⟩ := hlist.id _ hadd
        cases hnone
  have hsound := hlist.sound s.features h.known .onePointTimer
  rw [hkeeps] at hsound
  refine ⟨h.live, h.receivers, h.knows, h.known.removeAllonePointTimer,
    h.styled.removeAllonePointTimer,
    fun hstands => h.sound (foldl_standsAfter_mono hsound hstands), fun hexact htold => ?_⟩
  have hcomplete := hlist.complete hexact s.features h.known h.styled .onePointTimer
  rw [hkeeps] at hcomplete
  exact foldl_standsAfter_mono hcomplete (h.complete hexact htold)

/-- **One event.** -/
theorem Follows.step (h : Follows map info adds exact on receivers s)
    (hlist : Listed same info adds exact on) (hinfo : info.historical = false)
    (hnodup : receivers.Nodup) {event : Event} (hevent : Allowed adds exact event) :
    Follows map info adds exact on receivers (step same map s event) := by
  cases event with
  | manager op => exact h.manager hlist.id hinfo hnodup op
  | history op => exact h.history hlist.id hinfo op
  | position uav =>
      have hstands : (LiveMap.step same map s (.position uav)).waiting.foldl (standsAfter adds info)
          (on s.features) = s.waiting.foldl (standsAfter adds info) (on s.features) := by
        rw [LiveMap.step, List.foldl_append, List.foldl_cons, List.foldl_nil]
        change (adds (.addEnemyBpla uav [] []) || _) = _
        rw [show adds (.addEnemyBpla uav [] []) = false from hevent, Bool.false_or]
      exact ⟨h.live, h.receivers, h.knows, h.known, h.styled, fun hlist => h.sound (hstands ▸ hlist),
        fun hexact htold => hstands ▸ h.complete hexact htold⟩
  | called => exact h.called hlist
  | onePointTimer => exact h.onePointTimer hlist
  | mapReady =>
      refine ⟨h.live, h.receivers, h.knows, ?_, ?_, fun hstands => ?_, fun hexact => ?_⟩
      · intro key hkey
        rw [LiveMap.step, removeAll, ObjectMap.value_empty, ObjectMap.value_empty] at hkey
        rcases hkey with hkey | hkey <;> cases hkey
      · intro key enemy henemy
        rw [LiveMap.step, removeAll, ObjectMap.value_empty] at henemy
        cases henemy
      · have hcleared : on (LiveMap.step same map s .mapReady).features = false :=
          hlist.cleared s.features
        refine h.sound (foldl_standsAfter_mono (fun hon => ?_) hstands)
        rw [hcleared] at hon
        cases hon
      · exact absurd hexact hevent

theorem Follows.run {db : Session} {history : UavHistory} {events : List Event}
    (hlist : Listed same info adds exact on) (hinfo : info.historical = false)
    (hnodup : receivers.Nodup) (hempty : on {} = false)
    (hevents : ∀ event ∈ events, Allowed adds exact event) :
    Follows map info adds exact on receivers
      (events.foldl (LiveMap.step same map) (start db receivers history)) := by
  have hrun : Along (LiveMap.step same map) (fun _ event => Allowed adds exact event)
      (start db receivers history) events :=
    Along.forall_mem_iff.mpr hevents
  refine hrun.invariant (fun s event h hevent => h.step hlist hinfo hnodup hevent) ?_
  refine ⟨DbUavManager.live_started db receivers, rfl, fun k uav hget => ?_,
    BplaFeatures.known_start, fun key enemy henemy => ?_, fun hstands => ?_, fun _ htold => ?_⟩
  · exact absurd (QMap.mem_of_getElem? hget) Std.TreeMap.not_mem_emptyc
  · rw [start, ObjectMap.value_empty] at henemy
    cases henemy
  · rw [start, List.foldl_nil, hempty] at hstands
    cases hstands
  · cases htold

/-- The map is told of one of ours, with a source that makes a feature, under the id of `info`. -/
def ReportsFriend (info : UavInfo) (n : UavNotification) : Prop :=
  ∃ uav tail tailStdDev, n = .onUavInfoChanged uav OUR_UAV_ROLE tail tailStdDev ∧
    getExtendedId uav = getExtendedId info ∧
    (uav.source = UAV_SLICES_SOURCE ∨ uav.source = UAV_AUTOPILOT_SOURCE)

/-- The map is told of an enemy under the id of `info`. -/
def ReportsEnemy (info : UavInfo) (n : UavNotification) : Prop :=
  ∃ uav tail tailStdDev, n = .onUavInfoChanged uav ENEMY_UAV_ROLE tail tailStdDev ∧
    getExtendedId uav = getExtendedId info

theorem tells_friend_iff : tells (addsFriend info) n = true ↔ ReportsFriend info n := by
  constructor
  · intro htells
    obtain ⟨call, hcall, hadd⟩ := List.any_eq_true.mp htells
    cases call with
    | addFriendBpla uav =>
        obtain ⟨role, tail, tailStdDev, rfl⟩ := info?_of_mem_calls hcall rfl
        refine ⟨uav, tail, tailStdDev, ?_, of_decide_eq_true hadd⟩
        rw [MapController.calls, MapController.onUavInfoChanged] at hcall
        split at hcall
        · rw [‹role = OUR_UAV_ROLE›]
        split at hcall
        · cases List.mem_singleton.mp hcall
        · cases hcall
    | _ => cases hadd
  · rintro ⟨uav, tail, tailStdDev, rfl, hid⟩
    rw [tells, MapController.calls, MapController.onUavInfoChanged, if_pos rfl, List.any_cons,
      addsFriend, decide_eq_true hid, Bool.true_or]

theorem tells_enemy_iff : tells (addsEnemy info) n = true ↔ ReportsEnemy info n := by
  constructor
  · intro htells
    obtain ⟨call, hcall, hadd⟩ := List.any_eq_true.mp htells
    cases call with
    | addEnemyBpla uav tail tailStdDev =>
        refine ⟨uav, tail, tailStdDev, ?_, of_decide_eq_true hadd⟩
        obtain ⟨role, tail', tailStdDev', rfl⟩ := info?_of_mem_calls hcall rfl
        rw [MapController.calls, MapController.onUavInfoChanged] at hcall
        split at hcall
        · cases List.mem_singleton.mp hcall
        split at hcall
        · cases List.mem_singleton.mp hcall
          rw [‹role = ENEMY_UAV_ROLE›]
        · cases hcall
    | _ => cases hadd
  · rintro ⟨uav, tail, tailStdDev, rfl, hid⟩
    rw [tells, MapController.calls, MapController.onUavInfoChanged, if_neg (by decide), if_pos rfl,
      List.any_cons, addsEnemy, decide_eq_true hid, Bool.true_or]

theorem any_tells_iff {reports : UavNotification → Prop} {life : List UavNotification}
    (h : ∀ {n}, tells adds n = true ↔ reports n) :
    life.any (tells adds) = true ↔ ∃ n ∈ life, reports n := by
  rw [List.any_eq_true]
  exact exists_congr fun n => and_congr_right fun _ => h

/-- **The map and the known UAVs.** Whatever the manager, the replay, Atlant, the timer and the user
did: when the map has come to all calls, a live UAV has a feature only where it was reported in the
life that goes on, and, unless a map was opened, everywhere it was; a UAV that is not known has no
such life. The enemies' ids are those that no Atlant position has. -/
theorem features_of_lives (same : QPointF → QPointF → Bool) (db : Session)
    (receivers : List Listener) (hnodup : receivers.Nodup) (map : Listener)
    (hmap : map ∈ receivers) (history : UavHistory) (events : List Event) (info : UavInfo)
    (hinfo : info.historical = false) :
    let s := events.foldl (LiveMap.step same map) (start db receivers history)
    s.waiting = [] →
      ((s.features.m_friendBplaList.value (getExtendedId info)).isSome = true →
        ∃ n ∈ s.life map info.uavId, ReportsFriend info n) ∧
      (Event.mapReady ∉ events → (∃ n ∈ s.life map info.uavId, ReportsFriend info n) →
        (s.features.m_friendBplaList.value (getExtendedId info)).isSome = true) ∧
      ((∀ uav, Event.position uav ∈ events → getExtendedId uav ≠ getExtendedId info) →
        ((s.features.m_enemyBplaList.value (getExtendedId info)).isSome = true →
          ∃ n ∈ s.life map info.uavId, ReportsEnemy info n) ∧
        (info.source ≠ 104 → Event.mapReady ∉ events →
          (∃ n ∈ s.life map info.uavId, ReportsEnemy info n) →
            (s.features.m_enemyBplaList.value (getExtendedId info)).isSome = true)) ∧
      (info.uavId ∉ s.manager.manager.m_knownUavsList → s.life map info.uavId = []) := by
  intro s hwaiting
  have hfriends : ∀ exact : Prop, (exact → Event.mapReady ∉ events) →
      Follows map info (addsFriend info) exact (friendOn info) receivers s := by
    refine fun exact hready => Follows.run (listed_friends info exact) hinfo hnodup rfl ?_
    rintro event hevent
    cases event with
    | position uav => rfl
    | mapReady => exact fun hexact => hready hexact hevent
    | _ => trivial
  have henemies : (∀ uav, Event.position uav ∈ events →
      getExtendedId uav ≠ getExtendedId info) →
      ∀ exact : Prop, (exact → info.source ≠ 104) → (exact → Event.mapReady ∉ events) →
      Follows map info (addsEnemy info) exact (enemyOn info) receivers s := by
    refine fun hpositions exact hsource hready =>
      Follows.run (listed_enemies hsource) hinfo hnodup rfl ?_
    rintro event hevent
    cases event with
    | position uav => exact decide_eq_false (hpositions uav hevent)
    | mapReady => exact fun hexact => hready hexact hevent
    | _ => trivial
  have hsound := (hfriends False False.elim).sound
  rw [hwaiting, any_tells_iff tells_friend_iff] at hsound
  refine ⟨hsound, fun hready htold => ?_, fun hpositions => ⟨?_, fun hsource hready htold => ?_⟩,
    fun hunknown => ?_⟩
  · have hcomplete := (hfriends True fun _ => hready).complete trivial
    rw [hwaiting, any_tells_iff tells_friend_iff] at hcomplete
    exact hcomplete htold
  · have hsound := (henemies hpositions False False.elim False.elim).sound
    rw [hwaiting, any_tells_iff tells_enemy_iff] at hsound
    exact hsound
  · have hcomplete := (henemies hpositions True (fun _ => hsource) fun _ => hready).complete trivial
    rw [hwaiting, any_tells_iff tells_enemy_iff] at hcomplete
    exact hcomplete htold
  · have hlive := (hfriends False False.elim).live
    refine hlive.told.currentLife_eq_nil ?_ (Bool.eq_false_iff.mpr hunknown)
    rw [(hfriends False False.elim).receivers]
    exact hmap

/-- A database with the UAV 7, its autopilot and what a record names besides. -/
def oneFriend : Store :=
  [Write.insertDictionary .uavtypes "UnknownUavType", .insertRole ⟨OUR_UAV_ROLE, OUR_UAV_ROLE⟩,
    .insertUav { uavId := 7, ip := "127.0.0.1", uavTypeId := 1, roleId := 1, name := "", freqId := -1 },
    .insertDictionary .sourcetypes "UnknownSourceType", .insertSource ⟨1, UAV_AUTOPILOT_SOURCE⟩,
    .insertDictionary .devicetypes "UnknownDeviceType", .insertDevice ⟨1, 0, 7⟩,
    .insertDictionary .statustypes "UnknownStatus"].foldl
    (fun s w => ((s.apply w).map Prod.snd).getD s) .empty

/-- The UAV is reported, and the map comes to it. -/
def oneReport : List Event :=
  [.manager (.addUavInfo (.connect oneFriend []) { DbUavManager.firstRecord with device := 1 } true
    [] []), .called]

def oneReported : LiveMap :=
  oneReport.foldl (LiveMap.step (fun _ _ => false) 0)
    (start (.connect oneFriend []) [0] (UavHistory.constructed true true true 30000 [0]))

theorem features_of_lives_oneReport :
    ∃ n ∈ oneReported.life 0 7, ReportsFriend { DbUavManager.firstRecord with uavId := 7 } n :=
  (features_of_lives (fun _ _ => false) (.connect oneFriend []) [0] (by decide) 0 (by decide)
    (UavHistory.constructed true true true 30000 [0]) oneReport
    { DbUavManager.firstRecord with uavId := 7 } rfl
    (List.isEmpty_iff.mp (by decide +kernel))).1 (by decide +kernel)

end LiveMap

end ArmOd
