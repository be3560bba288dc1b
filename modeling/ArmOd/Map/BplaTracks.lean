import ArmOd.Base.Recent
import ArmOd.Map.BplaFeatures

/-!
# The tracks on the map

The feature of a UAV against the whole way it took since the feature was made. A friend shows the
last of its positions and the last of its slices; a replayed enemy the last of its positions, one
with a single source only the first; and a live enemy the tail it was last given, with its
coordinates the other way round, and its position behind it.
-/

namespace ArmOd

namespace MapClient1

open MapFeature

/-- The positions of a friend and its slices, since its feature was made. -/
structure FriendTrack where
  positions : List QPointF
  slices : List QPointF := []

/-- A position that compares equal to the last one is no new one. -/
def moved (same : QPointF → QPointF → Bool) (point : QPointF) (positions : List QPointF) :
    List QPointF :=
  if positions.getLast?.any (same point) then positions else positions ++ [point]

/-- The track of the friend with the id of `info`. Its first position is where its first data had it,
also where that was a slice. -/
def friendTrack (same : QPointF → QPointF → Bool) (info : UavInfo) (track : Option FriendTrack) :
    BplaCall → Option FriendTrack
  | .addFriendBpla uav =>
    if getExtendedId uav ≠ getExtendedId info then track
    else if uav.source = UAV_SLICES_SOURCE then
      some (track.elim { positions := [⟨uav.lon, uav.lat⟩] } fun t =>
        { t with slices := t.slices ++ [⟨uav.lon, uav.lat⟩] })
    else if uav.source = UAV_AUTOPILOT_SOURCE then
      some (track.elim { positions := [⟨uav.lon, uav.lat⟩] } fun t =>
        { t with positions := moved same ⟨uav.lon, uav.lat⟩ t.positions })
    else track
  | .addEnemyBpla _ _ _ => track
  | .onePointTimer => track
  | .removeBpla uav =>
    if info.uavId = uav.uavId ∧ info.historical = uav.historical then none else track

structure ShowsFriend (bpla : FriendBpla) (t : FriendTrack) : Prop where
  position : t.positions.getLast? = some bpla.m_position
  tail : bpla.m_tail = recent TRACK_LENGTH t.positions
  slices : bpla.m_slices = recent TRACK_LENGTH t.slices
  drawn : (bpla.m_tailEnabled && bpla.m_autoTail) = true

/-- The positions of an enemy since its feature was made, and the tail it was last given. -/
structure EnemyTrack where
  source : Nat
  positions : List QPointF
  tail : List QPointF := []

def isSingle (source : Nat) : Bool :=
  decide (source = UAV_SOLVER_SINGLE_1_SOURCE ∨ source = UAV_SOLVER_SINGLE_2_SOURCE)

/-- Data of another source is dropped. -/
def EnemyTrack.update (same : QPointF → QPointF → Bool) (uav : UavInfo) (t : EnemyTrack) :
    EnemyTrack :=
  if t.source ≠ uav.source then t
  else { t with positions := moved same ⟨uav.lon, uav.lat⟩ t.positions }

/-- The track of the enemy with the id of `info`. -/
def enemyTrack (same : QPointF → QPointF → Bool) (info : UavInfo) (track : Option EnemyTrack) :
    BplaCall → Option EnemyTrack
  | .addFriendBpla _ => track
  | .addEnemyBpla uav tail _ =>
    if getExtendedId uav ≠ getExtendedId info then track
    else
      let t := track.elim { source := uav.source, positions := [⟨uav.lon, uav.lat⟩] }
        (EnemyTrack.update same uav)
      some (if uav.historical then t else { t with tail })
  | .onePointTimer => track.filter fun t => t.source ≠ 104
  | .removeBpla uav =>
    if info.uavId = uav.uavId ∧ info.historical = uav.historical then none else track

/-- The points of the tail that an enemy shows. -/
def EnemyTrack.shown (historical : Bool) (t : EnemyTrack) : List QPointF :=
  if historical then
    if isSingle t.source then t.positions.take 1 else recent TRACK_LENGTH t.positions
  else t.tail.map (fun point => ⟨point.y, point.x⟩) ++ t.positions.getLast?.toList

/-- The feature is at the last position of the track. -/
structure Tracks (historical : Bool) (bpla : EnemyBpla) (t : EnemyTrack) : Prop where
  source : bpla.m_sourceId = t.source
  style : bpla.m_styleName = getEnemyBplaStyleName t.source
  position : t.positions.getLast? = some bpla.m_position
  autoTail : bpla.m_autoTail = historical
  tailEnabled : bpla.m_tailEnabled = !isSingle t.source

structure ShowsEnemy (historical : Bool) (bpla : EnemyBpla) (t : EnemyTrack) : Prop
    extends Tracks historical bpla t where
  tail : bpla.m_tail = t.shown historical

variable {same : QPointF → QPointF → Bool} {s : BplaFeatures} {info uav : UavInfo}
  {bpla : FriendBpla} {enemy : EnemyBpla} {t : FriendTrack} {e : EnemyTrack} {point : QPointF}
  {positions : List QPointF}

/-! ### Friends -/

theorem appendPoint_recent (point : QPointF) (points : List QPointF) :
    appendPoint (recent TRACK_LENGTH points) point = recent TRACK_LENGTH (points ++ [point]) :=
  recent_recent_append TRACK_LENGTH points [point]

theorem appendPoint_nil (point : QPointF) :
    appendPoint [] point = recent TRACK_LENGTH [point] := by
  rw [appendPoint, recent, List.nil_append]

theorem tail_create (uav : UavInfo) :
    (BplaAbstract.create uav).m_tail = recent TRACK_LENGTH [⟨uav.lon, uav.lat⟩] := by
  rw [← appendPoint_nil, BplaAbstract.create, BplaAbstract.setPosition]
  simp only [Bool.and_self, if_true]

theorem showsFriend_create (uav : UavInfo) :
    ShowsFriend (BplaAbstract.create uav) { positions := [⟨uav.lon, uav.lat⟩] } where
  position := rfl
  tail := tail_create uav
  slices := (recent_of_length_le (Nat.zero_le _)).symm
  drawn := rfl

theorem ShowsFriend.setSlice (h : ShowsFriend bpla t) (slice : QPointF) :
    ShowsFriend (bpla.setSlice slice) { t with slices := t.slices ++ [slice] } := by
  refine ⟨h.position, h.tail, ?_, h.drawn⟩
  rw [BplaAbstract.setSlice]
  dsimp only
  rw [h.slices, appendPoint_recent]

theorem ShowsFriend.update (h : ShowsFriend bpla t) (same : QPointF → QPointF → Bool)
    (uav : UavInfo) :
    ShowsFriend (bpla.update same uav)
      { t with positions := moved same ⟨uav.lon, uav.lat⟩ t.positions } := by
  rw [BplaAbstract.update, moved, h.position, Option.any_some]
  by_cases hsame : same ⟨uav.lon, uav.lat⟩ bpla.m_position
  · rw [if_pos hsame, if_pos hsame]
    exact ⟨h.position, h.tail, h.slices, h.drawn⟩
  · rw [if_neg hsame, if_neg hsame]
    refine ⟨List.getLast?_concat, ?_, h.slices, h.drawn⟩
    dsimp only [BplaAbstract.setPosition]
    rw [if_pos h.drawn, h.tail, appendPoint_recent]

theorem showsFriend_add {track : Option FriendTrack}
    (h : Option.Rel ShowsFriend (s.m_friendBplaList.value (getExtendedId info)) track)
    (uav : UavInfo) :
    Option.Rel ShowsFriend
      ((addFriendBplaInternal same uav s).m_friendBplaList.value (getExtendedId info))
      (friendTrack same info track (.addFriendBpla uav)) := by
  rw [addFriendBplaInternal, friendTrack]
  dsimp only
  by_cases hkey : getExtendedId uav = getExtendedId info
  case neg =>
      rw [if_pos hkey]
      split
      · rwa [ObjectMap.value_update, if_neg hkey]
      split
      · rwa [ObjectMap.value_update, if_neg hkey]
      · exact h
  rw [if_neg (not_not_intro hkey)]
  by_cases hslices : uav.source = UAV_SLICES_SOURCE
  · rw [if_pos hslices, if_pos hslices, ObjectMap.value_update, if_pos hkey, hkey]
    generalize s.m_friendBplaList.value (getExtendedId info) = v at h ⊢
    cases h with
    | none => exact .some (showsFriend_create uav)
    | some hshows => exact .some (hshows.setSlice _)
  rw [if_neg hslices, if_neg hslices]
  by_cases hautopilot : uav.source = UAV_AUTOPILOT_SOURCE
  · rw [if_pos hautopilot, if_pos hautopilot, ObjectMap.value_update, if_pos hkey, hkey]
    generalize s.m_friendBplaList.value (getExtendedId info) = v at h ⊢
    cases h with
    | none => exact .some (showsFriend_create uav)
    | some hshows => exact .some (hshows.update same uav)
  · rw [if_neg hautopilot, if_neg hautopilot]
    exact h

/-! ### Enemies -/

theorem recent_one (point : QPointF) : recent TRACK_LENGTH [point] = [point] :=
  recent_of_length_le (by rw [List.length_singleton, TRACK_LENGTH]; omega)

theorem tracks_create (uav : UavInfo) :
    Tracks uav.historical (EnemyBpla.create uav)
      { source := uav.source, positions := [⟨uav.lon, uav.lat⟩] } where
  source := rfl
  style := rfl
  position := rfl
  autoTail := by
    rw [EnemyBpla.create]
    cases uav.historical <;> rfl
  tailEnabled := by
    rw [EnemyBpla.create, isSingle]
    by_cases hsingle : uav.source = UAV_SOLVER_SINGLE_1_SOURCE ∨
        uav.source = UAV_SOLVER_SINGLE_2_SOURCE
    · simp only [if_pos hsingle, decide_eq_true hsingle, Bool.not_true]
    · simp only [if_neg hsingle, decide_eq_false hsingle, Bool.not_false]
      rfl

/-- A replayed enemy has its first position for a tail, whatever its source. -/
theorem tail_createEnemy (uav : UavInfo) :
    (EnemyBpla.create uav).m_tail =
      EnemyTrack.shown true { source := uav.source, positions := [⟨uav.lon, uav.lat⟩] } := by
  have htail : (EnemyBpla.create uav).m_tail = [⟨uav.lon, uav.lat⟩] :=
    (tail_create uav).trans (recent_one _)
  rw [htail, EnemyTrack.shown, if_pos rfl, recent_one]
  split <;> rfl

theorem Tracks.setTail {historical : Bool} (h : Tracks historical enemy e)
    (hlive : historical = false) (tail tailStdDev : List QPointF) :
    ShowsEnemy historical (enemy.setTail tail tailStdDev) { e with tail } where
  source := h.source
  style := h.style
  position := h.position
  autoTail := h.autoTail
  tailEnabled := h.tailEnabled
  tail := by
    rw [EnemyTrack.shown, hlive, if_neg Bool.false_ne_true]
    dsimp only
    rw [h.position]
    rfl

theorem Tracks.update {historical : Bool} (h : Tracks historical enemy e)
    (same : QPointF → QPointF → Bool) (uav : UavInfo) :
    Tracks historical (enemy.update same uav) (e.update same uav) := by
  rw [EnemyBpla.update, EnemyTrack.update, h.source]
  by_cases hsource : e.source = uav.source
  case neg => rwa [if_pos hsource, if_pos hsource]
  rw [if_neg (not_not_intro hsource), if_neg (not_not_intro hsource), BplaAbstract.update, moved,
    h.position, Option.any_some]
  by_cases hsame : same ⟨uav.lon, uav.lat⟩ enemy.m_position
  · rw [if_pos hsame, if_pos hsame]
    exact ⟨h.source, h.style, h.position, h.autoTail, h.tailEnabled⟩
  · rw [if_neg hsame, if_neg hsame]
    exact ⟨h.source, h.style, List.getLast?_concat, h.autoTail, h.tailEnabled⟩

theorem ShowsEnemy.update (h : ShowsEnemy true enemy e) (same : QPointF → QPointF → Bool)
    (uav : UavInfo) : ShowsEnemy true (enemy.update same uav) (e.update same uav) := by
  refine ⟨h.toTracks.update same uav, ?_⟩
  rw [EnemyBpla.update, EnemyTrack.update, h.source]
  by_cases hsource : e.source = uav.source
  case neg =>
      rw [if_pos hsource, if_pos hsource]
      exact h.tail
  rw [if_neg (not_not_intro hsource), if_neg (not_not_intro hsource), BplaAbstract.update, moved,
    h.position, Option.any_some]
  by_cases hsame : same ⟨uav.lon, uav.lat⟩ enemy.m_position
  · rw [if_pos hsame, if_pos hsame]
    exact h.tail
  rw [if_neg hsame, if_neg hsame, EnemyTrack.shown, if_pos rfl]
  have htail := h.tail
  rw [EnemyTrack.shown, if_pos rfl] at htail
  dsimp only [BplaAbstract.setPosition]
  rw [h.tailEnabled, h.autoTail, Bool.and_true]
  cases hsingle : isSingle e.source with
  | true =>
      rw [hsingle, if_pos rfl] at htail
      have hne : e.positions ≠ [] := by
        intro hnil
        have hposition := h.position
        rw [hnil, List.getLast?_nil] at hposition
        cases hposition
      obtain ⟨first, rest, hpositions⟩ := List.exists_cons_of_ne_nil hne
      rw [Bool.not_true, if_neg Bool.false_ne_true, if_pos rfl, htail, hpositions]
      rfl
  | false =>
      rw [hsingle, if_neg Bool.false_ne_true] at htail
      rw [Bool.not_false, if_pos rfl, if_neg Bool.false_ne_true, htail, appendPoint_recent]

theorem showsEnemy_add {track : Option EnemyTrack}
    (h : Option.Rel (ShowsEnemy info.historical)
      (s.m_enemyBplaList.value (getExtendedId info)) track)
    (uav : UavInfo) (tail tailStdDev : List QPointF) :
    Option.Rel (ShowsEnemy info.historical)
      ((addEnemyBplaInternal same uav tail tailStdDev s).m_enemyBplaList.value (getExtendedId info))
      (enemyTrack same info track (.addEnemyBpla uav tail tailStdDev)) := by
  rw [addEnemyBplaInternal, enemyTrack]
  dsimp only
  rw [ObjectMap.value_update]
  by_cases hkey : getExtendedId uav = getExtendedId info
  case neg => rwa [if_pos hkey, if_neg hkey]
  rw [if_neg (not_not_intro hkey), if_pos hkey, hkey]
  have hhistorical : uav.historical = info.historical := historical_eq_of_getExtendedId hkey
  rw [← hhistorical] at h ⊢
  generalize s.m_enemyBplaList.value (getExtendedId info) = v at h ⊢
  cases hlive : uav.historical with
  | true =>
      rw [hlive] at h
      simp only [if_true]
      cases h with
      | none => exact .some ⟨hlive ▸ tracks_create uav, tail_createEnemy uav⟩
      | some hshows => exact .some (hshows.update same uav)
  | false =>
      rw [hlive] at h
      simp only [Bool.false_eq_true, if_false]
      cases h with
      | none => exact .some ((hlive ▸ tracks_create uav : Tracks false _ _).setTail rfl tail tailStdDev)
      | some hshows => exact .some ((hshows.toTracks.update same uav).setTail rfl tail tailStdDev)

/-! ### The timer of the single points -/

variable {m : ObjectMap String EnemyBpla} {blas : List Nat} {key : String} {bla : Nat}

/-- The style that the timer looks for. -/
def onePointStyle : String := getEnemyBplaStyleName 104

theorem value_removeOnePoint_of_ne (h : m.value key = some enemy)
    (hstyle : enemy.m_styleName ≠ onePointStyle) (bla : Nat) :
    (removeOnePoint m bla).value key = some enemy := by
  rw [removeOnePoint]
  split
  case isFalse => exact h
  case isTrue hbla =>
      obtain ⟨a, ha, henemy⟩ := ObjectMap.value_eq_some_iff.mp h
      rw [ObjectMap.value_forget, if_neg, h]
      intro hsame
      rw [ha] at hsame
      rw [← Option.some.inj hsame, henemy, Option.map_some] at hbla
      exact hstyle (Option.some.inj hbla)

theorem value_removeOnePoints_of_ne (h : m.value key = some enemy)
    (hstyle : enemy.m_styleName ≠ onePointStyle) :
    (blas.foldl removeOnePoint m).value key = some enemy := by
  induction blas generalizing m with
  | nil => exact h
  | cons bla blas ih => exact ih (value_removeOnePoint_of_ne h hstyle bla)

theorem value_removeOnePoints_of_eq_none (h : m.value key = none) :
    (blas.foldl removeOnePoint m).value key = none :=
  Option.not_isSome_iff_eq_none.mp fun hsome => by
    have hsome' := isSome_value_removeOnePoints hsome
    rw [h] at hsome'
    cases hsome'

theorem value_removeOnePoints_of_mem (hkey : m.addresses[key]? = some bla) (hmem : bla ∈ blas)
    (hbla : m.heap[bla]?.map EnemyBpla.m_styleName = some onePointStyle) :
    (blas.foldl removeOnePoint m).value key = none := by
  induction blas generalizing m with
  | nil => cases hmem
  | cons first blas ih =>
      rw [List.foldl_cons]
      by_cases hfirst : first = bla
      · refine value_removeOnePoints_of_eq_none ?_
        rw [removeOnePoint, hfirst, ← onePointStyle, if_pos hbla, ObjectMap.value_forget, if_pos hkey]
      · refine ih ?_ ((List.mem_cons.mp hmem).resolve_left (Ne.symm hfirst)) ?_
        · rw [removeOnePoint]
          split
          · exact m.single.getElem?_eraseValue.mpr ⟨hkey, Ne.symm hfirst⟩
          · exact hkey
        · rw [removeOnePoint]
          split <;> exact hbla

theorem value_removeAllonePointTimer (s : BplaFeatures) (key : String) :
    (removeAllonePointTimer s).m_enemyBplaList.value key =
      (s.m_enemyBplaList.value key).filter fun enemy => enemy.m_styleName ≠ onePointStyle := by
  rw [removeAllonePointTimer]
  dsimp only
  cases hvalue : s.m_enemyBplaList.value key with
  | none => rw [Option.filter_none, value_removeOnePoints_of_eq_none hvalue]
  | some enemy =>
      by_cases hstyle : enemy.m_styleName = onePointStyle
      · obtain ⟨bla, hbla, henemy⟩ := ObjectMap.value_eq_some_iff.mp hvalue
        rw [Option.filter_some, if_neg (by rw [decide_eq_true_iff]; exact not_not_intro hstyle)]
        refine value_removeOnePoints_of_mem hbla (QMap.mem_values_of_getElem? hbla) ?_
        rw [henemy, Option.map_some, hstyle]
      · rw [Option.filter_some, if_pos (decide_eq_true hstyle),
          value_removeOnePoints_of_ne hvalue hstyle]

theorem showsEnemy_onePointTimer {historical : Bool} {track : Option EnemyTrack}
    (h : Option.Rel (ShowsEnemy historical) (s.m_enemyBplaList.value key) track) :
    Option.Rel (ShowsEnemy historical) ((removeAllonePointTimer s).m_enemyBplaList.value key)
      (track.filter fun t => t.source ≠ 104) := by
  rw [value_removeAllonePointTimer]
  generalize s.m_enemyBplaList.value key = v at h ⊢
  cases h with
  | none => exact .none
  | @some enemy t hshows =>
      have hiff : enemy.m_styleName ≠ onePointStyle ↔ t.source ≠ 104 := by
        rw [hshows.style]
        refine not_congr ⟨fun heq => ?_, fun heq => by rw [heq]; rfl⟩
        exact QString.number_injective (String.append_right_inj _ |>.mp heq)
      rw [Option.filter_some, Option.filter_some]
      by_cases hsource : t.source = 104
      · rw [if_neg (by rw [decide_eq_true_iff, hiff]; exact not_not_intro hsource),
          if_neg (by rw [decide_eq_true_iff]; exact not_not_intro hsource)]
        exact .none
      · rw [if_pos (by rw [decide_eq_true_iff, hiff]; exact hsource), if_pos (decide_eq_true hsource)]
        exact .some hshows

/-! ### Any calls -/

/-- What is on both lists at the id of `info`. -/
structure ShowsTracks (s : BplaFeatures) (info : UavInfo) (friend : Option FriendTrack)
    (enemy : Option EnemyTrack) : Prop where
  known : s.Known
  friend : Option.Rel ShowsFriend (s.m_friendBplaList.value (getExtendedId info)) friend
  enemy : Option.Rel (ShowsEnemy info.historical)
    (s.m_enemyBplaList.value (getExtendedId info)) enemy

theorem ShowsTracks.run {friend : Option FriendTrack} {enemy : Option EnemyTrack}
    (h : ShowsTracks s info friend enemy) (call : BplaCall) :
    ShowsTracks (call.run same s) info (friendTrack same info friend call)
      (enemyTrack same info enemy call) := by
  refine ⟨h.known.run call, ?_, ?_⟩
  · cases call with
    | addFriendBpla uav => exact showsFriend_add h.friend uav
    | addEnemyBpla uav tail tailStdDev => exact h.friend
    | onePointTimer => exact h.friend
    | removeBpla uav =>
        rw [BplaCall.run, removeBplaInternal, removeSources_eq, friendTrack]
        dsimp only
        rw [h.known.value_takeAll Or.inl]
        split
        · exact .none
        · exact h.friend
  · cases call with
    | addFriendBpla uav =>
        have hkeeps : (addFriendBplaInternal same uav s).m_enemyBplaList = s.m_enemyBplaList := by
          rw [addFriendBplaInternal]
          dsimp only
          split
          · rfl
          split <;> rfl
        rw [BplaCall.run, hkeeps]
        exact h.enemy
    | addEnemyBpla uav tail tailStdDev => exact showsEnemy_add h.enemy uav tail tailStdDev
    | onePointTimer => exact showsEnemy_onePointTimer h.enemy
    | removeBpla uav =>
        rw [BplaCall.run, removeBplaInternal, removeSources_eq, enemyTrack]
        dsimp only
        rw [h.known.value_takeAll Or.inr]
        split
        · exact .none
        · exact h.enemy

/-- **After any calls the features are those of the tracks.** -/
theorem features_show_tracks (same : QPointF → QPointF → Bool) (calls : List BplaCall)
    (info : UavInfo) :
    let s := calls.foldl (BplaCall.run same) {}
    Option.Rel ShowsFriend (s.m_friendBplaList.value (getExtendedId info))
      (calls.foldl (friendTrack same info) none) ∧
    Option.Rel (ShowsEnemy info.historical) (s.m_enemyBplaList.value (getExtendedId info))
      (calls.foldl (enemyTrack same info) none) := by
  have hrun : ∀ (calls : List BplaCall) (s : BplaFeatures) (friend : Option FriendTrack)
      (enemy : Option EnemyTrack), ShowsTracks s info friend enemy →
      ShowsTracks (calls.foldl (BplaCall.run same) s) info
        (calls.foldl (friendTrack same info) friend) (calls.foldl (enemyTrack same info) enemy) := by
    intro calls
    induction calls with
    | nil => exact fun _ _ _ h => h
    | cons call calls ih => exact fun s friend enemy h => ih _ _ _ (h.run call)
  have hstart : ShowsTracks {} info none none := by
    refine ⟨BplaFeatures.known_start, ?_, ?_⟩
    · rw [ObjectMap.value_empty]
      exact .none
    · rw [ObjectMap.value_empty]
      exact .none
  exact ⟨(hrun calls {} none none hstart).friend, (hrun calls {} none none hstart).enemy⟩

end MapClient1

end ArmOd
