import ArmOd.Map.AdsbFeatures

/-!
# The hyperbolas on the map

The map keeps the features of the hyperbolas and uses them again: a message moves the features it
has, makes the ones that are missing and hides the ones that are left over, and five seconds after
the last message all of them are hidden. A feature is made with the colour of its message and keeps
it, whatever the colour of the messages that use it later.
-/

namespace ArmOd

namespace MapFeature

/-- `Pw::Gis::Path`, with its tool tip and the colour of its style. -/
structure Path where
  points : List QPointF
  toolTip : QTime
  strokeColor : Option String
  deriving DecidableEq, Repr

structure Hyperbole where
  m_timeMeasure : QTime
  m_path : MapShape Path

namespace Hyperbole

/-- `setPolyline`: the points have their coordinates the other way round. -/
def setPolyline (polyline : List QPointF) : List QPointF :=
  polyline.map fun point => ⟨point.y, point.x⟩

def updatePath (polyline : List QPointF) (timeMeasure : QTime) (h : Hyperbole) : Hyperbole :=
  { h with
    m_path := MapShape.updateMap
      { h.m_path with
        attributes := { h.m_path.attributes with
          points := setPolyline polyline, toolTip := timeMeasure } } }

/-- The feature that `createHyperbole` makes; a colour that is not valid makes no style. -/
def create (polyline : List QPointF) (timeMeasure : QTime) (color : Option String) : Hyperbole :=
  updatePath polyline timeMeasure
    { m_timeMeasure := timeMeasure
      m_path := { attributes :=
        { points := setPolyline polyline, toolTip := timeMeasure, strokeColor := color } } }

def removeFromMap (h : Hyperbole) : Hyperbole := { h with m_path := h.m_path.removeFromMap }

end Hyperbole

end MapFeature

namespace MapClient1

open MapFeature

def HYPERBOLE_LIFE_TIME : Nat := 5000

structure Hyperboles where
  m_hyperboleList : List Hyperbole := []
  /-- When the timer goes off for the first time since it was started. -/
  m_hyperboleTimer : Option Nat := none

/-- The time and the paths of a message, behind a frequency that nobody reads. -/
def readHyperboles (data : QByteArray) : QTime × List (List QPointF) :=
  let (_, data) := QDataStream.readOr QDataStream.readDouble 0 data
  let (time, data) := QDataStream.readOr QDataStream.readQTime 0 data
  let (list, _) :=
    QDataStream.readOr (QDataStream.readAll (QDataStream.readAll QDataStream.readQPointF)) [] data
  (time, list)

/-- The loops over the features and the paths, place by place. -/
def showPaths (time : QTime) (color : Option String) :
    List Hyperbole → List (List QPointF) → List Hyperbole
  | features, [] => features.map Hyperbole.removeFromMap
  | [], path :: list => Hyperbole.create path time color :: showPaths time color [] list
  | h :: features, path :: list => h.updatePath path time :: showPaths time color features list

def removeAllHyperbole (s : Hyperboles) : Hyperboles :=
  { s with m_hyperboleList := s.m_hyperboleList.map Hyperbole.removeFromMap }

/-- The timer goes off again and again, and finds nothing to hide after the first time. -/
def hyperboleTimeout (now : Nat) (s : Hyperboles) : Hyperboles :=
  if s.m_hyperboleTimer.any fun at_ => at_ ≤ now then removeAllHyperbole s else s

/-- A message: when it came, what it holds, and the colour it is to be drawn with. -/
structure HyperboleMessage where
  now : Nat
  data : QByteArray
  color : Option String := none

def HyperboleMessage.time (m : HyperboleMessage) : QTime := (readHyperboles m.data).1

def HyperboleMessage.list (m : HyperboleMessage) : List (List QPointF) := (readHyperboles m.data).2

def addHyperboleInternal (m : HyperboleMessage) (s : Hyperboles) : Hyperboles :=
  { m_hyperboleList := showPaths m.time m.color s.m_hyperboleList m.list
    m_hyperboleTimer := some (m.now + HYPERBOLE_LIFE_TIME) }

def hyperboleMessage (s : Hyperboles) (m : HyperboleMessage) : Hyperboles :=
  addHyperboleInternal m (hyperboleTimeout m.now s)

/-- What there is to see. -/
def visible (s : Hyperboles) : List Path := s.m_hyperboleList.filterMap fun h => h.m_path.onMap

/-- The colours of the features. -/
def colors (features : List Hyperbole) : List (Option String) :=
  features.map fun h => h.m_path.attributes.strokeColor

/-- The message that the feature at a place was made for: the first with so many paths. -/
def maker (messages : List HyperboleMessage) (i : Nat) : Option HyperboleMessage :=
  messages.find? fun m => i < m.list.length

/-- The paths of a message in the features that are there. -/
def drawn (messages : List HyperboleMessage) (last : HyperboleMessage) : List Path :=
  last.list.mapIdx fun i path =>
    { points := Hyperbole.setPolyline path
      toolTip := last.time
      strokeColor := (maker messages i).bind HyperboleMessage.color }

variable {features : List Hyperbole} {list : List (List QPointF)} {time : QTime}
  {color : Option String} {s : Hyperboles} {messages : List HyperboleMessage} {m : HyperboleMessage}

/-! ### One message -/

@[simp] theorem color_removeFromMap (h : Hyperbole) :
    h.removeFromMap.m_path.attributes = h.m_path.attributes := rfl

theorem colors_map_removeFromMap (features : List Hyperbole) :
    colors (features.map Hyperbole.removeFromMap) = colors features := by
  rw [colors, List.map_map]
  rfl

theorem visible_map_removeFromMap (features : List Hyperbole) :
    (features.map Hyperbole.removeFromMap).filterMap (fun h => h.m_path.onMap) = [] := by
  rw [List.filterMap_map]
  exact List.filterMap_eq_nil_iff.mpr fun _ _ => rfl

theorem colors_showPaths (features : List Hyperbole) (list : List (List QPointF)) :
    colors (showPaths time color features list) =
      colors features ++ List.replicate (list.length - features.length) color := by
  induction list generalizing features with
  | nil =>
      have hnone : ([] : List (List QPointF)).length - features.length = 0 := Nat.zero_sub _
      rw [showPaths, colors_map_removeFromMap, hnone, List.replicate_zero, List.append_nil]
  | cons path list ih =>
      cases features with
      | nil =>
          rw [showPaths, colors, List.map_cons, ← colors, ih, List.length_cons, List.length_nil,
            Nat.sub_zero, Nat.sub_zero, List.replicate_succ]
          rfl
      | cons h features =>
          rw [showPaths, colors, List.map_cons, ← colors, ih, List.length_cons, List.length_cons,
            Nat.succ_sub_succ]
          rfl

/-- The first features show the paths, each in its colour, and the others nothing. -/
theorem visible_showPaths (features : List Hyperbole) (list : List (List QPointF)) :
    (showPaths time color features list).filterMap (fun h => h.m_path.onMap) =
      List.zipWith (fun path color => (⟨Hyperbole.setPolyline path, time, color⟩ : Path)) list
        (colors (showPaths time color features list)) := by
  induction list generalizing features with
  | nil =>
      rw [showPaths, visible_map_removeFromMap, List.zipWith_nil_left]
  | cons path list ih =>
      cases features with
      | nil =>
          rw [showPaths, colors, List.map_cons, ← colors, List.zipWith_cons_cons, ← ih]
          rfl
      | cons h features =>
          rw [showPaths, colors, List.map_cons, ← colors, List.zipWith_cons_cons, ← ih]
          rfl

/-! ### Any messages -/

/-- Every feature has the colour of the message it was made for. -/
def Pool (messages : List HyperboleMessage) (s : Hyperboles) : Prop :=
  ∀ i : Nat, (colors s.m_hyperboleList)[i]? = (maker messages i).map HyperboleMessage.color

theorem pool_start : Pool [] {} := fun _ => rfl

theorem Pool.timeout (h : Pool messages s) (now : Nat) :
    Pool messages (hyperboleTimeout now s) := by
  rw [hyperboleTimeout]
  split
  · intro i
    rw [removeAllHyperbole]
    dsimp only
    rw [colors_map_removeFromMap, h i]
  · exact h

theorem Pool.addHyperboleInternal (h : Pool messages s) (m : HyperboleMessage) :
    Pool (messages ++ [m]) (addHyperboleInternal m s) := by
  intro i
  have hi := h i
  rw [MapClient1.addHyperboleInternal]
  dsimp only
  rw [colors_showPaths, maker, List.find?_append, ← maker, List.getElem?_append]
  have hlength : (colors s.m_hyperboleList).length = s.m_hyperboleList.length := List.length_map _
  by_cases hold : i < (colors s.m_hyperboleList).length
  · rw [if_pos hold, hi]
    rw [List.getElem?_eq_getElem hold] at hi
    obtain ⟨first, hfirst, -⟩ := Option.map_eq_some_iff.mp hi.symm
    rw [hfirst, Option.some_or]
  · rw [List.getElem?_eq_none (not_lt.mp hold)] at hi
    rw [if_neg hold, Option.map_eq_none_iff.mp hi.symm, Option.none_or, List.getElem?_replicate,
      List.find?_singleton]
    rw [hlength] at hold ⊢
    by_cases hnew : i < m.list.length
    · rw [if_pos (by omega), if_pos (decide_eq_true hnew), Option.map_some]
    · rw [if_neg (by omega), if_neg (by rw [decide_eq_true_iff]; exact hnew), Option.map_none]

theorem Pool.run (h : Pool messages s) (more : List HyperboleMessage) :
    Pool (messages ++ more) (more.foldl hyperboleMessage s) := by
  induction more generalizing messages s with
  | nil => rwa [List.append_nil]
  | cons m more ih =>
      have hm := ih ((h.timeout m.now).addHyperboleInternal m)
      rwa [List.append_assoc, List.singleton_append] at hm

theorem visible_of_pool (h : Pool messages s) (hm : m ∈ messages)
    (hs : visible s = List.zipWith (fun path color => (⟨Hyperbole.setPolyline path, m.time, color⟩ :
      Path)) m.list (colors s.m_hyperboleList)) : visible s = drawn messages m := by
  rw [hs, drawn]
  refine List.ext_getElem? fun i => ?_
  rw [List.getElem?_zipWith, List.getElem?_mapIdx, h i]
  by_cases hi : i < m.list.length
  · have hmaker : (maker messages i).isSome :=
      List.find?_isSome.mpr ⟨m, hm, decide_eq_true hi⟩
    obtain ⟨first, hfirst⟩ := Option.isSome_iff_exists.mp hmaker
    rw [hfirst, List.getElem?_eq_getElem hi]
    rfl
  · rw [List.getElem?_eq_none (not_lt.mp hi)]
    rfl

/-- **What there is to see is the last message, for five seconds**: its paths, its time, and the
colours of the messages that the features were made for. -/
theorem hyperboles_visible (messages : List HyperboleMessage) (now : Nat) :
    visible (hyperboleTimeout now (messages.foldl hyperboleMessage {})) =
      messages.getLast?.elim [] fun last =>
        if last.now + HYPERBOLE_LIFE_TIME ≤ now then [] else drawn messages last := by
  induction messages using List.reverseRecOn with
  | nil => rfl
  | append_singleton messages m =>
      have hpool := (pool_start.run messages).timeout m.now
      rw [List.nil_append] at hpool
      have hm := hpool.addHyperboleInternal m
      have htimer (s : Hyperboles) : ((addHyperboleInternal m s).m_hyperboleTimer.any fun at_ =>
          at_ ≤ now) = decide (m.now + HYPERBOLE_LIFE_TIME ≤ now) := rfl
      rw [List.getLast?_concat, Option.elim_some, List.foldl_concat, hyperboleMessage,
        hyperboleTimeout, htimer]
      by_cases hover : m.now + HYPERBOLE_LIFE_TIME ≤ now
      · rw [if_pos hover, if_pos (decide_eq_true hover), visible, removeAllHyperbole]
        exact visible_map_removeFromMap _
      · rw [if_neg hover, if_neg (by rwa [decide_eq_true_iff])]
        exact visible_of_pool hm List.mem_concat_self (visible_showPaths _ _)

end MapClient1

end ArmOd
