import ArmOd.Adsb.PlanesClient
import ArmOd.Base.Recent
import ArmOd.Base.Run
import ArmOd.Map.Shapes

/-!
# The aircraft on the map

From a message of the receiver to what is drawn: the client reports the aircraft of a message, the
server passes the report on, and the map moves the feature of the aircraft or makes one. A feature
starts its timer when it is updated, not when it is made, and leaves the map when the timer goes
off: an aircraft that was seen once and never again stays where it was.

Timers are told by the time they go off at. A timer that is due goes off before the next message.
-/

namespace ArmOd

namespace QDataStream

/-- `>>` of a value that may not be there: a read past the end gives the default. -/
def readOr {α : Type} (read : Reader Item α) (default : α) (data : QByteArray) : α × QByteArray :=
  (read.run data).getD (default, [])

end QDataStream

namespace MapFeature

def LIFETIME_ADSB : Nat := 60000
def ADSB_TRACK_LENGTH : Nat := 20

structure ADSBPlaneFeature where
  m_position : QPointF
  m_marker : MapShape QPointF
  /-- The points of the tail, which is never drawn. -/
  m_tail : List QPointF := []
  /-- When the timer goes off. -/
  timer : Option Nat := none

namespace ADSBPlaneFeature

def create (pos : QPointF) : ADSBPlaneFeature :=
  { m_position := pos, m_marker := { attributes := pos } }

def setPosition (pos : QPointF) (p : ADSBPlaneFeature) : ADSBPlaneFeature :=
  { p with m_position := pos, m_marker := { p.m_marker with attributes := pos } }

def update (now : Nat) (pos : QPointF) (p : ADSBPlaneFeature) : ADSBPlaneFeature :=
  { p.setPosition pos with
    m_tail := recent ADSB_TRACK_LENGTH (p.m_tail ++ [pos])
    timer := some (now + LIFETIME_ADSB) }

def updateMap (p : ADSBPlaneFeature) : ADSBPlaneFeature :=
  { p with m_marker := p.m_marker.updateMap }

end ADSBPlaneFeature

end MapFeature

namespace MapClient1

open MapFeature

structure AdsbFeatures where
  m_adsbList : QMap String ADSBPlaneFeature := ∅

/-- None of the comparisons that leave `setAdsbData` holds. -/
def isPlace (lon lat : Double) : Bool :=
  !(Double.lt 180 lon || Double.lt lon (.fin (-180))) &&
    !(Double.lt 90 lat || Double.lt lat (.fin (-90))) && !(lat.isNaN || lon.isNaN)

def setAdsbData (now : Nat) (data : QByteArray) (s : AdsbFeatures) : AdsbFeatures :=
  let (id, data) := QDataStream.readOr QDataStream.readQString "" data
  let (lon, data) := QDataStream.readOr QDataStream.readDouble 0 data
  let (lat, _) := QDataStream.readOr QDataStream.readDouble 0 data
  match s.m_adsbList[id]? with
  | some p =>
    if !isPlace lon lat then s
    else { s with m_adsbList := s.m_adsbList.insert id (p.update now ⟨lon, lat⟩).updateMap }
  | none =>
    if !isPlace lon lat then s
    else { s with
      m_adsbList := s.m_adsbList.insert id (ADSBPlaneFeature.create ⟨lon, lat⟩).updateMap }

/-- `removeFeature` and `removeAdsb` of every feature whose timer has gone off. -/
def removeAdsb (now : Nat) (s : AdsbFeatures) : AdsbFeatures :=
  { s with m_adsbList := s.m_adsbList.filter fun _ p => p.timer.all fun at_ => now < at_ }

/-- A message of the receiver at a time, through the client to the map. -/
def adsbMessage (lib : SbsConversions) (s : PlanesClient × AdsbFeatures) (message : Nat × Text) :
    PlanesClient × AdsbFeatures :=
  let parsed := s.1.ParseMessage lib message.2
  let features := removeAdsb message.1 s.2
  (parsed.1, parsed.2.1.elim features fun data => setAdsbData message.1 data features)

/-! ### What was seen -/

/-- An aircraft at a place and a time. -/
structure Sighting where
  id : String
  position : QPointF
  time : Nat

/-- What a message says about an aircraft's place: a message of sixteen fields and more, of the type
of the positions, with a valid date, and a place in the ranges of the coordinates. -/
def sighting (lib : SbsConversions) (message : Nat × Text) : Option Sighting :=
  let fields := Text.split [','] message.2
  let lon := PlanesClient.value lib (fun x => x) (fields.getD 15 [])
  let lat := PlanesClient.value lib (fun x => x) (fields.getD 14 [])
  if 16 ≤ fields.length ∧ fields.getD 0 [] = "MSG".toList ∧
      lib.isValid (fields.getD 8 []) (fields.getD 9 []) ∧ isPlace lon lat then
    some { id := String.ofList (fields.getD 4 []), position := ⟨lon, lat⟩, time := message.1 }
  else none

/-- A visit is over a minute after it was last seen, if it was seen more than once. -/
def isOver (now : Nat) (visit : List Sighting) : Bool :=
  decide (2 ≤ visit.length) && visit.getLast?.any fun last => last.time + LIFETIME_ADSB ≤ now

/-- The visit of every aircraft, with the sightings since it came. -/
abbrev Visits := String → List Sighting

def seen (lib : SbsConversions) (visits : Visits) (message : Nat × Text) : Visits := fun id =>
  let visit := if isOver message.1 (visits id) then [] else visits id
  (sighting lib message).elim visit fun s => if s.id = id then visit ++ [s] else visit

/-- The feature of a visit: where the aircraft was last seen, the way it took since the second
sighting, and the timer that only a second sighting starts. -/
def feature (visit : List Sighting) : Option ADSBPlaneFeature :=
  visit.getLast?.map fun last =>
    { m_position := last.position
      m_marker := { attributes := last.position, onMap := some last.position }
      m_tail := recent ADSB_TRACK_LENGTH (visit.tail.map Sighting.position)
      timer := if 2 ≤ visit.length then some (last.time + LIFETIME_ADSB) else none }

/-- The features are those of the visits. -/
def ShowsVisits (s : AdsbFeatures) (visits : Visits) : Prop :=
  ∀ id : String, s.m_adsbList[id]? = feature (visits id)

variable {lib : SbsConversions} {now : Nat} {s : AdsbFeatures} {visits : Visits}
  {visit : List Sighting} {id : String}

/-! ### The map -/

/-- The feature that is updated or made. -/
def placed (now : Nat) (pos : QPointF) (p : Option ADSBPlaneFeature) : ADSBPlaneFeature :=
  (p.elim (ADSBPlaneFeature.create pos) (ADSBPlaneFeature.update now pos)).updateMap

theorem getElem?_setAdsbData (now : Nat) (info : PlaneInfo) (s : AdsbFeatures) (id : String) :
    (setAdsbData now (PlanesClient.dataToSend info) s).m_adsbList[id]? =
      if isPlace info.lon_ info.lat_ ∧ String.ofList info.id_ = id then
        some (placed now ⟨info.lon_, info.lat_⟩ s.m_adsbList[id]?)
      else s.m_adsbList[id]? := by
  have hset : setAdsbData now (PlanesClient.dataToSend info) s =
      if isPlace info.lon_ info.lat_ then
        ⟨s.m_adsbList.insert (String.ofList info.id_)
          (placed now ⟨info.lon_, info.lat_⟩ s.m_adsbList[String.ofList info.id_]?)⟩
      else s := by
    simp only [setAdsbData, PlanesClient.dataToSend, QDataStream.readOr, QDataStream.readQString,
      QDataStream.readDouble, QDataStream.next, StateT.run, Option.map_some, Option.getD_some]
    by_cases hplace : isPlace info.lon_ info.lat_
    · cases s.m_adsbList[String.ofList info.id_]? <;> simp only [hplace] <;> rfl
    · rw [Bool.not_eq_true] at hplace
      cases s.m_adsbList[String.ofList info.id_]? <;> simp only [hplace] <;> rfl
  rw [hset]
  by_cases hplace : isPlace info.lon_ info.lat_
  · rw [if_pos hplace, QMap.getElem?_insert]
    by_cases hid : String.ofList info.id_ = id
    · rw [if_pos hid, if_pos ⟨hplace, hid⟩, hid]
    · rw [if_neg hid, if_neg fun h => hid h.2]
  · rw [if_neg hplace, if_neg fun h => hplace h.1]

theorem getElem?_removeAdsb (now : Nat) (s : AdsbFeatures) (id : String) :
    (removeAdsb now s).m_adsbList[id]? =
      s.m_adsbList[id]?.filter fun p => p.timer.all fun at_ => now < at_ := by
  rw [removeAdsb, Std.TreeMap.getElem?_filter']

/-! ### Visits -/

theorem feature_concat (visit : List Sighting) (sight : Sighting) :
    feature (visit ++ [sight]) =
      some (placed sight.time sight.position (feature visit)) := by
  rw [feature, List.getLast?_concat, Option.map_some]
  cases visit with
  | nil => rfl
  | cons first rest =>
      have hlast : (first :: rest).getLast? = some ((first :: rest).getLast (List.cons_ne_nil _ _)) :=
        List.getLast?_eq_some_getLast _
      have htail : recent ADSB_TRACK_LENGTH
          (((first :: rest) ++ [sight]).tail.map Sighting.position) =
          recent ADSB_TRACK_LENGTH (recent ADSB_TRACK_LENGTH (rest.map Sighting.position) ++
            [sight.position]) := by
        rw [recent_recent_append, List.cons_append, List.tail_cons, List.map_append,
          List.map_singleton]
      rw [feature, hlast, Option.map_some, placed, Option.elim_some, htail, if_pos]
      · rfl
      · rw [List.length_append, List.length_cons, List.length_singleton]
        omega

/-- The timer of a feature goes off when its visit is over. -/
theorem filter_feature (now : Nat) (visit : List Sighting) :
    ((feature visit).filter fun p => p.timer.all fun at_ => now < at_) =
      feature (if isOver now visit then [] else visit) := by
  cases hlast : visit.getLast? with
  | none =>
      rw [List.getLast?_eq_none_iff.mp hlast]
      rfl
  | some last =>
      have hfeature : ∃ p, feature visit = some p ∧
          p.timer = if 2 ≤ visit.length then some (last.time + LIFETIME_ADSB) else none := by
        rw [feature, hlast]
        exact ⟨_, rfl, rfl⟩
      obtain ⟨p, hp, htimer⟩ := hfeature
      have hover : isOver now visit = !p.timer.all fun at_ => now < at_ := by
        rw [isOver, hlast, htimer, Option.any_some]
        by_cases htwo : 2 ≤ visit.length
        · rw [if_pos htwo, decide_eq_true htwo, Bool.true_and, Option.all_some]
          by_cases hnow : now < last.time + LIFETIME_ADSB
          · rw [decide_eq_true hnow, decide_eq_false (by omega)]
            rfl
          · rw [decide_eq_false hnow, decide_eq_true (by omega)]
            rfl
        · rw [if_neg htwo, decide_eq_false htwo, Bool.false_and]
          rfl
      rw [hover, hp, Option.filter_some]
      cases p.timer.all fun at_ => decide (now < at_) with
      | true => exact hp.symm
      | false => rfl

theorem ShowsVisits.removeAdsb (h : ShowsVisits s visits) (now : Nat) :
    ShowsVisits (removeAdsb now s)
      fun id => if isOver now (visits id) then [] else visits id := by
  intro id
  rw [getElem?_removeAdsb, h id, filter_feature]

/-! ### Messages -/

theorem payload_ParseMessage (lib : SbsConversions) (client : PlanesClient) (msg : Text) :
    (client.ParseMessage lib msg).2.1 =
      if 16 ≤ (Text.split [','] msg).length ∧
          (Text.split [','] msg).getD 0 [] = "MSG".toList then
        PlanesClient.report lib (Text.split [','] msg)
      else none := by
  by_cases hsize : 16 ≤ (Text.split [','] msg).length
  case neg =>
      rw [if_neg fun h => hsize h.1, PlanesClient.ParseMessage]
      dsimp only
      rw [if_pos (not_le.mp hsize)]
  by_cases htype : (Text.split [','] msg).getD 0 [] = "MSG".toList
  · rw [if_pos ⟨hsize, htype⟩, PlanesClient.emitted_ParseMessage client hsize htype]
  · rw [if_neg fun h => htype h.2, PlanesClient.ParseMessage]
    dsimp only
    rw [if_neg (not_lt.mpr hsize), if_pos htype]

theorem isDouble_of_isPlace {lon lat : Text}
    (h : isPlace (PlanesClient.value lib (fun x => x) lon)
      (PlanesClient.value lib (fun x => x) lat)) : lib.isDouble lat := by
  by_contra hnot
  rw [PlanesClient.value, PlanesClient.value, if_neg hnot, isPlace, Double.isNaN, Bool.true_or,
    Bool.not_true, Bool.and_false] at h
  exact Bool.false_ne_true h

theorem report_sighting (lib : SbsConversions) (message : Nat × Text) :
    let fields := Text.split [','] message.2
    let reported := if 16 ≤ fields.length ∧ fields.getD 0 [] = "MSG".toList then
      PlanesClient.report lib fields else none
    (∃ info, reported = some (PlanesClient.dataToSend info) ∧
      sighting lib message = if isPlace info.lon_ info.lat_ then
        some ⟨String.ofList info.id_, ⟨info.lon_, info.lat_⟩, message.1⟩ else none) ∨
    (reported = none ∧ sighting lib message = none) := by
  dsimp only
  by_cases hmsg : 16 ≤ (Text.split [','] message.2).length ∧
      (Text.split [','] message.2).getD 0 [] = "MSG".toList
  case neg =>
      refine Or.inr ⟨if_neg hmsg, ?_⟩
      rw [sighting]
      exact if_neg fun h => hmsg ⟨h.1, h.2.1⟩
  rw [if_pos hmsg, PlanesClient.report]
  by_cases hvalid : lib.isValid ((Text.split [','] message.2).getD 8 [])
      ((Text.split [','] message.2).getD 9 [])
  case neg =>
      refine Or.inr ⟨if_neg fun h => hvalid (Bool.and_eq_true_iff.mp h).1, ?_⟩
      rw [sighting]
      exact if_neg fun h => hvalid h.2.2.1
  by_cases hdouble : [11, 14, 15, 12].any fun i =>
      lib.isDouble ((Text.split [','] message.2).getD i [])
  case neg =>
      refine Or.inr ⟨if_neg fun h => hdouble (Bool.and_eq_true_iff.mp h).2, ?_⟩
      rw [sighting]
      refine if_neg fun h => hdouble (List.any_eq_true.mpr ⟨14, by decide, ?_⟩)
      exact isDouble_of_isPlace h.2.2.2
  · refine Or.inl ⟨_, if_pos (Bool.and_eq_true_iff.mpr ⟨hvalid, hdouble⟩), ?_⟩
    rw [sighting]
    exact if_congr ⟨fun h => h.2.2.2, fun h => ⟨hmsg.1, hmsg.2, hvalid, h⟩⟩ rfl rfl

theorem ShowsVisits.adsbMessage (h : ShowsVisits s visits) (client : PlanesClient)
    (message : Nat × Text) :
    ShowsVisits (adsbMessage lib (client, s) message).2 (seen lib visits message) := by
  have hrest := h.removeAdsb message.1
  intro id
  rw [MapClient1.adsbMessage, seen]
  dsimp only
  rw [payload_ParseMessage]
  obtain ⟨info, hinfo, hsight⟩ | ⟨hnone, hsight⟩ := report_sighting lib message
  · rw [hinfo, hsight, Option.elim_some, getElem?_setAdsbData, hrest id]
    by_cases hplace : isPlace info.lon_ info.lat_
    case neg => rw [if_neg fun h => hplace h.1, if_neg hplace, Option.elim_none]
    rw [if_pos hplace, Option.elim_some]
    by_cases hid : String.ofList info.id_ = id
    · rw [if_pos ⟨hplace, hid⟩, if_pos hid, feature_concat]
    · rw [if_neg fun h => hid h.2, if_neg hid]
  · rw [hnone, hsight, Option.elim_none, Option.elim_none, hrest id]

theorem showsVisits_start : ShowsVisits {} fun _ => [] := fun _ =>
  Std.TreeMap.getElem?_eq_none Std.TreeMap.not_mem_emptyc

/-- **Over any messages the map shows the aircraft of the visits that are not over, each where it was
last seen.** The feature keeps the last of its places since the second sighting, and draws none. -/
theorem adsbRun_shows (lib : SbsConversions) (messages : List (Nat × Text)) (now : Nat) :
    ShowsVisits (removeAdsb now (messages.foldl (adsbMessage lib) (.new, {})).2)
      fun id => if isOver now (messages.foldl (seen lib) (fun _ => []) id) then []
        else messages.foldl (seen lib) (fun _ => []) id := by
  have hrun : ∀ (messages : List (Nat × Text)) (client : PlanesClient) (s : AdsbFeatures)
      (visits : Visits), ShowsVisits s visits →
      ShowsVisits (messages.foldl (adsbMessage lib) (client, s)).2
        (messages.foldl (seen lib) visits) := by
    intro messages
    induction messages with
    | nil => exact fun _ _ _ h => h
    | cons message messages ih =>
        exact fun client s visits h => ih _ _ _ (h.adsbMessage client message)
  exact (hrun messages .new {} _ showsVisits_start).removeAdsb now

end MapClient1

end ArmOd
