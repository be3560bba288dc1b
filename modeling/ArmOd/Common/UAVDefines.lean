import ArmOd.DbBla.DbUavManager
import ArmOd.Qt.QDataStream

/-!
# The position records on the wire

The stream operators and the copy constructors of `UAVDefines.h`, and the fields of a position that
`DbUavManager::addUavInfoToDb` consumes. An element of a container is read into a fresh record, so a
field that is not written arrives as the constructor sets it.
-/

namespace ArmOd

open DbUavManager

/-- What a constructor finds: the current time, and the memory of the two fields no constructor
sets. -/
structure Fresh where
  now : QDateTime
  altitudeGPS : Double
  aSpeed : Double
  deriving DecidableEq, Repr

namespace UAVPositionData

/-- The constructor. -/
def new (fresh : Fresh) : UAVPositionData :=
  { dateTime := fresh.now, altitudeGPS := fresh.altitudeGPS, aSpeed := fresh.aSpeed }

/-- The copy constructor. -/
def copy (fresh : Fresh) (data : UAVPositionData) : UAVPositionData :=
  { data with altitudeGPS := fresh.altitudeGPS, aSpeed := fresh.aSpeed }

/-- `operator<<`. -/
def put (object : UAVPositionData) : QByteArray :=
  [.quint16 object.boardID, .quint32 object.device, .double object.latitude,
    .double object.longitude,
    .double object.altitude, .double object.altitudeGPS, .double object.speed,
      .double object.aSpeed,
    .double object.course, .double object.frequency, .quint32 object.state,
      .qDateTime object.dateTime, .quint32 object.sourceType]

open QDataStream in
/-- `operator>>`. -/
def get (object : UAVPositionData) : Reader Item UAVPositionData := do
  let boardID ← readQuint16
  let device ← readQuint32
  let latitude ← readDouble
  let longitude ← readDouble
  let altitude ← readDouble
  let altitudeGPS ← readDouble
  let speed ← readDouble
  let aSpeed ← readDouble
  let course ← readDouble
  let frequency ← readDouble
  let state ← readQuint32
  let dateTime ← readQDateTime
  let sourceType ← readQuint32
  return { object with
    boardID, device, latitude, longitude, altitude, altitudeGPS, speed, aSpeed, course, frequency,
    state, dateTime, sourceType }

/-- What the two operators carry over to `object`: all but the standard deviations. -/
theorem carries (object : UAVPositionData) :
    Carries put (get object) fun data =>
      { data with latitudeStddev := object.latitudeStddev, longitudeStddev := object.longitudeStddev } :=
  fun _ _ => rfl

/-- `operator<<` of a `QVector`. -/
def putVector (positions : List UAVPositionData) : QByteArray := QDataStream.write put positions

/-- `operator>>` of a `QVector`. -/
def getVector (fresh : Fresh) : Reader Item (List UAVPositionData) :=
  QDataStream.readAll (get (new fresh))

/-- What arrives of a record. -/
def received (data : UAVPositionData) : UAVPositionData :=
  { data with latitudeStddev := 0, longitudeStddev := 0 }

theorem carries_vector (fresh : Fresh) : Carries putVector (getVector fresh) (List.map received) :=
  QDataStream.carries_container (carries (new fresh))

/-- A record with the fields alone that `addUavInfoToDb` consumes. -/
def consumed (data : UAVPositionData) : UAVPositionData :=
  { data with altitudeGPS := 0, aSpeed := 0 }

theorem addUavInfoToDb_consumed (positionData : UAVPositionData) :
    addUavInfoToDb positionData.consumed = addUavInfoToDb positionData := rfl

theorem received_consumed_iff {data : UAVPositionData} :
    data.received.consumed = data.consumed ↔ data.latitudeStddev = 0 ∧
      data.longitudeStddev = 0 := by
  simp only [received, consumed, mk.injEq, true_and, and_true, eq_comm]

end UAVPositionData

namespace UAVPositionDataEnemy

/-- `operator<<`. -/
def put (object : UAVPositionDataEnemy) : QByteArray :=
  [.double object.altitude, .double object.altitudeStdDev, .double object.speed,
    .double object.course, .int object.state,
    .double object.frequency, .qTime object.time, .qPointF object.latLonStdDev,
      .qPointF object.latLon]

open QDataStream in
/-- `operator>>`. -/
def get (object : UAVPositionDataEnemy) : Reader Item UAVPositionDataEnemy := do
  let altitude ← readDouble
  let altitudeStdDev ← readDouble
  let speed ← readDouble
  let course ← readDouble
  let state ← readInt
  let frequency ← readDouble
  let time ← readQTime
  let latLonStdDev ← readQPointF
  let latLon ← readQPointF
  return { object with
    altitude, altitudeStdDev, speed, course, state, frequency, time, latLonStdDev, latLon }

/-- What the two operators carry over to `object`: all but the source, which the receiver sets. -/
theorem carries (object : UAVPositionDataEnemy) : Carries put (get object) fun data =>
    { data with sourceType := object.sourceType } :=
  fun _ _ => rfl

/-- `operator<<` of a `QList`. -/
def putList (uavList : List UAVPositionDataEnemy) : QByteArray := QDataStream.write put uavList

/-- `operator>>` of a `QList`; `now` is the time of the constructors. -/
def getList (now : QTime) : Reader Item (List UAVPositionDataEnemy) :=
  QDataStream.readAll (get { time := now })

/-- A record with the fields alone that `sendEnemyUavPoints` consumes. -/
def consumed (data : UAVPositionDataEnemy) : UAVPositionDataEnemy := { data with sourceType := 0 }

theorem carries_list (now : QTime) : Carries putList (getList now) (List.map consumed) :=
  QDataStream.carries_container (carries { time := now })

theorem enemyPoints_consumed (now : QDateTime) (sourceType i : Nat) (tail tailStdDev : List QPointF)
    (uavList : List UAVPositionDataEnemy) :
    enemyPoints now sourceType i tail tailStdDev (uavList.map consumed) =
      enemyPoints now sourceType i tail tailStdDev uavList := by
  induction uavList generalizing i tail tailStdDev with
  | nil => rfl
  | cons uav rest ih => simp only [List.map_cons, enemyPoints, ih, List.isEmpty_map, consumed]

end UAVPositionDataEnemy

/-! ### Round trips -/

/-- Reading back what was written takes the whole stream and gives as many records, each with the
fields the receiver consumes. -/
def RoundTrips {α : Type} (put : List α → QByteArray) (get : Reader Item (List α))
    (consumed : α → α) (records : List α) : Prop :=
  ∃ back, get.run (put records) = some (back, []) ∧ back.map consumed = records.map consumed

theorem roundTrips_of_carries {α : Type} {put : List α → QByteArray} {get : Reader Item (List α)}
    {f consumed : α → α}
    (h : Carries put get (List.map f)) (records : List α) :
    RoundTrips put get consumed records ↔ ∀ data ∈ records, consumed (f data) = consumed data := by
  have hmap : (records.map f).map consumed = records.map consumed ↔
    ∀ data ∈ records, consumed (f data) = consumed data := by
    rw [List.map_map, List.map_inj_left]
    rfl
  rw [RoundTrips, h.run, ← hmap]
  constructor
  · intro hback
    obtain ⟨back, hrun, heq⟩ := hback
    cases hrun
    exact heq
  · exact fun heq => ⟨_, rfl, heq⟩

/-- **Position records on the wire.** Both containers come back with all that is consumed of them if
and only if no position has a standard deviation; and the receiver sees nothing else of them. -/
theorem roundTrips_iff (fresh : Fresh) (positions : List UAVPositionData)
    (uavList : List UAVPositionDataEnemy) :
    ((RoundTrips UAVPositionData.putVector (UAVPositionData.getVector fresh)
      UAVPositionData.consumed positions ∧
      RoundTrips UAVPositionDataEnemy.putList (UAVPositionDataEnemy.getList fresh.now.time)
        UAVPositionDataEnemy.consumed uavList) ↔
      ∀ data ∈ positions, data.latitudeStddev = 0 ∧ data.longitudeStddev = 0) ∧
    (∀ data ∈ positions, addUavInfoToDb data.consumed = addUavInfoToDb data) ∧
    ∀ now sourceType i tail tailStdDev,
      enemyPoints now sourceType i tail tailStdDev
        (uavList.map UAVPositionDataEnemy.consumed) =
        enemyPoints now sourceType i tail tailStdDev uavList := by
  refine ⟨?_, fun data _ => UAVPositionData.addUavInfoToDb_consumed data,
    fun now sourceType i tail tailStdDev =>
      UAVPositionDataEnemy.enemyPoints_consumed now sourceType i tail tailStdDev uavList⟩
  rw [roundTrips_of_carries (UAVPositionData.carries_vector fresh),
    roundTrips_of_carries (UAVPositionDataEnemy.carries_list fresh.now.time)]
  simp only [UAVPositionData.received_consumed_iff]
  exact and_iff_left fun data _ => rfl

/-- A position that is known to five metres arrives as an exact one. -/
theorem not_roundTrips_stddev :
    ¬ RoundTrips UAVPositionData.putVector (UAVPositionData.getVector ⟨⟨0, 0⟩, 0, 0⟩)
      UAVPositionData.consumed
      [{ boardID := 7, latitudeStddev := 5, longitudeStddev := 5, dateTime := ⟨0, 0⟩ }] := by
  rw [roundTrips_of_carries (UAVPositionData.carries_vector ⟨⟨0, 0⟩, 0, 0⟩)]
  decide

end ArmOd
