import ArmOd.Tcp.TcpKTRCoder

/-!
# Telemetry of a board through TcpManager

A position frame of a board passes from `TcpKTRCoder::encode` through
`TcpManager::onMessageReceived` to the RPC consumer. On the way it is copied into a vector, written,
read, copied out of the vector, given the ids of its connection, copied back by `QVector::replace`,
written and read again. The copies pass over the two fields `altitudeGPS` and `aSpeed`, so what
arrives there is what the memory of the last copy held.
-/

namespace ArmOd

namespace QString

/-- `QString::toUShort`. -/
def toUShort (s : String) : Nat := if toUInt s < 2 ^ 16 then toUInt s else 0

end QString

namespace TcpManager

/-- What the constructors along the way find. -/
structure Hops where
  /-- The records of the coder, and their copies in its vector. -/
  fresh : Nat → Fresh
  copied : Nat → Fresh
  /-- The elements `TcpManager` reads. -/
  read : Fresh
  /-- The copies out of its vector, and those `replace` makes. -/
  taken : Nat → Fresh
  replaced : Nat → Fresh
  /-- The elements the consumer reads. -/
  consumer : Fresh

def deviceNameInfo (deviceName : String) : List String :=
  (deviceName.toList.splitOn ':').map String.ofList

/-- The record of a connection: a copy with the ids its name gives, and the copy of that in the
vector. -/
def forConnection (hops : Hops) (deviceName : String) (i : Nat) (data : UAVPositionData) :
    Option UAVPositionData := do
  let positionData := data.copy (hops.taken i)
  let boardID := QString.toUShort (← (deviceNameInfo deviceName)[2]?)
  let device := QString.toUInt (← (deviceNameInfo deviceName)[3]?)
  return UAVPositionData.copy (hops.replaced i) { positionData with boardID, device }

/-- `onMessageReceived` for a `TCP_KTR_ANSWER_BPLA` message: what is sent by RPC. -/
def onBplaReceived (hops : Hops) (deviceName : String) (messageData : QByteArray) :
    Option QByteArray := do
  let (positionDataVector, _) ← (UAVPositionData.getVector hops.read).run messageData
  let positions ← positionDataVector.zipIdx.mapM fun (data, i) =>
    forConnection hops deviceName i data
  return UAVPositionData.putVector positions

/-- The vector the RPC consumer reads after a read of the connection's socket. -/
def telemetry (fp : Numerics) (hops : Hops) (deviceName : String) (coder : TcpKTRCoder)
    (data : List UInt8) : Option (List UAVPositionData) := do
  let (_, message) ← TcpKTRCoder.encode fp hops.fresh hops.copied coder data
  let sent ← onBplaReceived hops deviceName (← message).data
  let (positions, _) ← (UAVPositionData.getVector hops.consumer).run sent
  return positions

/-- The measured fields of a record. -/
def SameMeasurement (a b : UAVPositionData) : Prop :=
  a.latitude = b.latitude ∧ a.longitude = b.longitude ∧ a.altitude = b.altitude ∧
    a.altitudeGPS = b.altitudeGPS ∧
    a.speed = b.speed ∧ a.aSpeed = b.aSpeed ∧ a.course = b.course ∧ a.sourceType = b.sourceType

/-- The consumer reads one record, with what the frame measured and the ids of the connection. -/
def ArrivesUnchanged (fp : Numerics) (hops : Hops) (deviceName : String) (coder : TcpKTRCoder)
    (data : List UInt8) (board device : Nat) : Prop :=
  ∃ measured arrived, TcpKTRCoder.boardPosition fp (hops.fresh 0) coder data = some measured ∧
    telemetry fp hops deviceName coder data = some [arrived] ∧ SameMeasurement arrived measured ∧
    arrived.boardID = board ∧ arrived.device = device

/-- The name of the connection gives the ids. -/
def NamesIds (deviceName : String) (board device : Nat) : Prop :=
  ∃ boardText deviceText, (deviceNameInfo deviceName)[2]? = some boardText ∧
    (deviceNameInfo deviceName)[3]? = some deviceText ∧
    QString.toUShort boardText = board ∧ QString.toUInt deviceText = device

/-- The memory of the last copy already holds the height of the frame and the airspeed of the frame
before. -/
def HoldsMeasurement (fp : Numerics) (fresh : Fresh) (coder : TcpKTRCoder)
    (data : List UInt8) : Prop :=
  ∃ high low, data[12]? = some high ∧ data[13]? = some low ∧
    fresh.altitudeGPS = fp.ofRat (TcpKTRCoder.signedWord high low) ∧ fresh.aSpeed = coder.m_speed

variable {fp : Numerics} {hops : Hops} {deviceName : String} {coder : TcpKTRCoder}
  {data : List UInt8}

/-- What the consumer reads of a position frame: the record of the coder with the ids of the
connection, and the memory of the last copy in the two fields. -/
theorem telemetry_eq (h : TcpKTRCoder.isLocationFromBoard data) {measured : UAVPositionData}
    (hmeasured : TcpKTRCoder.boardPosition fp (hops.fresh 0) coder data = some measured) :
    telemetry fp hops deviceName coder data =
      (forConnection hops deviceName 0 (measured.copy (hops.copied 0)).received).map fun data =>
      [data.received] := by
  rw [telemetry, TcpKTRCoder.encode_of_isLocationFromBoard hops.fresh hops.copied h hmeasured]
  simp only [Option.bind_eq_bind, Option.bind_some, onBplaReceived,
    (UAVPositionData.carries_vector hops.read).run, List.map_cons, List.map_nil,
    List.zipIdx_cons, List.zipIdx_nil, List.mapM_cons, List.mapM_nil]
  cases forConnection hops deviceName 0 (measured.copy (hops.copied 0)).received with
  | none => rfl
  | some arrived =>
      simp only [Option.bind_some, Option.pure_def,
        (UAVPositionData.carries_vector hops.consumer).run]
      rfl

theorem forConnection_eq_some {i : Nat} {sent arrived : UAVPositionData}
    (h : forConnection hops deviceName i sent = some arrived) :
    NamesIds deviceName arrived.boardID arrived.device ∧
      arrived = UAVPositionData.copy (hops.replaced i)
      { sent with boardID := arrived.boardID, device := arrived.device } := by
  simp only [forConnection, Option.bind_eq_bind, Option.bind_eq_some_iff] at h
  obtain ⟨boardText, hboard, deviceText, hdevice, harrived⟩ := h
  cases harrived
  exact ⟨⟨boardText, deviceText, hboard, hdevice, rfl, rfl⟩, rfl⟩

theorem forConnection_of_namesIds {board device : Nat} (h : NamesIds deviceName board device)
    (i : Nat) (sent : UAVPositionData) :
    forConnection hops deviceName i sent = some
      (UAVPositionData.copy (hops.replaced i)
      { sent with boardID := board, device := device }) := by
  obtain ⟨boardText, deviceText, hboard, hdevice, rfl, rfl⟩ := h
  rw [forConnection, hboard, hdevice]
  rfl

/-- **Telemetry of a board.** A position frame arrives with all it measured and the ids of its
connection if and only if the name of the connection gives these ids and the memory
`QVector::replace` copies into happens to hold the two fields the copy passes over. -/
theorem arrivesUnchanged_iff (h : TcpKTRCoder.isLocationFromBoard data) (board device : Nat) :
    ArrivesUnchanged fp hops deviceName coder data board device ↔
      NamesIds deviceName board device ∧ HoldsMeasurement fp (hops.replaced 0) coder data := by
  obtain ⟨measured, high, low, hmeasured, hhigh, hlow, hgps, haspeed⟩ :=
    TcpKTRCoder.boardPosition_of_length fp coder (hops.fresh 0)
      (TcpKTRCoder.length_of_isLocationFromBoard h)
  constructor
  · intro harrives
    obtain ⟨measured', arrived, hmeasured', htelemetry, hsame, rfl, rfl⟩ := harrives
    rw [hmeasured] at hmeasured'
    cases hmeasured'
    rw [telemetry_eq h hmeasured, Option.map_eq_some_iff] at htelemetry
    obtain ⟨sent, hsent, hreceived⟩ := htelemetry
    cases hreceived
    obtain ⟨hnames, heq⟩ := forConnection_eq_some hsent
    obtain ⟨-, -, -, hgps', -, haspeed', -, -⟩ := hsame
    rw [heq] at hgps' haspeed'
    exact ⟨hnames, high, low, hhigh, hlow, hgps'.trans hgps, haspeed'.trans haspeed⟩
  · intro hholds
    obtain ⟨hnames, high', low', hhigh', hlow', hgps', haspeed'⟩ := hholds
    rw [hhigh] at hhigh'
    rw [hlow] at hlow'
    cases hhigh'
    cases hlow'
    refine ⟨measured, _, hmeasured,
      by rw [telemetry_eq h hmeasured, forConnection_of_namesIds hnames, Option.map_some],
      ?_, rfl, rfl⟩
    exact ⟨rfl, rfl, rfl, hgps'.trans hgps.symm, rfl, haspeed'.trans haspeed.symm, rfl, rfl⟩

/-- A frame at 42 degrees north and 41 degrees east, 300 metres high. -/
def frame : List UInt8 := [65, 71, 0x40, 0x16, 0x40, 0x3e, 0x8f, 0xa0, 0, 100, 0x03, 0x84,
      0x01, 0x2c, 0]

/-- Memory that holds the number everywhere. -/
def Hops.filled (altitudeGPS aSpeed : Double) : Hops :=
  let fresh := { now := ⟨0, 0⟩, altitudeGPS, aSpeed }
  ⟨fun _ => fresh, fun _ => fresh, fresh, fun _ => fresh, fun _ => fresh, fresh⟩

theorem arrivesUnchanged_of_memory : ArrivesUnchanged .exact (.filled 300 20) "h:1:7:1"
    { m_speed := 20 } frame 7 1 :=
  (arrivesUnchanged_iff (by decide +kernel) 7 1).mpr
    ⟨⟨"7", "1", by decide +kernel, by decide +kernel, by decide +kernel, by decide +kernel⟩, 1, 44,
    by decide, by decide, by decide +kernel, by decide⟩

/-- With zeros in memory the height over the sea and the airspeed are lost. -/
theorem not_arrivesUnchanged : ¬ ArrivesUnchanged .exact (.filled 0 0) "h:1:7:1"
    { m_speed := 20 } frame 7 1 := by
  intro harrives
  obtain ⟨measured, arrived, hmeasured, htelemetry, ⟨-, -, -, -, -, haspeed, -, -⟩, -,
    -⟩ := harrives
  have hsent : (TcpKTRCoder.boardPosition .exact ((Hops.filled 0 0).fresh 0) { m_speed := 20 }
    frame).map UAVPositionData.aSpeed = some 20 := by
    decide +kernel
  have hread : (telemetry .exact (.filled 0 0) "h:1:7:1" { m_speed := 20 } frame).map
    (List.map UAVPositionData.aSpeed) = some [0] := by
    decide +kernel
  rw [hmeasured, Option.map_some, Option.some_inj] at hsent
  rw [htelemetry, Option.map_some, List.map_cons, List.map_nil, haspeed, hsent] at hread
  exact absurd hread (by decide)

end TcpManager

end ArmOd
