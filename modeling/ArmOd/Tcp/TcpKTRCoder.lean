import ArmOd.Common.UAVDefines
import ArmOd.Qt.Codec
import ArmOd.Tcp.BaseTcpDeviceController

/-!
# TcpKTRCoder

The coder of the KTR devices and of their boards. A read is taken for a position text, a board list,
a position frame of a board or a frame with its airspeed and barometric altitude, in this order.
Every access to an array or a list is checked: the result `none` is an index outside of it.
-/

namespace ArmOd

structure TcpKTRCoder where
  m_altitude : Double := 0
  m_speed : Double := 0
  deriving DecidableEq, Repr

namespace TcpKTRCoder

/-- A `char`, which is signed. -/
def char (b : UInt8) : Int := if b.toNat < 128 then b.toNat else (b.toNat : Int) - 256

/-- Two bytes as a number, the first one signed or not. -/
def signedWord (high low : UInt8) : Int := char high * 256 + low.toNat
def unsignedWord (high low : UInt8) : Int := high.toNat * 256 + low.toNat

/-- The angle of a number `DDMMTTT`: degrees, minutes and thousandths of a minute. -/
def angle (fp : Numerics) (value : Int) : Double :=
  let deg := value / 100000
  let min := (value - deg * 100000) / 1000
  let minParts := value - deg * 100000 - min * 1000
  let lat := fp.div (fp.ofRat minParts) (fp.ofRat 1000)
  let lat := fp.add lat (fp.ofRat min)
  let lat := fp.div lat (fp.ofRat 60)
  fp.add lat (fp.ofRat deg)

def threeBytes (a b c : UInt8) : Int := (a.toNat * 256 + b.toNat) * 256 + c.toNat

/-- The record of a position frame, before it goes into the vector. -/
def boardPosition (fp : Numerics) (fresh : Fresh) (coder : TcpKTRCoder) (data : List UInt8) :
    Option UAVPositionData := do
  let latitude := angle fp (threeBytes (← data[2]?) (← data[3]?) (← data[4]?))
  let longitude := angle fp (threeBytes (← data[5]?) (← data[6]?) (← data[7]?))
  let gSpeed := fp.mul (fp.div (fp.ofRat (unsignedWord (← data[8]?) (← data[9]?))) (fp.ofRat 10))
    (fp.ofRat (9 / 5))
  let gCourse := fp.div (fp.ofRat (unsignedWord (← data[10]?) (← data[11]?))) (fp.ofRat 10)
  let gHeight := signedWord (← data[12]?) (← data[13]?)
  return { UAVPositionData.new fresh with
    latitude, longitude, altitude := coder.m_altitude, altitudeGPS := fp.ofRat gHeight, speed :=
    gSpeed, aSpeed := coder.m_speed,
    course := gCourse, sourceType := UAV_AUTOPILOT_SOURCE }

/-- A message with one position, copied into the vector. -/
def parseLocationFromBoard (fp : Numerics) (fresh copied : Fresh) (coder : TcpKTRCoder)
    (data : List UInt8) : Option Message := do
  let positionData ← boardPosition fp fresh coder data
  return { type := TCP_KTR_ANSWER_BPLA, data := UAVPositionData.putVector [positionData.copy copied] }

def KTPGA : Text := "$KTPGA,".toList

/-- An angle `deg*min'sec`, the seconds as `seconds` finds them in what follows the minutes. -/
def textAngle (fp : Numerics) (seconds : Text → Text) (text : Text) : Option Double := do
  let tmp1 := Text.split ['*'] text
  let deg := fp.toDouble (← tmp1[0]?)
  let tmp2 := Text.split ['\''] (← tmp1[1]?)
  let min := fp.toDouble (← tmp2[0]?)
  let tmp3 := Text.split ['\''] (← tmp2[1]?)
  let sec := fp.toDouble (seconds (← tmp3[0]?))
  return fp.add (fp.div (fp.add (fp.div sec (fp.ofRat 60)) min) (fp.ofRat 60)) deg

/-- The last character of the seconds of a longitude is dropped, whatever it is. -/
def textPosition (fp : Numerics) (fresh : Fresh) (f1 : Text) : Option UAVPositionData := do
  let l33 := Text.split ['{'] f1
  let f1 := Text.remove ['}'] (← l33[1]?)
  let l33 := Text.split ['|'] f1
  let lat_f ← textAngle fp (Text.remove ['"']) (← l33[0]?)
  let lon_f ← textAngle fp List.dropLast (← l33[1]?)
  return { UAVPositionData.new fresh with latitude := lat_f, longitude := lon_f, sourceType := UAV_SLICES_SOURCE }

def parseLocationFromKTR (fp : Numerics) (fresh copied : Nat → Fresh) (data : List UInt8) :
    Option Message := do
  let dl1 := Text.split KTPGA (textOfBytes data)
  let dl2 := Text.split "END".toList (← dl1[1]?)
  let dl3 := Text.split [','] (← dl2[0]?)
  let data2 ← dl3[1]?
  let data3 := Text.left data2 (data2.length - 1)
  let count_points := Text.toInt data3
  let count_points := if count_points > 2 then 1 else count_points
  let positions ← (List.range count_points.toNat).mapM fun i => do
    return (← textPosition fp (fresh i) (← dl3[i + 2]?)).copy (copied i)
  return { type := TCP_KTR_ANSWER_BPLA, data := UAVPositionData.putVector positions }

def parseBoardList (data : List UInt8) : Option Message := do
  let inputData := data.drop 12
  let count_bla := char (← inputData[0]?)
  let identificators ← (List.range count_bla.toNat).mapM fun i => do
    return quint16 (unsignedWord (← inputData[3 + i * 24]?) (← inputData[2 + i * 24]?))
  return { type := TCP_KTR_ANSWER_BOARD_LIST, data := QDataStream.write (fun id => [.quint16 id]) identificators }

def emptyMessage : Message := { type := TCP_EMPTY_MESSAGE, data := [] }

/-- The read holds a position text. -/
def isLocationFromKTR (data : List UInt8) : Bool :=
  match Text.split KTPGA (textOfBytes data) with
  | _ :: ddt :: _ => Text.contains "END".toList ddt
  | _ => false

def isBoardList (data : List UInt8) : Bool :=
  data.take 12 == "control link".toList.map fun c => UInt8.ofNat c.toNat

def isFrame (data : List UInt8) : Bool := decide (15 ≤ data.length)

/-- The read is a position frame of a board. -/
def isLocationFromBoard (data : List UInt8) : Bool :=
  !isLocationFromKTR data && !isBoardList data && isFrame data &&
    (data[0]? == some 65 && data[1]? == some 71)

/-- `encode`; `fresh` and `copied` are what the constructors of the records find, one each for every
record. -/
def encode (fp : Numerics) (fresh copied : Nat → Fresh) (coder : TcpKTRCoder) (data : List UInt8) :
    Option (TcpKTRCoder × Option Message) := do
  if isLocationFromKTR data then return (coder, some (← parseLocationFromKTR fp fresh copied data))
  else if isBoardList data then return (coder, some (← parseBoardList data))
  else if data.length < 10 then return (coder, some emptyMessage)
  else if isFrame data then
    let f1 ← data[0]?
    let f2 ← data[1]?
    if f1 = 65 ∧ f2 = 71 then
      return (coder, some (← parseLocationFromBoard fp (fresh 0) (copied 0) coder data))
    else if f2 = 78 then
      let m_altitude := fp.ofRat (signedWord (← data[8]?) (← data[9]?))
      let m_speed := fp.ofRat (← data[10]?).toNat
      return ({ m_altitude, m_speed }, some emptyMessage)
    else return (coder, some emptyMessage)
  else return (coder, some emptyMessage)

/-- `decode`. -/
def decode (message : Message) : List UInt8 :=
  let command := "user link command ".toList
  toAscii <|
    if message.type = TCP_KTR_REQUEST_GET_BOARD_LIST then command ++ "ctrl".toList
    else if message.type = TCP_KTR_REQUEST_COMMAND_TO_BPLA then
      let (id, rest) := (QDataStream.readQuint16.run message.data).getD (0, [])
      let (dev, _) := (QDataStream.readQuint32.run rest).getD (0, [])
      command ++ 'b' :: (QString.number id).toList ++ 'd' :: (QString.number dev).toList
    else command

theorem mapM_range_of_getElem? {α : Type} {f : Nat → Option α} {as : List α}
    (h : ∀ i < as.length, f i = as[i]?) : (List.range as.length).mapM f = some as := by
  induction as using List.reverseRecOn with
  | nil => rfl
  | append_singleton as a ih =>
      have hinit : (List.range as.length).mapM f = some as := ih fun i hi => by
        rw [h i (by rw [List.length_append]; omega), List.getElem?_append_left hi]
      have hlast : f as.length = some a := by
        rw [h as.length (by simp), List.getElem?_append_right le_rfl, Nat.sub_self]
        rfl
      rw [List.length_append, List.length_singleton, List.range_succ, List.mapM_append, hinit]
      simp [hlast]

variable {fp : Numerics} {coder : TcpKTRCoder} {data : List UInt8}

theorem boardPosition_of_length (fp : Numerics) (coder : TcpKTRCoder) (fresh : Fresh)
    (hlength : 15 ≤ data.length) :
    ∃ measured high low, boardPosition fp fresh coder data = some measured ∧
      data[12]? = some high ∧ data[13]? = some low ∧
      measured.altitudeGPS = fp.ofRat (signedWord high low) ∧
        measured.aSpeed = coder.m_speed := by
  have hget : ∀ i, i < 15 → ∃ b, data[i]? = some b :=
    fun i hi => ⟨_, List.getElem?_eq_getElem (by omega)⟩
  obtain ⟨b2, h2⟩ := hget 2 (by omega)
  obtain ⟨b3, h3⟩ := hget 3 (by omega)
  obtain ⟨b4, h4⟩ := hget 4 (by omega)
  obtain ⟨b5, h5⟩ := hget 5 (by omega)
  obtain ⟨b6, h6⟩ := hget 6 (by omega)
  obtain ⟨b7, h7⟩ := hget 7 (by omega)
  obtain ⟨b8, h8⟩ := hget 8 (by omega)
  obtain ⟨b9, h9⟩ := hget 9 (by omega)
  obtain ⟨b10, h10⟩ := hget 10 (by omega)
  obtain ⟨b11, h11⟩ := hget 11 (by omega)
  obtain ⟨b12, h12⟩ := hget 12 (by omega)
  obtain ⟨b13, h13⟩ := hget 13 (by omega)
  refine ⟨(boardPosition fp fresh coder data).getD (UAVPositionData.new fresh), b12,
    b13, ?_, h12, h13, ?_, ?_⟩ <;>
    simp [boardPosition, h2, h3, h4, h5, h6, h7, h8, h9, h10, h11, h12, h13]

theorem length_of_isLocationFromBoard (h : isLocationFromBoard data) : 15 ≤ data.length := by
  simp only [isLocationFromBoard, isFrame, Bool.and_eq_true, decide_eq_true_eq] at h
  exact h.1.2

theorem encode_of_isLocationFromBoard (fresh copied : Nat → Fresh)
    (h : isLocationFromBoard data) {measured : UAVPositionData}
    (hmeasured : boardPosition fp (fresh 0) coder data = some measured) :
    encode fp fresh copied coder data =
      some (coder, some {
        type := TCP_KTR_ANSWER_BPLA
        data := UAVPositionData.putVector [measured.copy (copied 0)] }) := by
  have hlength : ¬ data.length < 10 := by
    have hframe := length_of_isLocationFromBoard h
    omega
  simp only [isLocationFromBoard, Bool.and_eq_true, Bool.not_eq_true', beq_iff_eq] at h
  obtain ⟨⟨⟨hktr, hlist⟩, hframe⟩, h0, h1⟩ := h
  simp [encode, hktr, hlist, hlength, hframe, h0, h1,
    parseLocationFromBoard, hmeasured]

end TcpKTRCoder

end ArmOd
