import ArmOd.Tcp.TcpKTRCoder

/-!
# KtrSimulator

The simulator of a KTR host with its boards. A client that asked for the boards is sent the board
list, and one that registered for a board a position frame and an altitude frame; the frames are the
bytes of the numbers on a little-endian host. The text positions are not modelled.

The commands of a client are read from a buffer in a loop that only ends when the buffer has become
too short for a command. The loop runs for at most `fuel` rounds here, and `none` says that it has
not ended by then.
-/

namespace ArmOd

/-- What the simulator takes from the C library; `qrand` gives the draws of a call in their order. -/
structure CLibrary where
  fp : Numerics
  sin : Double → Double
  cos : Double → Double
  qrand : Nat → Nat

def RAND_MAX : ℚ := 2147483647
def M_PI : ℚ := 3.14159265358979323846

structure BplaSimulatorNode where
  device : Nat := 0
  centerLat : Double := 0
  centerLon : Double := 0
  radiusX : Double := .fin 0.01
  radiusY : Double := .fin 0.01
  alt : Double := 0
  angle : Double := 0

structure KtrSimulator where
  m_bplaList : QMap Nat BplaSimulatorNode := ∅
  m_baseAngle : Double := 0

/-- `a - b`, as the sum with the opposite. -/
def Numerics.sub (fp : Numerics) (a b : Double) : Double := fp.add a (fp.mul (fp.ofRat (-1)) b)

namespace KtrSimulator

/-! ### Frames -/

def encodeAngle (fp : Numerics) (angle : Double) : Int :=
  let deg := angle.toInt
  let frac := fp.mul (fp.sub angle (fp.ofRat deg)) (fp.ofRat 60)
  let min := frac.toInt
  let sec := (fp.mul (fp.sub frac (fp.ofRat min)) (fp.ofRat 1000)).toInt
  deg * 100000 + min * 1000 + sec

/-- `((char*) &value)[i]`. -/
def byteOf (value : Int) (i : Nat) : UInt8 := UInt8.ofNat (value / 256 ^ i % 256).toNat

def rotatePoint (lib : CLibrary) (cx cy angle x y : Double) : Double × Double :=
  let s := lib.sin angle
  let c := lib.cos angle
  let x := lib.fp.sub x cx
  let y := lib.fp.sub y cy
  let xnew := lib.fp.sub (lib.fp.mul x c) (lib.fp.mul y s)
  let ynew := lib.fp.add (lib.fp.mul x s) (lib.fp.mul y c)
  (lib.fp.add xnew cx, lib.fp.add ynew cy)

/-- A radius with the draw of its noise. -/
def noisyRadius (lib : CLibrary) (radius : Double) (draw : Nat) : Double :=
  lib.fp.add (lib.fp.sub radius (lib.fp.ofRat 0.00005))
    (lib.fp.mul (lib.fp.div (lib.fp.ofRat draw) (lib.fp.ofRat RAND_MAX)) (lib.fp.ofRat 0.0001))

/-- The longitude and the latitude of a board on its track. -/
def position (lib : CLibrary) (sim : KtrSimulator) (node : BplaSimulatorNode) : Double × Double :=
  let radiusX := noisyRadius lib node.radiusX (lib.qrand 0)
  let radiusY := noisyRadius lib node.radiusY (lib.qrand 1)
  let angle := lib.fp.div
    (lib.fp.mul (lib.fp.sub (lib.fp.ofRat 180) sim.m_baseAngle) (lib.fp.ofRat M_PI))
    (lib.fp.ofRat 180)
  let lon := lib.fp.add (lib.fp.mul (lib.cos angle) radiusX) node.centerLon
  let lat := lib.fp.add (lib.fp.mul (lib.sin angle) radiusY) node.centerLat
  rotatePoint lib node.centerLon node.centerLat node.angle lon lat

/-- The frame of a position, from the numbers its angles are encoded as. -/
def positionFrame (latEncoded lonEncoded : Int) : List UInt8 :=
  toAscii "AG".toList ++ [byteOf latEncoded 2, byteOf latEncoded 1, byteOf latEncoded 0,
    byteOf lonEncoded 2, byteOf lonEncoded 1, byteOf lonEncoded 0]

def encodeAutopilotPosition (lib : CLibrary) (sim : KtrSimulator) (id : Nat) : List UInt8 :=
  match sim.m_bplaList[id]? with
  | none => []
  | some node =>
    let (lon, lat) := position lib sim node
    let lonEncoded := encodeAngle lib.fp lon
    let latEncoded := encodeAngle lib.fp lat
    positionFrame latEncoded lonEncoded

def encodeAtitude (lib : CLibrary) (sim : KtrSimulator) (id : Nat) : List UInt8 :=
  match sim.m_bplaList[id]? with
  | none => []
  | some node =>
    let altitude := quint16 (lib.fp.add (lib.fp.sub node.alt (lib.fp.ofRat 10))
      (lib.fp.ofRat (lib.qrand 0 % 20 : Nat))).toInt
    toAscii "AN000000".toList ++ [byteOf altitude 1, byteOf altitude 0]

/-- The entry of a board: its id, and blanks. -/
def boardEntry (id : Nat) : List UInt8 :=
  [byteOf id 0, byteOf id 1] ++ List.replicate 22 32

def encodeBplaList (sim : KtrSimulator) : List UInt8 :=
  let count := UInt8.ofNat sim.m_bplaList.size
  toAscii "control link".toList ++ [count] ++ toAscii " ".toList ++
    sim.m_bplaList.keys.flatMap boardEntry

/-! ### Commands -/

def CMD_MIN_LENGTH : Nat := 22

/-- `user link command ctrl`. -/
def CMD_LIST_BPLA : Text := "user link command ctrl".toList

/-- What `user link command b(\d+)d(\d+)` has in front of its first number. -/
def CMD_REGISTER_LISTENER : Text := "user link command b".toList

/-- The two numbers where the second expression matches at the front; a number takes all digits there
are. -/
def registerListener? (text : Text) : Option (Text × Text) :=
  if CMD_REGISTER_LISTENER.isPrefixOf text then
    let text := text.drop CMD_REGISTER_LISTENER.length
    match text.dropWhile Char.isDigit with
    | 'd' :: rest =>
      let id := text.takeWhile Char.isDigit
      let device := rest.takeWhile Char.isDigit
      if id ≠ [] ∧ device ≠ [] then some (id, device) else none
    | _ => none
  else none

/-- A request of a client. -/
inductive KtrRequest where
  | listBpla
  | registerListener (id device : Int)
  deriving DecidableEq, Repr

/-- A connected client, with what it has requested. -/
structure KtrClient where
  buffer : List UInt8 := []
  requests : List KtrRequest := []
  deriving DecidableEq, Repr

namespace KtrClient

def executeListBpla (client : KtrClient) : KtrClient :=
  if CMD_LIST_BPLA.isPrefixOf (latin1OfBytes client.buffer) then
    { buffer := client.buffer.drop CMD_LIST_BPLA.length
      requests := client.requests ++ [.listBpla] }
  else client

def executeRegisterListener (client : KtrClient) : KtrClient :=
  match registerListener? (latin1OfBytes client.buffer) with
  | some (id, device) =>
    { buffer := client.buffer.drop (CMD_REGISTER_LISTENER.length + id.length + 1 + device.length)
      requests := client.requests ++ [.registerListener (Text.toInt id) (Text.toInt device)] }
  | none => client

/-- The inner loop. -/
def execute : Nat → KtrClient → Option KtrClient
  | 0, _ => none
  | fuel + 1, client =>
    if CMD_MIN_LENGTH ≤ client.buffer.length then
      execute fuel client.executeListBpla.executeRegisterListener
    else some client

/-- `readyRead`, with the bytes that are available. -/
def readyRead (fuel : Nat) (client : KtrClient) (data : List UInt8) : Option KtrClient :=
  if data = [] then some client
  else execute fuel { client with buffer := client.buffer ++ data }

end KtrClient

end KtrSimulator

end ArmOd
