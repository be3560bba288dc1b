import ArmOd.Qt.Codec
import ArmOd.Tcp.BaseTcpDeviceController

/-!
# TcpNIIPPCoder

The answers of a NIIPP: one line of fields between commas, taken by their place in the line. A
command for it arrives as a stream, and `decode` reads the fields of the stream in a fixed order
before it writes them into a line of text; the model has the reading.
-/

namespace ArmOd

namespace TcpNIIPPCoder

/-- The angle of a text that ends in two digits of minutes and two of seconds. -/
def angle (fp : Numerics) (text : Text) : Double :=
  let sec := fp.div (fp.ofRat (Text.toInt (Text.right text 2))) (fp.ofRat 3600)
  let min := fp.div (fp.ofRat (Text.toInt (Text.left (Text.right text 4) 2))) (fp.ofRat 60)
  let grad := Text.left text (text.length - 4)
  fp.add (fp.add (fp.ofRat (Text.toInt grad)) min) sec

/-- `encode` of the coder with this `m_id`. -/
def encode (fp : Numerics) (conv : Conversions) (m_id : Int) (data : List UInt8) : Option
    (Int × Option Message) := do
  let list := Text.split [','] (textOfBytes data)
  let date := conv.toDate (← list[0]?) "ddMMyy".toList
  let time := conv.toTime (← list[1]?) "HHmmss".toList
  let dt : QDateTime := { date, time }
  let mode := Text.toInt (← list[2]?)
  let lat := angle fp (← list[3]?)
  let NS ← list[4]?
  let lon := angle fp (← list[5]?)
  let EW ← list[6]?
  let alt := Text.toInt (← list[7]?)
  let zone := Text.toInt (← list[8]?)
  let course := Text.toInt (← list[9]?)
  let angle := Text.toInt (← list[10]?)
  let dataToSend : QByteArray :=
    [.int m_id, .qDateTime dt, .qTime time, .int mode, .qPointF ⟨lat, lon⟩,
      .qString (String.ofList NS), .qString (String.ofList EW),
      .int alt, .int zone, .int course, .int angle]
  return (m_id, some { type := TCP_NIIPP_ANSWER, data := dataToSend })

/-- The empty array has one field, and the second one is read. -/
theorem encode_nil (fp : Numerics) (conv : Conversions) (m_id : Int) : encode fp conv m_id
    [] = none := rfl

/-- What `decode` reads from a command. -/
structure Request where
  id : Int
  date : Int
  time : QTime
  comm : String
  point : QPointF
  NS : String
  EW : String
  alt : Int
  velocity_direction : Int
  zone : Int
  point2 : QPointF
  NS2 : String
  EW2 : String
  deriving DecidableEq, Repr

open QDataStream in
/-- The reading of `decode`, field by field. -/
def readRequest : Reader Item Request := do
  let id ← readInt
  let date ← readQDate
  let time ← readQTime
  let comm ← readQString
  let point ← readQPointF
  let NS ← readQString
  let EW ← readQString
  let alt ← readInt
  let velocity_direction ← readInt
  let zone ← readInt
  let point2 ← readQPointF
  let NS2 ← readQString
  let EW2 ← readQString
  return { id, date, time, comm, point, NS, EW, alt, velocity_direction, zone, point2, NS2, EW2 }

end TcpNIIPPCoder

end ArmOd
