import ArmOd.Qt.QDataStream

/-!
# BaseTcpDeviceController

A device controller hands every read of its socket to the coder of its device and tells its
listeners the message, then asks the coder for more with the empty array until there is none. The
coder is a parameter here: `encode` gives its next state and its message, a null pointer or one
without data being no message, and fails where it indexes outside a list.
-/

namespace ArmOd

/-- A message made of the bytes of a device. -/
structure Message where
  type : String
  data : QByteArray
  deriving DecidableEq, Repr

def TCP_EMPTY_MESSAGE : String := "tcpEmptyMessage"
def TCP_NIIPP_ANSWER : String := "tcpNiippAnswer"
def TCP_KTR_ANSWER_BOARD_LIST : String := "tcpKtrAnswerBoardList"
def TCP_KTR_ANSWER_BPLA : String := "tcpKtrAnswerBpla"
def TCP_AIS_ANSWER_DATA : String := "tcpAisAnswerData"
def TCP_KTR_REQUEST_GET_BOARD_LIST : String := "tcpKtrRequestGetBoardList"
def TCP_KTR_REQUEST_COMMAND_TO_BPLA : String := "tcpKtrRequestCommandToBpla"

namespace BaseTcpDeviceController

variable {σ : Type}

/-- The message, where the pointer is not null and there is data. -/
def nonEmpty (message : Option Message) : Option Message := message.filter fun m => !m.data.isEmpty

/-- The loop that calls `encode( QByteArray() )`, for at most `fuel` calls: what it delivers. -/
def drain (encode : σ → List UInt8 → Option (σ × Option Message)) : Nat → σ → Option
    (List Message × σ)
  | 0, _ => none
  | fuel + 1, coder => do
    let (coder, message) ← encode coder []
    match nonEmpty message with
    | none => return ([], coder)
    | some m =>
      let (messages, coder) ← drain encode fuel coder
      return (m :: messages, coder)

/-- What the listeners are told after one read. -/
def onDataReceived (encode : σ → List UInt8 → Option (σ × Option Message)) (fuel : Nat) (coder : σ)
    (data : List UInt8) :
    Option (List Message × σ) := do
  let (coder, message) ← encode coder data
  match nonEmpty message with
  | none => return ([], coder)
  | some m =>
    let (messages, coder) ← drain encode fuel coder
    return (m :: messages, coder)

/-- A whole stream, read in chunks. -/
def receive (encode : σ → List UInt8 → Option (σ × Option Message)) (fuel : Nat) (coder : σ) : List
    (List UInt8) → Option (List Message × σ)
  | [] => some ([], coder)
  | data :: chunks => do
    let (messages, coder) ← onDataReceived encode fuel coder data
    let (more, coder) ← receive encode fuel coder chunks
    return (messages ++ more, coder)

end BaseTcpDeviceController

end ArmOd
