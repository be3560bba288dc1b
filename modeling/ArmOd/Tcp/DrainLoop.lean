import ArmOd.Tcp.TcpAISCoder
import ArmOd.Tcp.TcpArmrClientCoder
import ArmOd.Tcp.TcpKTRCoder
import ArmOd.Tcp.TcpNIIPPCoder

/-!
# The drain loop over the four coders

After a message the controller calls `encode( QByteArray() )` until there is no message. The coders
of KTR and AIS take the empty array for what it is; the coder of NIIPP reads the second of its
fields, and the coder of ARM-R gives protobuf seven bytes less than none.
-/

namespace ArmOd

/-- The coder of a device, with its state. -/
inductive TcpDeviceCoder where
  | ktr (coder : TcpKTRCoder)
  | niipp (m_id : Int)
  | ais (zone : AISZone) (coder : TcpAISCoder)
  | armr
  deriving DecidableEq, Repr

/-- What the coders rely on. -/
structure CoderLibrary where
  fp : Numerics
  conv : Conversions
  pb : Protobuf
  /-- What the constructors of KTR records and the records of AIS lists find in memory. -/
  fresh : Nat → Fresh
  copied : Nat → Fresh
  bracketed : Nat → Bracketed

namespace TcpDeviceCoder

open BaseTcpDeviceController

def encode (lib : CoderLibrary) : TcpDeviceCoder → List UInt8 → Option
    (TcpDeviceCoder × Option Message)
  | ktr coder, data => (coder.encode lib.fp lib.fresh lib.copied data).map fun p => (ktr p.1, p.2)
  | niipp m_id, data =>
      (TcpNIIPPCoder.encode lib.fp lib.conv m_id data).map fun p => (niipp p.1, p.2)
  | ais zone coder, data =>
      (TcpAISCoder.encode lib.fp lib.conv lib.bracketed zone coder data).map fun p =>
        (ais zone p.1, p.2)
  | armr, data => (TcpArmrClientCoder.encode lib.pb () data).map fun p => (armr, p.2)

/-- The number of bytes a call of `encode` gives to a parser of arrays. -/
def parsedSize? : TcpDeviceCoder → List UInt8 → Option Int
  | armr, data => some (TcpArmrClientCoder.parsedSize data)
  | ktr _, _ | niipp _, _ | ais _ _, _ => none

/-- The loop ends without an index out of range, delivers nothing, since no received bytes are left,
and gives no parser a negative size. -/
def DrainsSafely (lib : CoderLibrary) (coder : TcpDeviceCoder) : Prop :=
  (∃ fuel coder', drain (encode lib) fuel coder = some ([], coder')) ∧
    ∀ size, coder.parsedSize? [] = some size → 0 ≤ size

/-- The coder takes the empty array for the end of the data. -/
def EndsOnEmpty : TcpDeviceCoder → Prop
  | ktr _ | ais _ _ => True
  | niipp _ | armr => False

variable {lib : CoderLibrary} {coder coder' : TcpDeviceCoder} {data : List UInt8}
  {m : Option Message}

theorem drainsSafely_of_encode_nil {m : Message} (h : encode lib coder [] = some (coder', some m))
    (hm : m.data = [])
    (hsize : coder.parsedSize? [] = none) : DrainsSafely lib coder := by
  refine ⟨⟨1, coder', ?_⟩, fun size hsome => ?_⟩
  · have hnone : nonEmpty (some m) = none := by rw [nonEmpty, Option.filter_some, hm]; rfl
    simp [drain, h, hnone]
  · rw [hsize] at hsome
    cases hsome

theorem drainsSafely_iff (coder : TcpDeviceCoder) : DrainsSafely lib coder ↔ EndsOnEmpty coder := by
  cases coder with
  | ktr coder => exact iff_of_true (drainsSafely_of_encode_nil rfl rfl rfl) trivial
  | ais zone coder => exact iff_of_true (drainsSafely_of_encode_nil rfl rfl rfl) trivial
  | niipp m_id =>
      refine iff_of_false (fun hsafe => ?_) id
      obtain ⟨⟨fuel, coder', hdrain⟩, -⟩ := hsafe
      cases fuel <;> cases hdrain
  | armr => exact iff_of_false (fun hsafe => absurd (hsafe.2 _ rfl) (by decide)) id

theorem endsOnEmpty_encode (h : encode lib coder data = some (coder', m)) : EndsOnEmpty coder' ↔
    EndsOnEmpty coder := by
  cases coder with
  | ktr | niipp | ais =>
      obtain ⟨p, -, hp⟩ := Option.map_eq_some_iff.mp h
      cases hp
      rfl
  | armr =>
      cases h
      rfl

/-- **The drain loop.** After a first call that returns, with a message or without, the loop is safe
if and only if the coder is the one of KTR or of AIS. -/
theorem drainsSafely_iff_after_encode (h : encode lib coder data = some (coder', m)) :
    DrainsSafely lib coder' ↔ EndsOnEmpty coder :=
  (drainsSafely_iff coder').trans (endsOnEmpty_encode h)

/-- Exact arithmetic, zeros in memory and packets without arguments. -/
def exactLibrary : CoderLibrary where
  fp := .exact
  conv := { number := fun _ => [], toDate := fun _ _ => 0, toTime := fun _ _ => 0 }
  pb := TcpArmrClientCoder.commands
  fresh := fun _ => ⟨⟨0, 0⟩, 0, 0⟩
  copied := fun _ => ⟨⟨0, 0⟩, 0, 0⟩
  bracketed := fun _ => ⟨0, 0, Vector.replicate 17 0⟩

/-- A list of one board, with the id 7. -/
def boardList : List UInt8 := ("control link".toList.map fun c => UInt8.ofNat c.toNat) ++
    [1, 0, 7, 0]

theorem encode_boardList :
    encode exactLibrary (ktr {}) boardList =
      some (ktr {}, some { type := TCP_KTR_ANSWER_BOARD_LIST, data := [.quint32 1, .quint16 7] }) := by
  decide +kernel

theorem drainsSafely_after_boardList : DrainsSafely exactLibrary (ktr {}) :=
  (drainsSafely_iff_after_encode encode_boardList).mpr trivial

/-- An answer of a NIIPP in mode 1. -/
def niippLine : List UInt8 := "010100,120000,1,424205,N,413345,E,100,5,10,20".toList.map fun c =>
    UInt8.ofNat c.toNat

/-- After an answer of a NIIPP the loop reads a field that is not there, and after a packet of ARM-R
it parses minus seven bytes. -/
theorem not_drainsSafely :
    ((encode exactLibrary (niipp 100) niippLine).isSome ∧
      encode exactLibrary (niipp 100) [] = none ∧ ¬ DrainsSafely exactLibrary (niipp 100)) ∧
    ((encode exactLibrary armr (TcpArmrClientCoder.frame TcpArmrClientCoder.commands false)).isSome
      ∧ parsedSize? armr [] = some (-7) ∧
      ¬ DrainsSafely exactLibrary armr) := by
  refine ⟨⟨by decide +kernel, by decide +kernel, fun hsafe => ?_⟩, by decide +kernel,
    by decide +kernel, fun hsafe => ?_⟩
  · obtain ⟨⟨fuel, coder', hdrain⟩, -⟩ := hsafe
    cases fuel <;> cases hdrain
  · exact absurd (hsafe.2 _ rfl) (by decide)

end TcpDeviceCoder

end ArmOd
