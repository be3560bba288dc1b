import ArmOd.Qt.Double
import ArmOd.Qt.Text
import ArmOd.Tcp.BaseTcpDeviceController

/-!
# TcpAISCoder

The answers of the AIS service: a text with one list in brackets for every plane. The coder notes
the places of the brackets and the commas of every list, then cuts the fields out of the text and
keeps the planes of the zone. A result `none` is a write outside of the array of commas.

The record that takes the places is declared inside of the loop over the characters, so that every
character has a record of its own, which holds what the memory held.
-/

namespace ArmOd

structure AISZone where
  latitudeMax : Double := 0
  longitudeMin : Double := 0
  latitudeMin : Double := 0
  longitudeMax : Double := 0
  deriving DecidableEq, Repr

/-- The places of the brackets and commas of a list. -/
structure Bracketed where
  br1 : Int
  br2 : Int
  comma : Vector Int 17
  deriving DecidableEq, Repr

structure TcpAISCoder where
  m_listBr : List Bracketed := []
  deriving DecidableEq, Repr

namespace TcpAISCoder

/-- The `QString` at the front of a stream of bytes: its size, and two bytes for a character. A text
that is cut off is empty. -/
def readQString : List UInt8 → Text
  | a :: b :: c :: d :: rest =>
    let bytes := ((a.toNat * 256 + b.toNat) * 256 + c.toNat) * 256 + d.toNat
    if bytes = 2 ^ 32 - 1 ∨ bytes % 2 = 1 ∨ rest.length < bytes then []
      else characters (rest.take bytes)
  | _ => []
where
  characters : List UInt8 → Text
    | a :: b :: rest => Char.ofNat (a.toNat * 256 + b.toNat) :: characters rest
    | _ => []

/-- The variables of the loop over the characters. -/
structure Scan where
  c : Nat := 0
  inList : Bool := false
  m_listBr : List Bracketed
  deriving DecidableEq, Repr

/-- One character with its place. `br` is the record of this iteration. -/
def scanChar (br : Bracketed) (s : Scan) (p : Char × Nat) : Option Scan :=
  if p.1 = '[' then
    -- `br.br1` is written into a record that is not kept
    some { s with inList := true }
  else if p.1 = ',' ∧ s.inList then
    -- and so is `br.comma[c]`
    if h : s.c < 17 then
      let _br := { br with comma := br.comma.set s.c p.2 }
      some { s with c := s.c + 1 }
    else none
  else if p.1 = ']' then
    some { c := 0, inList := false, m_listBr := s.m_listBr ++ [{ br with br2 := p.2 }] }
  else some s

/-- The loop; `memory` is what the record of an iteration holds when it is declared. -/
def scan (memory : Nat → Bracketed) (m_listBr : List Bracketed) (data : Text) : Option Scan :=
  data.zipIdx.foldlM (fun s p => scanChar (memory p.2) s p) { m_listBr }

/-- The field between two places. -/
def field (data : Text) (x1 x2 : Int) : Text := Text.mid data x1 (x2 - x1)

/-- The record of a list, when the plane is in the zone: name, longitude, latitude, speed, altitude
and course. -/
def parse (fp : Numerics) (conv : Conversions) (zone : AISZone) (data : Text) (br : Bracketed) :
    Option (List Text) :=
  let latitude := field data (br.comma[0] + 1) br.comma[1]
  let longitude := field data (br.comma[1] + 1) br.comma[2]
  if (fp.toDouble latitude).le zone.latitudeMax ∧ zone.latitudeMin.le (fp.toDouble latitude) ∧
      zone.longitudeMin.le (fp.toDouble longitude) ∧
      (fp.toDouble longitude).le zone.longitudeMax then
    let course := field data (br.comma[2] + 1) br.comma[3]
    let altitude := conv.number (fp.mul (fp.toDouble (field data (br.comma[3] + 1) br.comma[4]))
      (fp.ofRat (3048 / 10000)))
    let speed := field data (br.comma[4] + 1) br.comma[5]
    let namePlane := field data (br.comma[15] + 2) (br.comma[16] - 1)
    some [namePlane, longitude, latitude, speed, altitude, course]
  else none

/-- `dataStream << map1`: the map is written from its last key to its first. -/
def answer (map1 : List (Nat × List Text)) : Message :=
  let put (p : Nat × List Text) : QByteArray :=
    .int p.1 :: QDataStream.write (fun text => [.qString (String.ofList text)]) p.2
  { type := TCP_AIS_ANSWER_DATA, data := QDataStream.write put map1.reverse }

/-- `filterData`, with the last zone of the zone manager. -/
def filterData (fp : Numerics) (conv : Conversions) (memory : Nat → Bracketed) (zone : AISZone)
    (coder : TcpAISCoder) (data : Text) : Option (TcpAISCoder × Message) := do
  let s ← scan memory coder.m_listBr data
  let map1 := s.m_listBr.zipIdx.filterMap fun (br, i) =>
    (parse fp conv zone data br).map fun vec => (i, vec)
  return ({ m_listBr := [] }, answer map1)

/-- `encode`. -/
def encode (fp : Numerics) (conv : Conversions) (memory : Nat → Bracketed) (zone : AISZone)
    (coder : TcpAISCoder) (data : List UInt8) : Option (TcpAISCoder × Option Message) := do
  let answer := readQString data
  if answer = [] then return (coder, some { type := TCP_EMPTY_MESSAGE, data := [] })
  else
    let (coder, message) ← filterData fp conv memory zone coder answer
    return (coder, some message)

theorem encode_nil (fp : Numerics) (conv : Conversions) (memory : Nat → Bracketed) (zone : AISZone)
    (coder : TcpAISCoder) : encode fp conv memory zone coder [] = some
      (coder, some { type := TCP_EMPTY_MESSAGE, data := [] }) := rfl

end TcpAISCoder

end ArmOd
