import ArmOd.Base.Stream
import ArmOd.Qt.Values

/-!
# QDataStream

A stream holds the values its operators wrote, each under its type: the operators of the primitive
types and of the Qt value types are inverse to each other. Reading a value of another type, or past
the end, fails. The containers are written as their size and their elements.
-/

namespace ArmOd

inductive Item where
  | quint16 (n : Nat)
  | quint32 (n : Nat)
  | int (i : Int)
  | double (d : Double)
  | qDateTime (d : QDateTime)
  | qDate (d : Int)
  | qTime (t : QTime)
  | qPointF (p : QPointF)
  | qString (s : String)
  /-- A byte that came from a socket. -/
  | byte (b : UInt8)
  deriving DecidableEq, Repr

abbrev QByteArray := List Item

namespace QDataStream

/-- The next value, where it is one of the type that is read. -/
def next {α : Type} (read : Item → Option α) : Reader Item α := fun
  | [] => none
  | item :: rest => (read item).map fun a => (a, rest)

def readQuint16 : Reader Item Nat := next fun | .quint16 n => some n | _ => none
def readQuint32 : Reader Item Nat := next fun | .quint32 n => some n | _ => none
def readInt : Reader Item Int := next fun | .int i => some i | _ => none
def readDouble : Reader Item Double := next fun | .double d => some d | _ => none
def readQDateTime : Reader Item QDateTime := next fun | .qDateTime d => some d | _ => none
def readQDate : Reader Item Int := next fun | .qDate d => some d | _ => none
def readQTime : Reader Item QTime := next fun | .qTime t => some t | _ => none
def readQPointF : Reader Item QPointF := next fun | .qPointF p => some p | _ => none
def readQString : Reader Item String := next fun | .qString s => some s | _ => none

/-- `operator<<` of a `QVector` and of a `QList`. -/
def write {α : Type} (put : α → QByteArray) (as : List α) : QByteArray :=
  .quint32 as.length :: as.flatMap put

/-- `operator>>` of a `QVector` and of a `QList`. -/
def readAll {α : Type} (get : Reader Item α) : Reader Item (List α) := readQuint32 >>= get.many

theorem carries_next {α : Type} {put : α → Item} {read : Item → Option α}
    (h : ∀ a, read (put a) = some a) :
    Carries (fun a => [put a]) (next read) id := by
  intro a rest
  change (read (put a)).map (fun a => (a, rest)) = _
  rw [h, Option.map_some, id]

theorem carries_container {α β : Type} {put : α → QByteArray} {get : Reader Item β} {f : α → β}
    (h : Carries put get f) :
    Carries (write put) (readAll get) (List.map f) :=
  Carries.container (carries_next fun _ => rfl) h

end QDataStream

end ArmOd
