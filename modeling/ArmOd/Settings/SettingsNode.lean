import ArmOd.Base.Stream
import ArmOd.Qt.ByteStream

/-!
# Settings nodes on the wire

The stream operators and the list converters of `Object.h`, `Property.h` and `SettingsNode.h`. A
node is an object with its list of properties. The numbers are written as `quint32` and cast back to
`int`; the value of an object is not written, that of a property is.

The operators of Qt are a parameter, `StreamOperators`, with the one thing the code relies on: what
they write, they read back. A `QVariant` is a value of any type with a default one.
-/

namespace ArmOd

/-- The stream operators of Qt, on a byte array of type `List β`. -/
structure StreamOperators (β QVariant : Type) where
  putQuint32 : UInt32 → List β
  getQuint32 : Reader β UInt32
  putQString : QText → List β
  getQString : Reader β QText
  putBool : Bool → List β
  getBool : Reader β Bool
  putQVariant : QVariant → List β
  getQVariant : Reader β QVariant
  putQList : {α : Type} → (α → List β) → List α → List β
  getQList : {α : Type} → Reader β α → Reader β (List α)
  carriesQuint32 : Carries putQuint32 getQuint32 id
  carriesQString : Carries putQString getQString id
  carriesBool : Carries putBool getBool id
  carriesQVariant : Carries putQVariant getQVariant id
  carriesQList : ∀ {α γ : Type} {put : α → List β} {get : Reader β γ} {f : α → γ},
    Carries put get f → Carries (putQList put) (getQList get) (List.map f)

inductive BaseItemType where
  | TypeObject
  | TypeProperty
  | TypeUnknown
  deriving DecidableEq, Repr

structure BaseItem (QVariant : Type) [Inhabited QVariant] where
  id : Int32 := 0
  pid : Int32 := 0
  name : QText := .null
  value : QVariant := default
  state : Int32 := 0
  isEditable : Bool := false
  type : BaseItemType

variable {β QVariant : Type} [Inhabited QVariant]

abbrev Object (QVariant : Type) [Inhabited QVariant] := BaseItem QVariant

abbrev Property (QVariant : Type) [Inhabited QVariant] := BaseItem QVariant

structure SettingsNode (QVariant : Type) [Inhabited QVariant] where
  object : Object QVariant
  properties : List (Property QVariant)

namespace Object

/-- The constructor. -/
def new : Object QVariant := { type := .TypeObject }

/-- `operator<<`. -/
def put (qt : StreamOperators β QVariant) (object : Object QVariant) : List β :=
  qt.putQuint32 object.id.toUInt32 ++ qt.putQuint32 object.pid.toUInt32 ++
    qt.putQString object.name ++ qt.putQuint32 object.state.toUInt32 ++
    qt.putBool object.isEditable

/-- `operator>>`. -/
def get (qt : StreamOperators β QVariant) (object : Object QVariant) :
    Reader β (Object QVariant) := do
  let inId ← qt.getQuint32
  let inPid ← qt.getQuint32
  let name ← qt.getQString
  let inState ← qt.getQuint32
  let isEditable ← qt.getBool
  return { object with
    name, isEditable, id := inId.toInt32, pid := inPid.toInt32, state := inState.toInt32 }

end Object

namespace Property

/-- The constructor. -/
def new : Property QVariant := { type := .TypeProperty }

/-- `operator<<`. -/
def put (qt : StreamOperators β QVariant) (property : Property QVariant) : List β :=
  qt.putQuint32 property.id.toUInt32 ++ qt.putQuint32 property.pid.toUInt32 ++
    qt.putQString property.name ++ qt.putQVariant property.value ++
    qt.putQuint32 property.state.toUInt32 ++ qt.putBool property.isEditable

/-- `operator>>`. -/
def get (qt : StreamOperators β QVariant) (property : Property QVariant) :
    Reader β (Property QVariant) := do
  let inId ← qt.getQuint32
  let inPid ← qt.getQuint32
  let name ← qt.getQString
  let value ← qt.getQVariant
  let inState ← qt.getQuint32
  let isEditable ← qt.getBool
  return { property with
    name, value, isEditable
    id := inId.toInt32, pid := inPid.toInt32, state := inState.toInt32 }

end Property

namespace SettingsNode

/-- The constructor. -/
def new : SettingsNode QVariant := { object := Object.new, properties := [] }

/-- `operator<<`. -/
def put (qt : StreamOperators β QVariant) (settingsNode : SettingsNode QVariant) : List β :=
  Object.put qt settingsNode.object ++ qt.putQList (Property.put qt) settingsNode.properties

/-- `operator>>`. -/
def get (qt : StreamOperators β QVariant) (settingsNode : SettingsNode QVariant) :
    Reader β (SettingsNode QVariant) := do
  let object ← Object.get qt settingsNode.object
  let properties ← qt.getQList (Property.get qt Property.new)
  return { object, properties }

def settingsNodeListToByteArray (qt : StreamOperators β QVariant)
    (settingsNodeList : List (SettingsNode QVariant)) : List β :=
  qt.putQList (put qt) settingsNodeList

def settingsNodeListFromByteArray (qt : StreamOperators β QVariant) (inBA : List β) :
    Option (List (SettingsNode QVariant)) :=
  ((qt.getQList (get qt new)).run inBA).map Prod.fst

/-! ### What comes back -/

/-- An object as it is read back into `object`: its value is not in the stream. -/
def readInto (object sent : Object QVariant) : Object QVariant :=
  { object with
    id := sent.id, pid := sent.pid, name := sent.name, state := sent.state
    isEditable := sent.isEditable }

/-- A node as it is read back. -/
def received (sent : SettingsNode QVariant) : SettingsNode QVariant where
  object := readInto Object.new sent.object
  properties := sent.properties.map fun property =>
    { readInto Property.new property with value := property.value }

variable (qt : StreamOperators β QVariant)

theorem carries_object (object : Object QVariant) :
    Carries (Object.put qt) (Object.get qt object) (readInto object) := by
  intro sent rest
  simp only [Object.put, Object.get, List.append_assoc, StateT.run_bind,
    qt.carriesQuint32 _ _, qt.carriesQString _ _, qt.carriesBool _ _, Option.bind_eq_bind,
    Option.bind_some]
  rfl

theorem carries_property (property : Property QVariant) :
    Carries (Property.put qt) (Property.get qt property) fun sent =>
      { readInto property sent with value := sent.value } := by
  intro sent rest
  simp only [Property.put, Property.get, List.append_assoc, StateT.run_bind,
    qt.carriesQuint32 _ _, qt.carriesQString _ _, qt.carriesQVariant _ _, qt.carriesBool _ _,
    Option.bind_eq_bind, Option.bind_some]
  rfl

theorem carries_settingsNode (settingsNode : SettingsNode QVariant) :
    Carries (put qt) (get qt settingsNode) fun sent =>
      { received sent with object := readInto settingsNode.object sent.object } := by
  intro sent rest
  have hobject := carries_object qt settingsNode.object sent.object
  have hproperties := qt.carriesQList (carries_property qt Property.new) sent.properties
  simp only [put, get, List.append_assoc, StateT.run_bind, hobject, hproperties,
    Option.bind_eq_bind, Option.bind_some]
  rfl

theorem settingsNodeListFromByteArray_toByteArray (list : List (SettingsNode QVariant)) :
    settingsNodeListFromByteArray qt (settingsNodeListToByteArray qt list) =
      some (list.map received) := by
  rw [settingsNodeListFromByteArray, settingsNodeListToByteArray,
    (qt.carriesQList (carries_settingsNode qt new)).run]
  rfl

/-! ### Round trips -/

/-- The objects agree on what an object has. -/
structure SameObject (a b : Object QVariant) : Prop where
  id : a.id = b.id
  pid : a.pid = b.pid
  name : a.name = b.name
  state : a.state = b.state
  isEditable : a.isEditable = b.isEditable

/-- The properties agree on all fields. -/
structure SameProperty (a b : Property QVariant) : Prop extends SameObject a b where
  value : a.value = b.value

/-- The nodes agree, with equal properties in order. -/
structure SameNode (a b : SettingsNode QVariant) : Prop where
  object : SameObject a.object b.object
  properties : List.Forall₂ SameProperty a.properties b.properties

theorem sameNode_received (sent : SettingsNode QVariant) : SameNode (received sent) sent where
  object := ⟨rfl, rfl, rfl, rfl, rfl⟩
  properties := List.forall₂_map_left_iff.mpr
    (List.forall₂_same.mpr fun _ _ => ⟨⟨rfl, rfl, rfl, rfl, rfl⟩, rfl⟩)

/-- **Settings nodes.** Reading back a list of nodes gives the same nodes in the same order: all
fields of their objects but the value, and all fields of their properties. -/
theorem settingsNodeList_roundTrips
    (list : List (SettingsNode QVariant)) :
    ∃ back, settingsNodeListFromByteArray qt (settingsNodeListToByteArray qt list) = some back ∧
      List.Forall₂ SameNode back list :=
  ⟨list.map received, settingsNodeListFromByteArray_toByteArray qt list,
    List.forall₂_map_left_iff.mpr (List.forall₂_same.mpr fun node _ => sameNode_received node)⟩

end SettingsNode

/-! ### A stream of typed values

Operators that behave as `StreamOperators` says: each value is one token with its type, and a list
is its size with its elements. -/

inductive Token (QVariant : Type) where
  | size (n : Nat)
  | quint32 (n : UInt32)
  | qString (s : QText)
  | bool (b : Bool)
  | qVariant (v : QVariant)

namespace Token

/-- The next token, where it is one of the type that is read. -/
def next {α : Type} (read : Token QVariant → Option α) : Reader (Token QVariant) α := fun
  | [] => none
  | token :: rest => (read token).map fun a => (a, rest)

omit [Inhabited QVariant] in
theorem carries_next {α : Type} {put : α → Token QVariant} {read : Token QVariant → Option α}
    (h : ∀ a, read (put a) = some a) : Carries (fun a => [put a]) (next read) id := by
  intro a rest
  change (read (put a)).map (fun a => (a, rest)) = _
  rw [h, Option.map_some, id]

def operators (QVariant : Type) : StreamOperators (Token QVariant) QVariant where
  putQuint32 n := [quint32 n]
  getQuint32 := next fun | quint32 n => some n | _ => none
  putQString s := [qString s]
  getQString := next fun | qString s => some s | _ => none
  putBool b := [bool b]
  getBool := next fun | bool b => some b | _ => none
  putQVariant v := [qVariant v]
  getQVariant := next fun | qVariant v => some v | _ => none
  putQList put as := [size as.length] ++ as.flatMap put
  getQList get := (next fun | size n => some n | _ => none) >>= get.many
  carriesQuint32 := carries_next fun _ => rfl
  carriesQString := carries_next fun _ => rfl
  carriesBool := carries_next fun _ => rfl
  carriesQVariant := carries_next fun _ => rfl
  carriesQList h := Carries.container (carries_next fun _ => rfl) h

end Token

namespace SettingsNode

/-- A node whose numbers are negative. -/
def negativeNodes : List (SettingsNode Nat) :=
  [{ object := { (Object.new : Object Nat) with id := -1 }
     properties := [{ (Property.new : Property Nat) with id := -7, pid := -1, value := 5 }] }]

theorem settingsNodeList_roundTrips_negativeNodes :
    ∃ back, settingsNodeListFromByteArray (Token.operators Nat)
      (settingsNodeListToByteArray (Token.operators Nat) negativeNodes) = some back ∧
      List.Forall₂ SameNode back negativeNodes :=
  settingsNodeList_roundTrips (Token.operators Nat) negativeNodes

end SettingsNode

end ArmOd
