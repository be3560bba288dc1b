import ArmOd.Base.Program
import ArmOd.Base.Table
import ArmOd.Settings.SettingsNode

/-!
# The settings database

The statements of `DbController`, on a record of the three tables: the objects, their properties and
the dictionary with the names of the properties. A SELECT answers with the rows in the order of
their ids. An INSERT or an UPDATE fails where the server says so, or where there is no id left;
`faults` ranges over every pattern of failures. The ids fit the `int` the program keeps them in.

The rows are as they were bound: what a column holds is a `QVariant`, of which `VariantConversions`
is asked. A text that is null is bound as NULL, and NULL is not equal to anything.
-/

namespace ArmOd

structure VariantConversions (QVariant : Type) where
  ofString : QText → QVariant
  ofInt : Int32 → QVariant
  ofBool : Bool → QVariant
  toInt : QVariant → Int32
  toBool : QVariant → Bool

/-- A row of `Objects`. -/
structure ObjectRow (QVariant : Type) where
  objectName : QText
  pid : Option Int
  state : QVariant
  editable : QVariant

/-- A row of `Properties`. -/
structure PropertyRow (QVariant : Type) where
  objectId : Int
  propId : Int
  value : QVariant
  state : QVariant
  editable : QVariant
  deriving DecidableEq, Repr

/-- A table whose ids are `int`. -/
abbrev SettingsTable (α : Type) := Table (2 ^ 31) α

structure SettingsDb (QVariant : Type) where
  objects : SettingsTable (ObjectRow QVariant)
  properties : SettingsTable (PropertyRow QVariant)
  propertyDictionary : SettingsTable QText

theorem one_le_intBound : 1 ≤ 2 ^ 31 := by decide

/-- A database without rows. -/
def SettingsDb.empty {QVariant : Type} : SettingsDb QVariant where
  objects := .empty one_le_intBound
  properties := .empty one_le_intBound
  propertyDictionary := .empty one_le_intBound

/-- The equality of SQL. -/
def QText.sqlEq (a b : QText) : Bool := a.units.isSome && a.units == b.units

/-- The database, the outcomes the server has in store for the coming INSERTs and UPDATEs, and
whether one of them has failed. -/
structure SettingsSession (QVariant : Type) where
  db : SettingsDb QVariant
  faults : List Bool := []
  failed : Bool := false

abbrev SettingsM (QVariant : Type) := StateM (SettingsSession QVariant)

namespace DbController

def INVALID_INDEX : Nat := 0

variable {QVariant : Type} [Inhabited QVariant]

/-- `QVariant::toUInt` of an integer. -/
def toUInt (n : Int) : Nat := (n % 2 ^ 32).toNat

/-! ### SELECT -/

def isPropInDictionary (db : SettingsDb QVariant) (propName : QText) : Nat :=
  (db.propertyDictionary.firstId (QText.sqlEq propName)).getD INVALID_INDEX

def getPropNameById (db : SettingsDb QVariant) (propId : Nat) : QText :=
  (db.propertyDictionary.get? propId).getD .null

def getProperties (qt : VariantConversions QVariant) (db : SettingsDb QVariant) (objectID : Nat) :
    List (Property QVariant) :=
  (db.properties.select fun row => row.objectId = objectID).map fun (id, row) =>
    { id := Int32.ofNat id
      pid := Int32.ofNat (toUInt row.objectId)
      name := getPropNameById db (toUInt row.propId)
      value := row.value
      state := qt.toInt row.state
      isEditable := qt.toBool row.editable
      type := .TypeProperty }

def getProperty (qt : VariantConversions QVariant) (db : SettingsDb QVariant) (propID : Nat) :
    Property QVariant :=
  match db.properties.get? propID with
  | none => Property.new
  | some row =>
    { id := Int32.ofNat propID
      pid := Int32.ofNat (toUInt row.objectId)
      name := getPropNameById db (toUInt row.propId)
      value := row.value
      state := qt.toInt row.state
      -- the column of the state
      isEditable := qt.toBool row.state
      type := .TypeProperty }

/-- The object of a row. -/
def objectOfRow (qt : VariantConversions QVariant) (id : Nat) (row : ObjectRow QVariant) :
    Object QVariant :=
  { id := Int32.ofNat id
    pid := Int32.ofNat (toUInt (row.pid.getD 0))
    name := row.objectName
    state := qt.toInt row.state
    isEditable := qt.toBool row.editable
    type := .TypeObject }

/-- `WHERE %1 = :value`. -/
def getObjectByParam (qt : VariantConversions QVariant) (db : SettingsDb QVariant)
    (param : Nat → ObjectRow QVariant → Bool) : Object QVariant :=
  match db.objects.rows.find? fun r => param r.1 r.2 with
  | none => Object.new
  | some (id, row) => objectOfRow qt id row

def getObject (qt : VariantConversions QVariant) (db : SettingsDb QVariant) (objectId : Nat) :
    Object QVariant :=
  getObjectByParam qt db fun id _ => id == objectId

/-- `getObject` of a name. -/
def getObjectByName (qt : VariantConversions QVariant) (db : SettingsDb QVariant)
    (objectName : QText) : Object QVariant :=
  getObjectByParam qt db fun _ row => objectName.sqlEq row.objectName

def getAllObjects (qt : VariantConversions QVariant) (db : SettingsDb QVariant) :
    List (Object QVariant) :=
  db.objects.rows.map fun (id, row) => objectOfRow qt id row

/-! ### INSERT and UPDATE -/

/-- The server is sent a statement, which it may refuse. -/
def exec {α : Type} (refused : α)
    (statement : SettingsDb QVariant → Option (α × SettingsDb QVariant)) : SettingsM QVariant α :=
  fun s =>
    match if s.faults.headD false then none else statement s.db with
    | some (answer, db) => (answer, { s with db, faults := s.faults.tail })
    | none => (refused, { s with faults := s.faults.tail, failed := true })

def addObject (qt : VariantConversions QVariant) (object : Object QVariant) :
    SettingsM QVariant Nat :=
  exec INVALID_INDEX fun db =>
    let row : ObjectRow QVariant :=
      { objectName := object.name
        pid := if object.pid ≠ 0 then some object.pid.toInt else none
        state := qt.ofInt object.state
        editable := qt.ofBool object.isEditable }
    (db.objects.insert row).map fun (id, objects) => (id, { db with objects })

def addPropToDictionaty (propName : QText) : SettingsM QVariant Nat :=
  exec INVALID_INDEX fun db => (db.propertyDictionary.insert propName).map
    fun (id, propertyDictionary) => (id, { db with propertyDictionary })

/-- The INSERT into `Properties`. -/
def insertProperty (qt : VariantConversions QVariant) (property : Property QVariant)
    (propNameIndex : Nat) : SettingsM QVariant Nat :=
  exec INVALID_INDEX fun db =>
    let row : PropertyRow QVariant :=
      { objectId := property.pid.toInt
        propId := propNameIndex
        value := property.value
        state := qt.ofInt property.state
        editable := qt.ofBool property.isEditable }
    (db.properties.insert row).map fun (id, properties) => (id, { db with properties })

/-- The name is looked up, and added where it is not there. -/
def propNameIndex (propName : QText) : SettingsM QVariant Nat := do
  let s ← get
  let found := isPropInDictionary s.db propName
  if found = INVALID_INDEX then addPropToDictionaty propName else return found

def addProperty (qt : VariantConversions QVariant) (property : Property QVariant) :
    SettingsM QVariant Nat := do
  let propNameIndex ← propNameIndex property.name
  if propNameIndex = INVALID_INDEX then
    return INVALID_INDEX
  insertProperty qt property propNameIndex

/-- `UPDATE Properties SET %1 = :value WHERE ID = :id`. -/
def setPropertyParam (propId : Nat) (set : PropertyRow QVariant → PropertyRow QVariant) :
    SettingsM QVariant Bool :=
  exec false fun db => some (true, { db with properties := db.properties.modifyId propId set })

def setPropertyValue (propId : Nat) (propValue : QVariant) : SettingsM QVariant Bool :=
  setPropertyParam propId fun row => { row with value := propValue }

/-! ### The two readers of a property -/

variable {qt : VariantConversions QVariant} {db : SettingsDb QVariant} {id objectId : Nat}
  {row : PropertyRow QVariant}

theorem ofNat_inj {a b : Nat} (ha : a < 2 ^ 31) (hb : b < 2 ^ 31)
    (h : Int32.ofNat a = Int32.ofNat b) : a = b := by
  have hint := congrArg Int32.toInt h
  rw [Int32.toInt_ofNat_of_lt ha, Int32.toInt_ofNat_of_lt hb] at hint
  exact Int.ofNat_inj.mp hint

/-- The entry of a row in a list. -/
def listEntry (qt : VariantConversions QVariant) (db : SettingsDb QVariant) (id : Nat)
    (row : PropertyRow QVariant) : Property QVariant :=
  { id := Int32.ofNat id
    pid := Int32.ofNat (toUInt row.objectId)
    name := getPropNameById db (toUInt row.propId)
    value := row.value
    state := qt.toInt row.state
    isEditable := qt.toBool row.editable
    type := .TypeProperty }

theorem getProperty_of_mem (hrow : (id, row) ∈ db.properties.rows) :
    getProperty qt db id = { listEntry qt db id row with isEditable := qt.toBool row.state } := by
  rw [getProperty, db.properties.get?_eq_some_iff.mpr hrow]
  rfl

/-- The list has one entry with the id of a row. -/
theorem filter_getProperties (hrow : (id, row) ∈ db.properties.rows)
    (hobject : row.objectId = objectId) :
    (getProperties qt db objectId).filter (fun entry => entry.id = Int32.ofNat id) =
      [listEntry qt db id row] := by
  have hrows : (db.properties.select fun row => row.objectId = objectId).filter
      (fun r => Int32.ofNat r.1 = Int32.ofNat id) = [(id, row)] := by
    have hnodup : db.properties.rows.Nodup :=
      db.properties.sorted.imp fun hlt heq => absurd (congrArg Prod.fst heq) (Nat.ne_of_lt hlt)
    refine List.perm_singleton.mp ((List.perm_ext_iff_of_nodup ((hnodup.filter _).filter _)
      (List.nodup_singleton _)).mpr fun r => ?_)
    rw [List.mem_filter, List.mem_filter, List.mem_singleton, decide_eq_true_iff,
      decide_eq_true_iff]
    constructor
    · rintro ⟨⟨hr, -⟩, hid⟩
      obtain ⟨key, row'⟩ := r
      obtain rfl := ofNat_inj (db.properties.lt_limit hr) (db.properties.lt_limit hrow) hid
      rw [db.properties.eq_of_mem_of_mem hr hrow]
    · rintro rfl
      exact ⟨⟨hrow, hobject⟩, rfl⟩
  rw [getProperties, List.filter_map]
  exact congrArg (List.map _) hrows

/-- **The two readers agree** on a row exactly when its state and its editability are the same truth
value. -/
theorem getProperty_agrees_iff (qt : VariantConversions QVariant) (db : SettingsDb QVariant)
    (objectId id : Nat) (row : PropertyRow QVariant) (hrow : (id, row) ∈ db.properties.rows)
    (hobject : row.objectId = objectId) :
    (getProperties qt db objectId).filter (fun entry => entry.id = Int32.ofNat id) =
        [getProperty qt db id] ↔
      qt.toBool row.state = qt.toBool row.editable := by
  rw [filter_getProperties hrow hobject, getProperty_of_mem hrow, List.singleton_inj]
  constructor
  · exact fun heq => (congrArg BaseItem.isEditable heq).symm
  · exact fun heq => by rw [heq]; rfl

/-- Integers, of which all but zero are true. -/
def integers : VariantConversions Int where
  ofString _ := 0
  ofInt n := n.toInt
  ofBool b := if b then 1 else 0
  toInt n := Int32.ofInt n
  toBool n := n ≠ 0

/-- A database with one property, which has the state 0. -/
def oneProperty (editable : Int) : SettingsDb Int where
  objects := .empty one_le_intBound
  properties :=
    { rows := [(1, { objectId := 1, propId := 1, value := 5, state := 0, editable })]
      nextId := 2
      sorted := List.pairwise_singleton _ _
      fresh := by simp
      positive := by simp
      nextId_pos := by decide
      bounded := by decide }
  propertyDictionary := .empty one_le_intBound

/-- A property that cannot be edited. -/
theorem getProperty_agrees_oneProperty :
    (getProperties integers (oneProperty 0) 1).filter (fun entry => entry.id = Int32.ofNat 1) =
      [getProperty integers (oneProperty 0) 1] :=
  (getProperty_agrees_iff integers (oneProperty 0) 1 1 _ List.mem_cons_self rfl).mpr rfl

/-- A property that can be edited is read as one that cannot. -/
theorem not_getProperty_agrees :
    ¬(getProperties integers (oneProperty 1) 1).filter (fun entry => entry.id = Int32.ofNat 1) =
      [getProperty integers (oneProperty 1) 1] := by
  intro hagree
  exact absurd (congrArg (List.map BaseItem.isEditable) hagree) (by decide)

end DbController

end ArmOd
