import ArmOd.Settings.DbController

/-!
# The settings manager

`DbManager` over the settings database. Asking for an object that is not there creates it with the
nine properties of a station, one INSERT after the other, so that every read may write. Nothing a
read writes changes what there was: the tables grow at the end, and a name that the dictionary gets
is one that it did not have.

The listeners that are notified of an update are left out.
-/

namespace ArmOd

namespace DbManager

variable {QVariant : Type} [Inhabited QVariant]

def DB_FREQUENCY_PROPERTY : QText := .latin1 "Frequency" (by decide)

def DB_SELECTED_PROPERTY : QText := .latin1 "Selected" (by decide)

def DB_CENTER_PROPERTY : QText := .latin1 "Center" (by decide)

def DB_START_PROPERTY : QText := .latin1 "Start" (by decide)

def DB_STOP_PROPERTY : QText := .latin1 "Stop" (by decide)

def DB_AVERAGING_PROPERTY : QText := .latin1 "Averaging" (by decide)

def DB_LEADING_OP_PROPERTY : QText := .latin1 "Leading OP" (by decide)

def DB_PANORAMA_START_PROPERTY : QText := .latin1 "Panorama start" (by decide)

def DB_PANORAMA_END_PROPERTY : QText := .latin1 "Panorama end" (by decide)

/-- The properties of a station with their values, in the order they are added. -/
@[irreducible] def stationProperties : List (QText × QText) :=
  let zero : QText := .latin1 "0" (by decide)
  [(DB_FREQUENCY_PROPERTY, .latin1 "1830" (by decide)), (DB_SELECTED_PROPERTY, zero),
    (DB_CENTER_PROPERTY, zero), (DB_START_PROPERTY, zero), (DB_STOP_PROPERTY, zero),
    (DB_LEADING_OP_PROPERTY, zero), (DB_AVERAGING_PROPERTY, zero),
    (DB_PANORAMA_START_PROPERTY, zero), (DB_PANORAMA_END_PROPERTY, zero)]

/-- `prop`, as it is when it is added. -/
def stationProperty (qt : VariantConversions QVariant) (pid : Int32) (prop : QText × QText) :
    Property QVariant :=
  { (Property.new : Property QVariant) with
    pid, name := prop.1, value := qt.ofString prop.2, state := 0, isEditable := true }

def createObject (qt : VariantConversions QVariant) (objectName : QText) :
    SettingsM QVariant (Object QVariant) := do
  let obj : Object QVariant := { (Object.new : Object QVariant) with
    name := objectName, pid := Int32.ofNat DbController.INVALID_INDEX, state := 0
    isEditable := false }
  let recordId ← DbController.addObject qt obj
  if recordId = DbController.INVALID_INDEX then
    return obj
  let s ← get
  return DbController.getObject qt s.db recordId

def createStation (qt : VariantConversions QVariant) (stationName : QText) :
    SettingsM QVariant (Object QVariant) := do
  let obj ← createObject qt stationName
  if obj.id = Int32.ofNat DbController.INVALID_INDEX then
    return obj
  stationProperties.forM fun prop => do
    let _ ← DbController.addProperty qt (stationProperty qt obj.id prop)
  return obj

def createSettingsNode (qt : VariantConversions QVariant) (objectName : QText) :
    SettingsM QVariant (Object QVariant) :=
  createStation qt objectName

def getSettingsNode (qt : VariantConversions QVariant) (objectName : QText) :
    SettingsM QVariant (SettingsNode QVariant) := do
  let s ← get
  let found := DbController.getObjectByName qt s.db objectName
  let obj ← if found.id = Int32.ofNat DbController.INVALID_INDEX then
      createSettingsNode qt objectName
    else pure found
  if obj.id = Int32.ofNat DbController.INVALID_INDEX then
    return SettingsNode.new
  let s ← get
  return { object := obj, properties := DbController.getProperties qt s.db obj.id.toUInt32.toNat }

def getProperty (qt : VariantConversions QVariant) (objectName propName : QText) :
    SettingsM QVariant (Property QVariant) := do
  let settingsNode ← getSettingsNode qt objectName
  return (settingsNode.properties.find? fun property =>
    propName.chars == property.name.chars).getD Property.new

def updateProperty (property : Property QVariant) : SettingsM QVariant Bool :=
  DbController.setPropertyValue property.id.toUInt32.toNat property.value

def updatePropertyValue (qt : VariantConversions QVariant) (objectName propName : QText)
    (value : QVariant) : SettingsM QVariant Bool := do
  let prop ← getProperty qt objectName propName
  if Int32.ofNat DbController.INVALID_INDEX = prop.id then
    return false
  updateProperty { prop with value }

/-- The body of the loop over the objects. -/
def updatePropertyOf (qt : VariantConversions QVariant) (propName : QText) (value : QVariant)
    (object : Object QVariant) : SettingsM QVariant PUnit := do
  let prop ← getProperty qt object.name propName
  if Int32.ofNat DbController.INVALID_INDEX = prop.id then
    return
  let _ ← updateProperty { prop with value }

def updatePropertyForAllObjects (qt : VariantConversions QVariant) (propName : QText)
    (value : QVariant) : SettingsM QVariant Bool := do
  let s ← get
  let objects := DbController.getAllObjects qt s.db
  if objects.isEmpty then
    return false
  objects.forM (updatePropertyOf qt propName value)
  return true

def getObjectName (qt : VariantConversions QVariant) (id : Nat) : SettingsM QVariant QText := do
  let s ← get
  let obj := DbController.getObject qt s.db id
  if obj.id = Int32.ofNat DbController.INVALID_INDEX then
    return .null
  return obj.name

def getPropertyValue (qt : VariantConversions QVariant) (objectName propName : QText) :
    SettingsM QVariant QVariant := do
  let prop ← getProperty qt objectName propName
  if Int32.ofNat DbController.INVALID_INDEX = prop.id then
    return default
  return prop.value

end DbManager

end ArmOd
