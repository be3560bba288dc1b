import ArmOd.Settings.PropertyValues

/-!
# Stations with all their properties

The object of a station and its nine properties are ten INSERTs (and those into the dictionary), and
whether they are tried again is decided by the object alone. A creation that stops at the object is
made up for by a later call; one that loses a property is not.
-/

namespace ArmOd

variable {QVariant : Type}

/-- A call of the manager. -/
inductive SettingsOp (QVariant : Type) [Inhabited QVariant] where
  | getSettingsNode (objectName : QText)
  | updateProperty (property : Property QVariant)
  | updatePropertyValue (objectName propName : QText) (value : QVariant)
  | updatePropertyForAllObjects (propName : QText) (value : QVariant)
  | getObjectName (id : Nat)
  | getPropertyValue (objectName propName : QText)

/-- A call, with the failures of its statements. -/
structure SettingsCall (QVariant : Type) [Inhabited QVariant] where
  op : SettingsOp QVariant
  faults : List Bool := []

namespace DbManager

variable [Inhabited QVariant]

/-- The session after a call. -/
def after (qt : VariantConversions QVariant) (s : SettingsSession QVariant) :
    SettingsOp QVariant → SettingsSession QVariant
  | .getSettingsNode objectName => ((getSettingsNode qt objectName).run s).2
  | .updateProperty property => ((updateProperty property).run s).2
  | .updatePropertyValue objectName propName value =>
      ((updatePropertyValue qt objectName propName value).run s).2
  | .updatePropertyForAllObjects propName value =>
      ((updatePropertyForAllObjects qt propName value).run s).2
  | .getObjectName id => ((getObjectName qt id).run s).2
  | .getPropertyValue objectName propName => ((getPropertyValue qt objectName propName).run s).2

/-- The database after a call. -/
def step (qt : VariantConversions QVariant) (db : SettingsDb QVariant)
    (call : SettingsCall QVariant) : SettingsDb QVariant :=
  (after qt { db, faults := call.faults } call.op).db

/-- The call asks for an object by its name. -/
def AsksFor (name : QText) : SettingsOp QVariant → Prop
  | .getSettingsNode objectName => objectName = name
  | .updatePropertyValue objectName _ _ => objectName = name
  | .getPropertyValue objectName _ => objectName = name
  | _ => False

/-- Asking for the object leaves it with all properties or not at all: the name is null or there, the
INSERT of the object fails, or every property is stored. -/
def CreatesWhole (qt : VariantConversions QVariant) (name : QText) (s : SettingsSession QVariant) :
    Prop :=
  name.units = none ∨ s.db.objectId? name ≠ none ∨ ¬s.Accepts s.db.objects ∨
    Along (addStationProperty qt (Int32.ofNat s.db.objects.nextId))
      (fun s' prop => s'.Stores s.db.objects.nextId prop.1)
      ((DbController.addObject qt (newObject name)).run s).2 stationProperties

/-- The node has the nine properties of a station. -/
def IsStation (node : SettingsNode QVariant) : Prop :=
  ∀ prop ∈ stationProperties, ∃ property ∈ node.properties, property.name.chars = prop.1.chars

instance (node : SettingsNode QVariant) : Decidable (IsStation node) :=
  inferInstanceAs (Decidable (∀ prop ∈ stationProperties, ∃ property ∈ node.properties,
    property.name.chars = prop.1.chars))

/-- After any calls, in which the object is not left half created, asking for it without a failure
returns a station. -/
def StaysWhole (qt : VariantConversions QVariant) (name : QText) (db : SettingsDb QVariant) :
    Prop :=
  ∀ later : List (SettingsCall QVariant),
    Along (step qt) (fun db call => AsksFor name call.op →
      CreatesWhole qt name { db, faults := call.faults }) db later →
    ∀ faults, ((getSettingsNode qt name).run { db := later.foldl (step qt) db, faults }).2.failed =
        false →
      IsStation ((getSettingsNode qt name).run { db := later.foldl (step qt) db, faults }).1

end DbManager

/-- The object, where it is there, has the properties of a station. -/
def SettingsDb.Whole (db : SettingsDb QVariant) (name : QText) : Prop :=
  ∀ id, db.objectId? name = some id → ∀ prop ∈ DbManager.stationProperties, db.HasProperty id prop.1

namespace SettingsDb

variable {db : SettingsDb QVariant} {id key : Nat} {name n : QText} {v : QVariant}

theorem objectId?_null (h : name.units = none) : db.objectId? name = none :=
  Table.firstId_eq_none.mpr fun r _ => by rw [QText.sqlEq, h]; rfl

theorem HasProperty.setValue (h : db.HasProperty id n) : (db.setValue key v).HasProperty id n := by
  obtain ⟨r, hr, hid, hname⟩ := h
  refine ⟨_, List.mem_map_of_mem hr, ?_, ?_⟩
  · dsimp only
    split <;> exact hid
  · dsimp only
    split <;> exact hname

theorem Whole.setValue (h : db.Whole name) : (db.setValue key v).Whole name :=
  fun id hid prop hprop => (h id hid prop hprop).setValue

end SettingsDb

namespace DbManager

variable [Inhabited QVariant] {qt : VariantConversions QVariant} {db : SettingsDb QVariant}
  {s s' : SettingsSession QVariant} {name o p : QText} {v : QVariant} {id : Nat}
  {node : SettingsNode QVariant}

/-! ### One call -/

theorem run_addObject_of_accepts {t : SettingsTable (ObjectRow QVariant)}
    (haccepts : s.Accepts s.db.objects)
    (ht : s.db.objects.insert (objectRow qt name) = some (s.db.objects.nextId, t)) :
    ((DbController.addObject qt (newObject name)).run s).2 = s.withObjects t := by
  rcases run_addObject qt name s with ⟨-, t', ht', hrun⟩ | ⟨hrefused, -⟩
  · obtain ⟨-, rfl⟩ := Prod.mk.inj (Option.some.inj (ht.symm.trans ht'))
    rw [hrun]
  · exact absurd haccepts hrefused

/-- The new object has all properties exactly when every round of the loop stores one. -/
theorem hasProperty_iff_stores {t : SettingsTable (ObjectRow QVariant)}
    (haccepts : s.Accepts s.db.objects)
    (ht : s.db.objects.insert (objectRow qt name) = some (s.db.objects.nextId, t)) :
    (∀ prop ∈ stationProperties, (addStationProperties qt s.db.objects.nextId
        (s.withObjects t)).db.HasProperty s.db.objects.nextId prop.1) ↔
      Along (addStationProperty qt (Int32.ofNat s.db.objects.nextId))
        (fun s' prop => s'.Stores s.db.objects.nextId prop.1)
        ((DbController.addObject qt (newObject name)).run s).2 stationProperties := by
  rw [run_addObject_of_accepts haccepts ht]
  exact hasProperty_foldl_iff names_stationProperties (Int32.toInt_ofNat_of_lt haccepts.2)

theorem whole_getSettingsNode (h : s.db.Whole name) (hcreates : o = name → CreatesWhole qt name s)
    (hrun : (getSettingsNode qt o).run s = (node, s')) : s'.db.Whole name := by
  have hgrows := @grows_getSettingsNode _ o _ qt s
  rw [hrun] at hgrows
  rcases getSettingsNode_cases hrun with
    ⟨id, -, -, rfl⟩ | ⟨-, -, -, rfl⟩ | ⟨hnone, haccepts, t, ht, -, rfl⟩
  · exact h
  · exact h
  · intro id hid prop hprop
    by_cases hname : name = o
    · -- the object of the name is the new one
      subst hname
      have hunits : name.units ≠ none := fun hnull =>
        absurd ((SettingsDb.objectId?_null hnull).symm.trans hid) nofun
      have hstores := (((hcreates rfl).resolve_left hunits).resolve_left
        (not_not.mpr hnone)).resolve_left (not_not.mpr haccepts)
      rw [objectId?_insert_self ht hnone hunits] at hid
      obtain rfl := Option.some.inj hid
      exact (hasProperty_iff_stores haccepts ht).mpr hstores prop hprop
    · rw [objectId?_insert_of_ne ht hname] at hid
      exact (h id hid prop hprop).grows (names_stationProperties.2 prop hprop) hgrows.db

theorem db_updateProperty (property : Property QVariant) (s : SettingsSession QVariant) :
    ((updateProperty property).run s).2.db = s.db ∨
      ((updateProperty property).run s).2.db =
        s.db.setValue property.id.toUInt32.toNat property.value := by
  rw [updateProperty, DbController.setPropertyValue, DbController.setPropertyParam]
  cases hfault : s.faults.headD false with
  | true =>
      rw [DbController.run_exec_of_none fun hno => absurd (hfault.symm.trans hno) (by decide)]
      exact Or.inl rfl
  | false =>
      rw [DbController.run_exec_of_some hfault rfl]
      exact Or.inr rfl

theorem db_updatePropertyOf (object : Object QVariant)
    (hrun : (getSettingsNode qt object.name).run s = (node, s')) :
    ((updatePropertyOf qt p v object).run s).2.db = s'.db ∨
      ∃ key, ((updatePropertyOf qt p v object).run s).2.db = s'.db.setValue key v := by
  have hread := run_getProperty (p := p) hrun
  rw [updatePropertyOf, run_bind, hread, run_ite]
  dsimp only
  split
  · exact Or.inl rfl
  · rcases db_updateProperty _ s' with hsame | hset
    · exact Or.inl hsame
    · exact Or.inr ⟨_, hset⟩

/-- The loop over all objects asks for objects that are there, or whose names are null. -/
theorem whole_foldl_updatePropertyOf (objects : List (Object QVariant)) (h : s.db.Whole name)
    (hthere : ∀ object ∈ objects, object.name = name →
      name.units = none ∨ s.db.objectId? name ≠ none) :
    ((objects.forM (updatePropertyOf qt p v)).run s).2.db.Whole name := by
  induction objects generalizing s with
  | nil => exact h
  | cons object objects ih =>
      obtain ⟨⟨node, s'⟩, hrun⟩ : ∃ answer, (getSettingsNode qt object.name).run s = answer :=
        ⟨_, rfl⟩
      have hgrows := @grows_getSettingsNode _ object.name _ qt s
      rw [hrun] at hgrows
      have hwhole : s'.db.Whole name := whole_getSettingsNode h (fun hname =>
        (hthere object List.mem_cons_self hname).imp_right Or.inl) hrun
      have hkept : ∀ other ∈ objects, other.name = name →
          name.units = none ∨ s'.db.objectId? name ≠ none := by
        intro other hother hname
        refine (hthere other (List.mem_cons_of_mem _ hother) hname).imp_right fun hid => ?_
        obtain ⟨id, hid⟩ := Option.ne_none_iff_exists'.mp hid
        rw [hgrows.db.objectId? hid]
        exact Option.some_ne_none id
      rw [run_forM_cons]
      rcases db_updatePropertyOf (p := p) (v := v) object hrun with hsame | ⟨key, hset⟩
      · exact ih (hsame ▸ hwhole) (hsame ▸ hkept)
      · exact ih (hset ▸ hwhole.setValue) (hset ▸ hkept)

theorem objectId?_of_mem_getAllObjects {object : Object QVariant}
    (hmem : object ∈ DbController.getAllObjects qt db) :
    object.name.units = none ∨ db.objectId? object.name ≠ none := by
  obtain ⟨⟨id, row⟩, hr, rfl⟩ := List.mem_map.mp hmem
  refine or_iff_not_imp_left.mpr fun hunits hnone => ?_
  have hfalse : row.objectName.sqlEq row.objectName = false :=
    Table.firstId_eq_none.mp hnone (id, row) hr
  have hsame : row.objectName.sqlEq row.objectName = true := QText.sqlEq_self hunits
  rw [hsame] at hfalse
  cases hfalse

/-- **One call** keeps the object whole. -/
theorem whole_step {call : SettingsCall QVariant} (h : db.Whole name)
    (hcreates : AsksFor name call.op → CreatesWhole qt name { db, faults := call.faults }) :
    (step qt db call).Whole name := by
  obtain ⟨op, faults⟩ := call
  rw [step]
  cases op with
  | getSettingsNode objectName =>
      exact whole_getSettingsNode (s := { db, faults }) h hcreates rfl
  | getPropertyValue objectName propName =>
      obtain ⟨⟨node, s'⟩, hrun⟩ :
        ∃ answer, (getSettingsNode qt objectName).run { db, faults } = answer := ⟨_, rfl⟩
      have hwhole : s'.db.Whole name := whole_getSettingsNode (s := { db, faults }) h hcreates hrun
      have hread := run_getProperty (p := propName) hrun
      rw [after, getPropertyValue, run_bind, hread, run_ite]
      dsimp only
      split <;> exact hwhole
  | updatePropertyValue objectName propName value =>
      obtain ⟨⟨node, s'⟩, hrun⟩ :
        ∃ answer, (getSettingsNode qt objectName).run { db, faults } = answer := ⟨_, rfl⟩
      have hwhole : s'.db.Whole name := whole_getSettingsNode (s := { db, faults }) h hcreates hrun
      rw [after]
      rcases run_updatePropertyValue (p := propName) (v := value) hrun with
        ⟨-, hdb⟩ | ⟨-, id, r, -, -, hdb⟩
      · rw [hdb]
        exact hwhole
      · rw [hdb]
        exact hwhole.setValue
  | updateProperty property =>
      rw [after]
      rcases db_updateProperty property { db, faults } with hdb | hdb
      · rw [hdb]
        exact h
      · rw [hdb]
        exact h.setValue
  | getObjectName id =>
      rw [after, getObjectName, run_bind, run_get, run_ite]
      split <;> exact h
  | updatePropertyForAllObjects propName value =>
      rw [after, updatePropertyForAllObjects, run_bind, run_get, run_ite]
      dsimp only
      split
      · exact h
      · refine whole_foldl_updatePropertyOf _ h fun object hmem hname => ?_
        exact hname ▸ objectId?_of_mem_getAllObjects hmem

/-! ### Asking for it afterwards -/

theorem isStation_iff (hproperties : node.properties = DbController.getProperties qt db id) :
    IsStation node ↔ ∀ prop ∈ stationProperties, db.HasProperty id prop.1 := by
  refine forall₂_congr fun prop _ => ?_
  rw [hproperties]
  constructor
  · rintro ⟨property, hproperty, hname⟩
    obtain ⟨r, hr, rfl⟩ := List.mem_map.mp hproperty
    obtain ⟨hr, hid⟩ := List.mem_filter.mp hr
    exact ⟨r, hr, of_decide_eq_true hid, hname⟩
  · rintro ⟨r, hr, hid, hname⟩
    exact ⟨_, List.mem_map_of_mem (List.mem_filter.mpr ⟨hr, decide_eq_true hid⟩), hname⟩

theorem isStation_of_whole (h : s.db.Whole name)
    (hrun : (getSettingsNode qt name).run s = (node, s')) (hfailed : s'.failed = false) :
    IsStation node := by
  rcases getSettingsNode_cases hrun with
    ⟨id, hid, hproperties, rfl⟩ | ⟨-, -, -, rfl⟩ | ⟨-, haccepts, t, ht, hproperties, rfl⟩
  · exact (isStation_iff hproperties).mpr (h id hid)
  · cases hfailed
  · refine (isStation_iff hproperties).mpr ((hasProperty_iff_stores haccepts ht).mpr ?_)
    rw [run_addObject_of_accepts haccepts ht]
    exact along_of_not_failed names_stationProperties hfailed

/-- Asked for once more, an object that is there is what it is in the tables. -/
theorem hasProperty_of_staysWhole (hid : db.objectId? name = some id)
    (hstays : StaysWhole qt name db) : ∀ prop ∈ stationProperties, db.HasProperty id prop.1 := by
  have hrun := @run_getSettingsNode_of_some _ name id _ qt { db } hid
  have hagain := hstays [] trivial []
  rw [List.foldl_nil, hrun] at hagain
  exact (isStation_iff rfl).mp (hagain rfl)

theorem createsWhole_of_staysWhole (hunknown : s.db.objectId? name = none)
    (hstays : StaysWhole qt name ((getSettingsNode qt name).run s).2.db) :
    CreatesWhole qt name s := by
  by_cases hnull : name.units = none
  · exact Or.inl hnull
  · obtain ⟨⟨node, s'⟩, hrun⟩ : ∃ answer, (getSettingsNode qt name).run s = answer := ⟨_, rfl⟩
    rw [hrun] at hstays
    rcases getSettingsNode_cases hrun with
      ⟨id, hid, -⟩ | ⟨-, hrefused, -⟩ | ⟨-, haccepts, t, ht, -, rfl⟩
    · exact absurd (hunknown.symm.trans hid) nofun
    · exact Or.inr (Or.inr (Or.inl hrefused))
    · have hthere : (addStationProperties qt s.db.objects.nextId (s.withObjects t)).db.objectId?
          name = some s.db.objects.nextId := objectId?_insert_self ht hunknown hnull
      exact Or.inr (Or.inr (Or.inr ((hasProperty_iff_stores haccepts ht).mp
        (hasProperty_of_staysWhole hthere hstays))))

/-- **A station is whole for good** exactly when its creation leaves it whole or not at all. -/
theorem staysWhole_iff (qt : VariantConversions QVariant) (db : SettingsDb QVariant) (name : QText)
    (faults : List Bool) (hunknown : db.objectId? name = none) :
    StaysWhole qt name ((getSettingsNode qt name).run { db, faults }).2.db ↔
      CreatesWhole qt name { db, faults } := by
  refine ⟨createsWhole_of_staysWhole (s := { db, faults }) hunknown,
    fun hcreates later hlater faults' => ?_⟩
  have hbefore : db.Whole name := fun id hid => absurd (hunknown.symm.trans hid) nofun
  have hfirst : ((getSettingsNode qt name).run { db, faults }).2.db.Whole name :=
    whole_getSettingsNode (s := { db, faults }) hbefore (fun _ => hcreates) rfl
  have hstep : ∀ (db : SettingsDb QVariant) (call : SettingsCall QVariant), db.Whole name →
      (AsksFor name call.op → CreatesWhole qt name { db, faults := call.faults }) →
      (step qt db call).Whole name := fun _ _ h hcall => whole_step h hcall
  have hwhole := hlater.invariant hstep hfirst
  exact fun hfailed => isStation_of_whole (s := { db := _, faults := faults' }) hwhole rfl hfailed

/-- The INSERT of the object fails. -/
theorem staysWhole_of_refused : StaysWhole DbController.integers station
    ((getSettingsNode DbController.integers station).run { db := .empty, faults := [true] }).2.db :=
  (staysWhole_iff DbController.integers .empty station [true] rfl).mpr
    (Or.inr (Or.inr (Or.inl fun haccepts => absurd haccepts.1 (by decide))))

/-- The INSERT of the first property fails, that of its name having succeeded. -/
def firstPropertyFails : SettingsSession Int := { db := .empty, faults := [false, false, true] }

/-- The node that is asked for without a failure lacks the property. -/
theorem not_staysWhole : ¬StaysWhole DbController.integers station
    ((getSettingsNode DbController.integers station).run firstPropertyFails).2.db := by
  intro hstays
  have hagain := hstays [] trivial []
  rw [List.foldl_nil] at hagain
  exact absurd (hagain (by decide +kernel)) (by decide +kernel)

end DbManager

end ArmOd
