import ArmOd.Settings.Creation

/-!
# Reading and updating the value of a property

The value of an object's property is that of the first row with its name. Growth of the tables does
not move a row that is found under a name of the dictionary, and an update changes the value of one
row only.
-/

namespace ArmOd

variable {QVariant : Type}

namespace SettingsDb

/-- The row is of an object, and is read under a name. -/
def isNamed (db : SettingsDb QVariant) (id : Nat) (p : QText) (r : Nat × PropertyRow QVariant) :
    Bool :=
  decide (r.2.objectId = id) && p.chars == (db.rowName r.2).chars

/-- The first row of an object with a name. -/
def propertyRow? (db : SettingsDb QVariant) (id : Nat) (p : QText) :
    Option (Nat × PropertyRow QVariant) :=
  db.properties.rows.find? (db.isNamed id p)

/-- The database after an update of a value. -/
def setValue (db : SettingsDb QVariant) (id : Nat) (v : QVariant) : SettingsDb QVariant :=
  { db with properties := db.properties.modifyId id fun row => { row with value := v } }

/-- Each object name occurs at most once. -/
def ObjectsUnique (db : SettingsDb QVariant) : Prop :=
  ∀ a ∈ db.objects.rows, ∀ b ∈ db.objects.rows,
    a.2.objectName.sqlEq b.2.objectName = true → a.1 = b.1

/-- No two properties of an object are read under one name. -/
def PropertiesUnique (db : SettingsDb QVariant) : Prop :=
  ∀ a ∈ db.properties.rows, ∀ b ∈ db.properties.rows, a.2.objectId = b.2.objectId →
    (db.rowName a.2).chars = (db.rowName b.2).chars → a.1 = b.1

/-- There is an object of the name, with a property whose name is in the dictionary. -/
def Existing (db : SettingsDb QVariant) (o p : QText) : Prop :=
  ∃ object ∈ db.objects.rows, o.sqlEq object.2.objectName = true ∧
    ∃ r ∈ db.properties.rows, r.2.objectId = object.1 ∧
      ∃ name, db.propertyDictionary.get? (DbController.toUInt r.2.propId) = some name ∧
        name.chars = p.chars

variable {db db' : SettingsDb QVariant} {id key : Nat} {o p : QText} {v : QVariant}
  {r : Nat × PropertyRow QVariant}

theorem objectsUnique_empty : (SettingsDb.empty : SettingsDb QVariant).ObjectsUnique :=
  fun _ ha => absurd ha List.not_mem_nil

theorem propertiesUnique_empty : (SettingsDb.empty : SettingsDb QVariant).PropertiesUnique :=
  fun _ ha => absurd ha List.not_mem_nil

theorem isNamed_iff :
    db.isNamed id p r = true ↔ r.2.objectId = id ∧ p.chars = (db.rowName r.2).chars := by
  rw [isNamed, Bool.and_eq_true, decide_eq_true_iff, beq_iff_eq]

theorem propertyRow?_eq_some (h : db.propertyRow? id p = some r) :
    r ∈ db.properties.rows ∧ r.2.objectId = id ∧ p.chars = (db.rowName r.2).chars :=
  ⟨List.mem_of_find?_eq_some h, isNamed_iff.mp (List.find?_some h)⟩

/-! ### The pairs that exist -/

theorem rowName_of_get? {name : QText}
    (h : db.propertyDictionary.get? (DbController.toUInt r.2.propId) = some name) :
    db.rowName r.2 = name := by
  rw [rowName, DbController.getPropNameById, h, Option.getD_some]

theorem Existing.found (h : db.Existing o p) (hobjects : db.ObjectsUnique)
    (hproperties : db.PropertiesUnique) :
    ∃ id r name, db.objectId? o = some id ∧ db.propertyRow? id p = some r ∧
      db.propertyDictionary.get? (DbController.toUInt r.2.propId) = some name ∧
      name.chars = p.chars := by
  obtain ⟨object, hobject, ho, r, hr, hid, name, hget, hname⟩ := h
  have hfirst : db.objectId? o = some object.1 := by
    obtain ⟨id, hfirst⟩ : ∃ id, db.objectId? o = some id := by
      refine Option.ne_none_iff_exists'.mp fun hnone => ?_
      have hfalse := Table.firstId_eq_none.mp hnone object hobject
      rw [ho] at hfalse
      cases hfalse
    obtain ⟨row, hrow, hsame⟩ := Table.firstId_eq_some hfirst
    rw [QText.sqlEq_iff] at ho hsame
    have hequal : row.objectName.sqlEq object.2.objectName = true := by
      rw [QText.sqlEq_iff, ← hsame.2]
      exact ho
    rw [hfirst, ← hobjects _ (db.objects.get?_eq_some_iff.mp hrow) _ hobject hequal]
  have hrowName := rowName_of_get? hget
  obtain ⟨r', hfound⟩ : ∃ r', db.propertyRow? object.1 p = some r' := by
    refine Option.isSome_iff_exists.mp (List.find?_isSome.mpr ⟨r, hr, isNamed_iff.mpr ⟨hid, ?_⟩⟩)
    rw [hrowName, hname]
  obtain ⟨hr', hid', hname'⟩ := propertyRow?_eq_some hfound
  have hkey := hproperties r' hr' r hr (hid'.trans hid.symm)
    (by rw [← hname', hrowName, hname])
  obtain rfl : r' = r := Prod.ext hkey (db.properties.eq_of_mem_of_mem (hkey ▸ hr') hr)
  exact ⟨object.1, r', name, hfirst, hfound, hget, hname⟩

/-- **Growth** leaves the row that is found under a name of the dictionary. -/
theorem Grows.propertyRow? {name : QText} (h : db.Grows db')
    (hfound : db.propertyRow? id p = some r)
    (hget : db.propertyDictionary.get? (DbController.toUInt r.2.propId) = some name) :
    db'.propertyRow? id p = some r := by
  obtain ⟨-, hid, hname⟩ := propertyRow?_eq_some hfound
  rw [rowName_of_get? hget] at hname
  obtain ⟨more, hmore⟩ := h.properties
  obtain ⟨before, after, hrows, hbefore⟩ := (List.find?_eq_some_iff_append.mp hfound).2
  have hr : db'.isNamed id p r = true :=
    isNamed_iff.mpr ⟨hid, by rw [rowName_of_get? (h.dictionary.get? hget), hname]⟩
  rw [SettingsDb.propertyRow?, List.find?_eq_some_iff_append]
  refine ⟨hr, before, after ++ more, by rw [← hmore, hrows]; simp, fun a ha => ?_⟩
  have hnot := hbefore a ha
  rw [Bool.not_eq_true'] at hnot ⊢
  rw [← Bool.not_eq_true, isNamed_iff, not_and] at hnot ⊢
  intro hobject hchars
  have hold := hnot hobject
  -- a name that a row before it gets is new to the dictionary
  by_cases hblank : (db.rowName a.2).chars = []
  · rw [hblank] at hold
    rw [SettingsDb.rowName, DbController.getPropNameById] at hchars
    cases hget' : db'.propertyDictionary.get? (DbController.toUInt a.2.propId) with
    | none =>
        rw [hget'] at hchars
        exact hold hchars
    | some name' =>
        rw [hget', Option.getD_some] at hchars
        rcases h.named _ _ hget' with hthere | ⟨-, hother⟩
        · rw [rowName_of_get? hthere] at hblank
          exact hold (hchars.trans hblank)
        · exact hother _ _ hget (hname.symm.trans hchars)
  · rw [h.rowName hblank] at hchars
    exact hold hchars

theorem units_eq_of_objectId? {o' : QText} (h : db.objectId? o = some id)
    (h' : db.objectId? o' = some id) : o'.units = o.units := by
  obtain ⟨row, hget, ho⟩ := Table.firstId_eq_some h
  obtain ⟨row', hget', ho'⟩ := Table.firstId_eq_some h'
  obtain rfl : row = row' := Option.some.inj (hget.symm.trans hget')
  exact (QText.sqlEq_iff.mp ho').2.trans (QText.sqlEq_iff.mp ho).2.symm

/-! ### The value of one row -/

theorem propertyRow?_setValue : (db.setValue key v).propertyRow? id p =
    (db.propertyRow? id p).map fun r =>
      (r.1, if r.1 = key then { r.2 with value := v } else r.2) := by
  rw [propertyRow?, setValue, Table.modifyId, List.find?_map]
  refine congrArg (Option.map _) (congrArg (List.find? · _) (funext fun r => ?_))
  change (db.setValue key v).isNamed id p
    (r.1, if r.1 = key then { r.2 with value := v } else r.2) = db.isNamed id p r
  split <;> rfl

end SettingsDb

namespace DbManager

variable [Inhabited QVariant] {qt : VariantConversions QVariant} {db : SettingsDb QVariant}
  {s s' : SettingsSession QVariant} {id : Nat} {o p : QText} {v : QVariant}
  {node : SettingsNode QVariant}

/-- What `getPropertyValue` returns, whatever the server has in store. -/
def value (qt : VariantConversions QVariant) (db : SettingsDb QVariant) (faults : List Bool)
    (o p : QText) : QVariant :=
  ((getPropertyValue qt o p).run { db, faults }).1

theorem find?_getProperties :
    (DbController.getProperties qt db id).find? (fun property => p.chars == property.name.chars) =
      (db.propertyRow? id p).map fun r => DbController.listEntry qt db r.1 r.2 := by
  rw [DbController.getProperties, Table.select, List.find?_map, List.find?_filter]
  refine congrArg (Option.map _) (congrArg (List.find? · _) (funext fun r => ?_))
  rw [Bool.eq_iff_iff, decide_eq_true_iff, decide_eq_true_iff, SettingsDb.isNamed_iff]
  exact and_congr_right' beq_iff_eq

theorem run_getProperty (h : (getSettingsNode qt o).run s = (node, s')) :
    (getProperty qt o p).run s =
      ((node.properties.find? fun property => p.chars == property.name.chars).getD Property.new,
        s') := by
  rw [getProperty, run_bind, h]
  rfl

theorem id_listEntry {r : Nat × PropertyRow QVariant} (h : r ∈ db.properties.rows) :
    Int32.ofNat DbController.INVALID_INDEX ≠ (DbController.listEntry qt db r.1 r.2).id :=
  (ofNat_ne_invalid (db.properties.positive r h) (db.properties.lt_limit h)).symm

/-- **The value that is read.** -/
theorem value_eq (h : db.objectId? o = some id) (faults : List Bool) :
    value qt db faults o p = ((db.propertyRow? id p).map fun r => r.2.value).getD default := by
  have hnode := @run_getSettingsNode_of_some _ _ _ _ qt { db, faults } h
  have hread := run_getProperty (p := p) hnode
  rw [find?_getProperties] at hread
  rw [value, getPropertyValue, run_bind, hread]
  cases hfound : db.propertyRow? id p with
  | none => rfl
  | some r =>
      dsimp only [Option.map_some, Option.getD_some]
      rw [run_ite, if_neg (id_listEntry (SettingsDb.propertyRow?_eq_some hfound).1)]
      rfl

/-! ### What an update does -/

theorem properties_getSettingsNode (h : (getSettingsNode qt o).run s = (node, s')) :
    node.properties = [] ∨ ∃ id, node.properties = DbController.getProperties qt s'.db id ∧
      (o.units.isSome → s'.db.objectId? o = some id) := by
  rcases getSettingsNode_cases h with
    ⟨id, hid, hproperties, rfl⟩ | ⟨-, -, hproperties, -⟩ | ⟨hnone, -, t, ht, hproperties, rfl⟩
  · exact Or.inr ⟨id, hproperties, fun _ => hid⟩
  · exact Or.inl hproperties
  · exact Or.inr ⟨s.db.objects.nextId, hproperties, fun ho =>
      objectId?_insert_self ht hnone (Option.isSome_iff_ne_none.mp ho)⟩

theorem objectsUnique_getSettingsNode (h : (getSettingsNode qt o).run s = (node, s'))
    (hunique : s.db.ObjectsUnique) : s'.db.ObjectsUnique := by
  rcases getSettingsNode_cases h with
    ⟨id, -, -, rfl⟩ | ⟨-, -, -, rfl⟩ | ⟨hnone, -, t, ht, -, rfl⟩
  · exact hunique
  · exact hunique
  · have hother : ∀ a ∈ s.db.objects.rows, a.2.objectName.units.isSome →
        a.2.objectName.units ≠ o.units := by
      intro a ha hsome heq
      have hfalse := Table.firstId_eq_none.mp hnone a ha
      rw [QText.sqlEq_iff.mpr ⟨heq ▸ hsome, heq.symm⟩] at hfalse
      cases hfalse
    have hrows :
        (addStationProperties qt s.db.objects.nextId (s.withObjects t)).db.objects.rows =
          s.db.objects.rows ++ [(s.db.objects.nextId, objectRow qt o)] := by
      rw [adds_addStationProperties.objects]
      exact (Table.insert_eq_some ht).2
    intro a ha b hb hsame
    rw [QText.sqlEq_iff] at hsame
    rw [hrows, List.mem_append, List.mem_singleton] at ha hb
    rcases ha with ha | rfl
    · rcases hb with hb | rfl
      · exact hunique a ha b hb (QText.sqlEq_iff.mpr hsame)
      · exact absurd hsame.2 (hother a ha hsame.1)
    · rcases hb with hb | rfl
      · exact absurd hsame.2.symm (hother b hb (hsame.2 ▸ hsame.1))
      · rfl

theorem run_updatePropertyValue (hnode : (getSettingsNode qt o).run s = (node, s')) :
    (((updatePropertyValue qt o p v).run s).1 = false ∧
      ((updatePropertyValue qt o p v).run s).2.db = s'.db) ∨
    (((updatePropertyValue qt o p v).run s).1 = true ∧
      ∃ id r, s'.db.propertyRow? id p = some r ∧ (o.units.isSome → s'.db.objectId? o = some id) ∧
        ((updatePropertyValue qt o p v).run s).2.db = s'.db.setValue r.1 v) := by
  have hread := run_getProperty (p := p) hnode
  rw [updatePropertyValue, run_bind, hread]
  dsimp only
  rcases properties_getSettingsNode hnode with hnone | ⟨id, hproperties, hid⟩
  · rw [hnone, List.find?_nil, Option.getD_none]
    exact Or.inl ⟨rfl, rfl⟩
  · rw [hproperties, find?_getProperties]
    cases hfound : s'.db.propertyRow? id p with
    | none => exact Or.inl ⟨rfl, rfl⟩
    | some r =>
        obtain ⟨hr, -⟩ := SettingsDb.propertyRow?_eq_some hfound
        have hkey : (DbController.listEntry qt s'.db r.1 r.2).id.toUInt32.toNat = r.1 :=
          toNat_ofNat (s'.db.properties.lt_limit hr)
        dsimp only [Option.map_some, Option.getD_some]
        rw [run_ite, if_neg (id_listEntry hr), updateProperty, DbController.setPropertyValue, hkey,
          DbController.setPropertyParam]
        cases hfault : s'.faults.headD false with
        | true =>
            refine Or.inl ?_
            rw [DbController.run_exec_of_none fun hno => absurd (hfault.symm.trans hno) (by decide)]
            exact ⟨rfl, rfl⟩
        | false =>
            refine Or.inr ?_
            rw [DbController.run_exec_of_some hfault rfl]
            exact ⟨rfl, id, r, hfound, hid, rfl⟩

/-- The value of a pair that exists is what it was. -/
def Keeps (qt : VariantConversions QVariant) (db db' : SettingsDb QVariant) (o p : QText) : Prop :=
  ∀ faults faults', value qt db' faults' o p = value qt db faults o p

/-- What an update is to do: after a success the value is the new one, the other pairs have the
values they had, and no object name occurs twice; after a failure all pairs have the values they
had. -/
def UpdateLaw (qt : VariantConversions QVariant) (s : SettingsSession QVariant) (o p : QText)
    (v : QVariant) : Prop :=
  let (updated, s') := (updatePropertyValue qt o p v).run s
  (updated = true → (∀ faults, value qt s'.db faults o p = v) ∧
    (∀ o' p', s.db.Existing o' p' → (o'.units ≠ o.units ∨ p'.chars ≠ p.chars) →
      Keeps qt s.db s'.db o' p') ∧
    s'.db.ObjectsUnique) ∧
  (updated = false → ∀ o' p', s.db.Existing o' p' → Keeps qt s.db s'.db o' p')

theorem keeps_of_grows {db' : SettingsDb QVariant} (hgrows : db.Grows db')
    (hobjects : db.ObjectsUnique) (hproperties : db.PropertiesUnique) (h : db.Existing o p) :
    Keeps qt db db' o p := by
  obtain ⟨id, r, name, hid, hfound, hget, -⟩ := h.found hobjects hproperties
  intro faults faults'
  rw [value_eq hid, value_eq (hgrows.objectId? hid), hfound, hgrows.propertyRow? hfound hget]

/-- The value of another pair than the one whose row is updated. -/
theorem keeps_setValue {o' p' : QText} {r r' : Nat × PropertyRow QVariant} {id' : Nat}
    (hid : db.objectId? o = some id) (hfound : db.propertyRow? id p = some r)
    (hid' : db.objectId? o' = some id') (hfound' : db.propertyRow? id' p' = some r')
    (hother : o'.units ≠ o.units ∨ p'.chars ≠ p.chars) :
    Keeps qt db (db.setValue r.1 v) o' p' := by
  have hkey : r'.1 ≠ r.1 := by
    intro heq
    obtain ⟨hr, hobject, hname⟩ := SettingsDb.propertyRow?_eq_some hfound
    obtain ⟨hr', hobject', hname'⟩ := SettingsDb.propertyRow?_eq_some hfound'
    obtain rfl : r' = r := Prod.ext heq (db.properties.eq_of_mem_of_mem (heq ▸ hr') hr)
    obtain rfl : id' = id := Int.ofNat_inj.mp (hobject'.symm.trans hobject)
    rcases hother with ho | hp
    · exact ho (SettingsDb.units_eq_of_objectId? hid hid')
    · exact hp (hname'.trans hname.symm)
  have hid'' : (db.setValue r.1 v).objectId? o' = some id' := hid'
  intro faults faults'
  rw [value_eq hid'', value_eq hid', SettingsDb.propertyRow?_setValue, hfound', Option.map_map]
  simp only [Option.map_some, Function.comp_apply, if_neg hkey]

/-- **The law of the settings store**, for every name that is not null. -/
theorem updateLaw (qt : VariantConversions QVariant) (s : SettingsSession QVariant) (o p : QText)
    (v : QVariant) (hobjects : s.db.ObjectsUnique) (hproperties : s.db.PropertiesUnique)
    (ho : o.units.isSome) : UpdateLaw qt s o p v := by
  obtain ⟨⟨node, s'⟩, hnode⟩ : ∃ answer, (getSettingsNode qt o).run s = answer := ⟨_, rfl⟩
  have hgrows : s.db.Grows s'.db := by
    have h := @grows_getSettingsNode _ o _ qt s
    rw [hnode] at h
    exact h.db
  obtain ⟨⟨updated, s''⟩, hrun⟩ :
    ∃ answer, (updatePropertyValue qt o p v).run s = answer := ⟨_, rfl⟩
  have hcases := run_updatePropertyValue (p := p) (v := v) hnode
  rw [hrun] at hcases
  rw [UpdateLaw, hrun]
  rcases hcases with ⟨hfalse, hdb⟩ | ⟨htrue, id, r, hfound, hid, hdb⟩
  · refine ⟨fun h => absurd (hfalse.symm.trans h) (by decide), fun _ o' p' hexisting => ?_⟩
    dsimp only at hdb ⊢
    rw [hdb]
    exact keeps_of_grows hgrows hobjects hproperties hexisting
  · refine ⟨fun _ => ?_, fun h => absurd (htrue.symm.trans h) (by decide)⟩
    dsimp only at hdb ⊢
    rw [hdb]
    refine ⟨fun faults => ?_, fun o' p' hexisting hother => ?_,
      objectsUnique_getSettingsNode hnode hobjects⟩
    · have hid' : (s'.db.setValue r.1 v).objectId? o = some id := hid ho
      rw [value_eq hid', SettingsDb.propertyRow?_setValue, hfound, Option.map_some, Option.map_some,
        if_pos rfl, Option.getD_some]
    · obtain ⟨id', r', name, hid', hfound', hget, -⟩ := hexisting.found hobjects hproperties
      have hkept := @keeps_setValue _ _ qt _ _ _ _ v _ _ _ _ _ (hid ho) hfound
        (hgrows.objectId? hid') (hgrows.propertyRow? hfound' hget) hother
      intro faults faults'
      rw [hkept [] faults']
      exact keeps_of_grows hgrows hobjects hproperties hexisting faults []

/-- Two stations whose names are there. -/
def station : QText := .latin1 "Station" (by decide)
def otherStation : QText := .latin1 "Other station" (by decide)

/-- A database with the objects of both stations and their properties. -/
def twoStations : SettingsSession Int :=
  ((do
    let _ ← getSettingsNode DbController.integers station
    getSettingsNode DbController.integers otherStation).run { db := .empty }).2

/-- The update of one station leaves the other. -/
theorem updateLaw_twoStations :
    UpdateLaw DbController.integers twoStations station DB_FREQUENCY_PROPERTY 5 ∧
      twoStations.db.Existing otherStation DB_FREQUENCY_PROPERTY := by
  refine ⟨updateLaw DbController.integers twoStations station DB_FREQUENCY_PROPERTY 5 ?_ ?_ rfl, ?_⟩
  · rw [SettingsDb.ObjectsUnique]
    decide +kernel
  · rw [SettingsDb.PropertiesUnique]
    decide +kernel
  · have hpair : ∃ object ∈ twoStations.db.objects.rows,
        otherStation.sqlEq object.2.objectName = true ∧
        ∃ r ∈ twoStations.db.properties.rows, r.2.objectId = object.1 ∧
          (twoStations.db.propertyDictionary.get? (DbController.toUInt r.2.propId)).map
            QText.chars = some DB_FREQUENCY_PROPERTY.chars := by
      decide +kernel
    obtain ⟨object, hobject, ho, r, hr, hid, hname⟩ := hpair
    obtain ⟨name, hget, hchars⟩ := Option.map_eq_some_iff.mp hname
    exact ⟨object, hobject, ho, r, hr, hid, name, hget, hchars⟩

/-- The name that is null is not found again: the value is read from another new object. -/
theorem not_updateLaw_null :
    (SettingsDb.empty : SettingsDb Int).ObjectsUnique ∧
      (SettingsDb.empty : SettingsDb Int).PropertiesUnique ∧
      ¬UpdateLaw DbController.integers { db := .empty } .null DB_FREQUENCY_PROPERTY 5 := by
  refine ⟨SettingsDb.objectsUnique_empty, SettingsDb.propertiesUnique_empty, fun hlaw => ?_⟩
  obtain ⟨⟨updated, s'⟩, hrun⟩ : ∃ answer, (updatePropertyValue DbController.integers .null
      DB_FREQUENCY_PROPERTY 5).run { db := .empty } = answer := ⟨_, rfl⟩
  have hread : ∀ answer, (updatePropertyValue DbController.integers .null
      DB_FREQUENCY_PROPERTY 5).run { db := .empty } = answer →
      answer.1 = true ∧
        value DbController.integers answer.2.db [] .null DB_FREQUENCY_PROPERTY = 0 := by
    rintro _ rfl
    decide +kernel
  obtain ⟨htrue, hvalue⟩ := hread _ hrun
  rw [UpdateLaw, hrun] at hlaw
  exact absurd (((hlaw.1 htrue).1 []).symm.trans hvalue) (by decide)

end DbManager

end ArmOd
