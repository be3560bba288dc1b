import ArmOd.Settings.DbManager

/-!
# What asking for an object writes

The outcome of every INSERT, and from it what `getSettingsNode` does to the tables: nothing where the
object is there, and otherwise, as far as the server lets it, the object and the nine properties, one
step of a loop for each. Everything that is written comes after what there was (`SettingsDb.Grows`).
-/

namespace ArmOd

variable {QVariant : Type}

theorem QText.sqlEq_of_chars {a b : QText} (ha : a.chars ≠ []) (h : b.chars = a.chars) :
    a.sqlEq b = true := by
  obtain ⟨_ | units, ha'⟩ := a
  · exact absurd rfl ha
  obtain ⟨_ | units', hb'⟩ := b
  · exact absurd h.symm ha
  obtain rfl : units' = units := h
  simp [QText.sqlEq]

theorem QText.sqlEq_iff {a b : QText} : a.sqlEq b = true ↔ a.units.isSome ∧ a.units = b.units := by
  rw [QText.sqlEq, Bool.and_eq_true, beq_iff_eq]

theorem QText.sqlEq_self {a : QText} (h : a.units ≠ none) : a.sqlEq a = true :=
  sqlEq_iff.mpr ⟨Option.isSome_iff_ne_none.mpr h, rfl⟩

theorem QText.eq_of_sqlEq {a b : QText} (h : a.sqlEq b = true) : a = b := by
  obtain ⟨units, hsize⟩ := a
  obtain ⟨units', hsize'⟩ := b
  obtain rfl : units = units' := (sqlEq_iff.mp h).2
  rfl

/-! ### Growth -/

/-- The rows there were are in place, and a name that is new to the dictionary is a name. -/
structure SettingsDb.Grows (db db' : SettingsDb QVariant) : Prop where
  objects : db.objects.Extends db'.objects
  properties : db.properties.Extends db'.properties
  dictionary : db.propertyDictionary.Extends db'.propertyDictionary
  named : ∀ id name, db'.propertyDictionary.get? id = some name →
    db.propertyDictionary.get? id = some name ∨ name.chars ≠ [] ∧
      ∀ id' name', db.propertyDictionary.get? id' = some name' → name'.chars ≠ name.chars

namespace SettingsDb.Grows

variable {db db' db'' : SettingsDb QVariant}

theorem refl (db : SettingsDb QVariant) : db.Grows db :=
  ⟨.refl _, .refl _, .refl _, fun _ _ hget => Or.inl hget⟩

theorem trans (h : db.Grows db') (h' : db'.Grows db'') : db.Grows db'' where
  objects := h.objects.trans h'.objects
  properties := h.properties.trans h'.properties
  dictionary := h.dictionary.trans h'.dictionary
  named := by
    intro id name hget
    rcases h'.named id name hget with hthere | ⟨hname, hother⟩
    · exact h.named id name hthere
    · exact Or.inr ⟨hname, fun id' name' hget' => hother id' name' (h.dictionary.get? hget')⟩

end SettingsDb.Grows

/-- The tables grow, and a failure is remembered. -/
structure SettingsSession.Grows (s s' : SettingsSession QVariant) : Prop where
  db : s.db.Grows s'.db
  failed : s.failed = true → s'.failed = true

/-- As `Grows`, and there are no new objects. -/
structure SettingsSession.Adds (s s' : SettingsSession QVariant) : Prop extends s.Grows s' where
  objects : s'.db.objects = s.db.objects

instance : IsPreorder (SettingsSession QVariant) SettingsSession.Grows where
  refl := fun s => ⟨.refl s.db, id⟩
  trans := fun _ _ _ h h' => ⟨h.db.trans h'.db, h'.failed ∘ h.failed⟩

instance : IsPreorder (SettingsSession QVariant) SettingsSession.Adds where
  refl := fun s => ⟨refl_of SettingsSession.Grows s, rfl⟩
  trans := fun _ _ _ h h' => ⟨trans_of SettingsSession.Grows h.toGrows h'.toGrows,
    h'.objects.trans h.objects⟩

/-- The next INSERT into a table succeeds. -/
def SettingsSession.Accepts {α : Type} (s : SettingsSession QVariant) (t : SettingsTable α) :
    Prop :=
  s.faults.headD false = false ∧ t.nextId < 2 ^ 31

/-- The session after a statement that failed. -/
def SettingsSession.refuse (s : SettingsSession QVariant) : SettingsSession QVariant :=
  { s with faults := s.faults.tail, failed := true }

/-- The session after a statement that left the tables as `db`. -/
def SettingsSession.accept (s : SettingsSession QVariant) (db : SettingsDb QVariant) :
    SettingsSession QVariant :=
  { s with db, faults := s.faults.tail }

namespace DbController

variable {s : SettingsSession QVariant}

section

variable {α : Type} {refused answer : α} {db : SettingsDb QVariant}
  {statement : SettingsDb QVariant → Option (α × SettingsDb QVariant)}

theorem run_exec_of_some (hfault : s.faults.headD false = false)
    (hstatement : statement s.db = some (answer, db)) :
    (exec refused statement).run s = (answer, s.accept db) := by
  change exec _ _ s = _
  rw [exec, hfault, if_neg Bool.false_ne_true, hstatement]
  rfl

theorem run_exec_of_none (h : s.faults.headD false = false → statement s.db = none) :
    (exec refused statement).run s = (refused, s.refuse) := by
  change exec _ _ s = _
  rw [exec]
  cases hfault : s.faults.headD false with
  | true => rfl
  | false =>
      rw [if_neg Bool.false_ne_true, h hfault]
      rfl

end

theorem run_exec_insert {α : Type} (table : SettingsDb QVariant → SettingsTable α)
    (put : SettingsDb QVariant → SettingsTable α → SettingsDb QVariant) (row : α)
    (s : SettingsSession QVariant) :
    (s.Accepts (table s.db) ∧ ∃ t, (table s.db).insert row = some ((table s.db).nextId, t) ∧
        (exec INVALID_INDEX fun db =>
            ((table db).insert row).map fun (id, t) => (id, put db t)).run s =
          ((table s.db).nextId, s.accept (put s.db t))) ∨
      (¬s.Accepts (table s.db) ∧
        (exec INVALID_INDEX fun db =>
            ((table db).insert row).map fun (id, t) => (id, put db t)).run s =
          (INVALID_INDEX, s.refuse)) := by
  by_cases haccepts : s.Accepts (table s.db)
  · obtain ⟨t, ht⟩ := Table.insert_of_lt haccepts.2 (a := row)
    exact Or.inl ⟨haccepts, t, ht, run_exec_of_some haccepts.1 (by rw [ht]; rfl)⟩
  · refine Or.inr ⟨haccepts, run_exec_of_none fun hfault => ?_⟩
    rw [Table.insert_of_not_lt fun hlt => haccepts ⟨hfault, hlt⟩]
    rfl

/-! ### The dictionary -/

theorem isPropInDictionary_eq {db : SettingsDb QVariant} {propName : QText} :
    isPropInDictionary db propName = INVALID_INDEX ↔
      db.propertyDictionary.firstId (QText.sqlEq propName) = none := by
  rw [isPropInDictionary]
  cases hfirst : db.propertyDictionary.firstId (QText.sqlEq propName) with
  | none => exact iff_of_true rfl rfl
  | some id =>
      obtain ⟨name, hget, -⟩ := Table.firstId_eq_some hfirst
      have hpos := db.propertyDictionary.positive _ (db.propertyDictionary.get?_eq_some_iff.mp hget)
      exact iff_of_false (Nat.ne_of_gt hpos) (Option.some_ne_none id)

theorem run_propNameIndex (propName : QText) (s : SettingsSession QVariant) :
    (∃ id, s.db.propertyDictionary.firstId (QText.sqlEq propName) = some id ∧
      (propNameIndex propName).run s = (id, s)) ∨
    (s.db.propertyDictionary.firstId (QText.sqlEq propName) = none ∧
      ((∃ t, s.db.propertyDictionary.insert propName = some (s.db.propertyDictionary.nextId, t) ∧
        (propNameIndex propName).run s =
          (s.db.propertyDictionary.nextId, s.accept { s.db with propertyDictionary := t })) ∨
        (propNameIndex propName).run s = (INVALID_INDEX, s.refuse))) := by
  have hrun : (propNameIndex propName).run s =
      (if isPropInDictionary s.db propName = INVALID_INDEX then addPropToDictionaty propName
        else Pure.pure (isPropInDictionary s.db propName)).run s := rfl
  by_cases hfound : isPropInDictionary s.db propName = INVALID_INDEX
  · rw [if_pos hfound] at hrun
    refine Or.inr ⟨isPropInDictionary_eq.mp hfound, ?_⟩
    rw [hrun]
    rcases run_exec_insert SettingsDb.propertyDictionary
      (fun db propertyDictionary => { db with propertyDictionary }) propName s with
      ⟨-, t, ht, hinsert⟩ | ⟨-, hrefused⟩
    · exact Or.inl ⟨t, ht, hinsert⟩
    · exact Or.inr hrefused
  · rw [if_neg hfound, run_pure] at hrun
    obtain ⟨id, hid⟩ := Option.ne_none_iff_exists'.mp (mt isPropInDictionary_eq.mpr hfound)
    refine Or.inl ⟨id, hid, ?_⟩
    rw [hrun, isPropInDictionary, hid, Option.getD_some]

theorem grows_insert_dictionary {db : SettingsDb QVariant} {propName : QText}
    {t : SettingsTable QText} {id : Nat} (hname : propName.chars ≠ [])
    (hfirst : db.propertyDictionary.firstId (QText.sqlEq propName) = none)
    (hinsert : db.propertyDictionary.insert propName = some (id, t)) :
    db.Grows { db with propertyDictionary := t } where
  objects := .refl _
  properties := .refl _
  dictionary := Table.insert_extends hinsert
  named := by
    intro key name hget
    rcases (Table.get?_insert_eq_some hinsert).mp hget with hthere | hnew
    · exact Or.inl hthere
    · obtain ⟨-, rfl⟩ := Prod.mk.inj hnew
      refine Or.inr ⟨hname, fun id' name' hget' hchars => ?_⟩
      have hfalse := Table.firstId_eq_none.mp hfirst _
        (db.propertyDictionary.get?_eq_some_iff.mp hget')
      rw [QText.sqlEq_of_chars hname hchars] at hfalse
      cases hfalse

theorem adds_propNameIndex {propName : QText} (hname : propName.chars ≠ []) :
    Moves (@SettingsSession.Adds QVariant) (propNameIndex propName) := by
  intro s
  rcases run_propNameIndex propName s with ⟨id, -, hrun⟩ | ⟨hfirst, ⟨t, hinsert, hrun⟩ | hrun⟩
  · rw [hrun]
    exact refl_of SettingsSession.Adds s
  · rw [hrun]
    exact ⟨⟨grows_insert_dictionary hname hfirst hinsert, id⟩, rfl⟩
  · rw [hrun]
    exact ⟨⟨.refl _, fun _ => rfl⟩, rfl⟩

theorem properties_propNameIndex {propName : QText} {s : SettingsSession QVariant} :
    ((propNameIndex propName).run s).2.db.properties = s.db.properties := by
  rcases run_propNameIndex propName s with ⟨id, -, hrun⟩ | ⟨-, ⟨t, -, hrun⟩ | hrun⟩ <;>
  exact congrArg (fun answer => answer.2.db.properties) hrun

theorem get?_propNameIndex {propName : QText} {s : SettingsSession QVariant}
    (h : ((propNameIndex propName).run s).1 ≠ INVALID_INDEX) :
    ∃ name, ((propNameIndex propName).run s).2.db.propertyDictionary.get?
      ((propNameIndex propName).run s).1 = some name ∧ name.chars = propName.chars := by
  rcases run_propNameIndex propName s with ⟨id, hfirst, hrun⟩ | ⟨-, ⟨t, hinsert, hrun⟩ | hrun⟩
  · obtain ⟨name, hget, hname⟩ := Table.firstId_eq_some hfirst
    rw [hrun]
    exact ⟨name, hget, congrArg (Option.getD · []) (QText.sqlEq_iff.mp hname).2.symm⟩
  · rw [hrun]
    exact ⟨propName, Table.insert_get? hinsert, rfl⟩
  · rw [hrun] at h
    exact absurd rfl h

theorem failed_propNameIndex {propName : QText} {s : SettingsSession QVariant}
    (h : ((propNameIndex propName).run s).1 = INVALID_INDEX) :
    ((propNameIndex propName).run s).2.failed = true := by
  rcases run_propNameIndex propName s with ⟨id, hfirst, hrun⟩ | ⟨-, ⟨t, -, hrun⟩ | hrun⟩
  · obtain ⟨name, hget, -⟩ := Table.firstId_eq_some hfirst
    have hpos := s.db.propertyDictionary.positive _
      (s.db.propertyDictionary.get?_eq_some_iff.mp hget)
    rw [hrun] at h
    exact absurd h (Nat.ne_of_gt hpos)
  · rw [hrun] at h
    exact absurd h (Nat.ne_of_gt s.db.propertyDictionary.nextId_pos)
  · exact congrArg (fun answer => answer.2.failed) hrun

theorem lt_propNameIndex {propName : QText} {s : SettingsSession QVariant}
    (h : ((propNameIndex propName).run s).1 ≠ INVALID_INDEX) :
    ((propNameIndex propName).run s).1 < 2 ^ 31 := by
  obtain ⟨name, hget, -⟩ := get?_propNameIndex h
  exact Table.lt_limit_of_get? _ hget

/-- What is named otherwise was named so before. -/
theorem getPropNameById_propNameIndex {propName n : QText} {s : SettingsSession QVariant} {id : Nat}
    (hn : n.chars ≠ []) (hother : n.chars ≠ propName.chars)
    (h : (getPropNameById ((propNameIndex propName).run s).2.db id).chars = n.chars) :
    (getPropNameById s.db id).chars = n.chars := by
  rcases run_propNameIndex propName s with ⟨key, -, hrun⟩ | ⟨-, ⟨t, hinsert, hrun⟩ | hrun⟩
  · rwa [hrun] at h
  · rw [hrun] at h
    change ((t.get? id).getD .null).chars = n.chars at h
    cases hget : t.get? id with
    | none =>
        rw [hget] at h
        exact absurd h.symm hn
    | some name =>
        rw [hget, Option.getD_some] at h
        rcases (Table.get?_insert_eq_some hinsert).mp hget with hthere | hnew
        · rw [getPropNameById, hthere]
          exact h
        · rw [(Prod.mk.inj hnew).2] at h
          exact absurd h.symm hother
  · rwa [hrun] at h

theorem toUInt_ofNat {n : Nat} (h : n < 2 ^ 31) : toUInt n = n := by
  rw [toUInt]
  omega

/-! ### Adding a property -/

variable [Inhabited QVariant] {qt : VariantConversions QVariant} {property : Property QVariant}
  {s' : SettingsSession QVariant} {index id : Nat} {n : QText}

theorem run_addProperty (h : (propNameIndex property.name).run s = (index, s')) :
    (addProperty qt property).run s = if index = INVALID_INDEX then (INVALID_INDEX, s')
      else (insertProperty qt property index).run s' := by
  rw [addProperty, run_bind, h, run_ite, run_pure]

/-- The row of a property. -/
def propertyRow (qt : VariantConversions QVariant) (property : Property QVariant) (index : Nat) :
    PropertyRow QVariant :=
  { objectId := property.pid.toInt
    propId := index
    value := property.value
    state := qt.ofInt property.state
    editable := qt.ofBool property.isEditable }

theorem run_insertProperty (qt : VariantConversions QVariant) (property : Property QVariant)
    (index : Nat) (s : SettingsSession QVariant) :
    (s.Accepts s.db.properties ∧ ∃ t, s.db.properties.insert (propertyRow qt property index) =
        some (s.db.properties.nextId, t) ∧ (insertProperty qt property index).run s =
          (s.db.properties.nextId, s.accept { s.db with properties := t })) ∨
      (¬s.Accepts s.db.properties ∧
        (insertProperty qt property index).run s = (INVALID_INDEX, s.refuse)) :=
  run_exec_insert SettingsDb.properties (fun db properties => { db with properties })
    (propertyRow qt property index) s

theorem adds_insertProperty :
    Moves SettingsSession.Adds (insertProperty qt property index) := by
  intro s
  rcases run_insertProperty qt property index s with ⟨-, t, ht, hrun⟩ | ⟨-, hrun⟩
  · rw [hrun]
    exact ⟨⟨⟨.refl _, Table.insert_extends ht, .refl _, fun _ _ hget => Or.inl hget⟩, id⟩, rfl⟩
  · rw [hrun]
    exact ⟨⟨.refl _, fun _ => rfl⟩, rfl⟩

theorem adds_addProperty (hname : property.name.chars ≠ []) :
    Moves SettingsSession.Adds (addProperty qt property) :=
  (adds_propNameIndex hname).bind fun _ => .ite (fun _ => .pure _) fun _ => adds_insertProperty

end DbController

/-- The name under which a property is read. -/
def SettingsDb.rowName (db : SettingsDb QVariant) (row : PropertyRow QVariant) : QText :=
  DbController.getPropNameById db (DbController.toUInt row.propId)

/-- An object has a property of this name. -/
def SettingsDb.HasProperty (db : SettingsDb QVariant) (id : Nat) (n : QText) : Prop :=
  ∃ r ∈ db.properties.rows, r.2.objectId = id ∧ (db.rowName r.2).chars = n.chars

/-- The server takes the property, or the id has one of this name (once the name is in the
dictionary). -/
def SettingsSession.Stores (s : SettingsSession QVariant) (id : Nat) (n : QText) : Prop :=
  let (index, s) := (DbController.propNameIndex n).run s
  (index ≠ DbController.INVALID_INDEX ∧ s.Accepts s.db.properties) ∨ s.db.HasProperty id n

section

variable {db db' : SettingsDb QVariant} {id : Nat} {n : QText} {row : PropertyRow QVariant}

theorem SettingsDb.Grows.rowName (h : db.Grows db') (hname : (db.rowName row).chars ≠ []) :
    db'.rowName row = db.rowName row := by
  rw [SettingsDb.rowName, DbController.getPropNameById] at hname ⊢
  cases hget : db.propertyDictionary.get? (DbController.toUInt row.propId) with
  | none =>
      rw [hget] at hname
      exact absurd rfl hname
  | some name =>
      rw [h.dictionary.get? hget, SettingsDb.rowName, DbController.getPropNameById, hget]

theorem SettingsDb.HasProperty.grows (hn : n.chars ≠ []) (hhas : db.HasProperty id n)
    (h : db.Grows db') : db'.HasProperty id n := by
  obtain ⟨r, hr, hid, hname⟩ := hhas
  refine ⟨r, h.properties.subset hr, hid, ?_⟩
  rw [h.rowName (hname ▸ hn), hname]

end

namespace DbController

variable [Inhabited QVariant] {qt : VariantConversions QVariant} {property : Property QVariant}
  {s : SettingsSession QVariant} {id : Nat} {n : QText}

theorem rowName_propertyRow {index : Nat} {s' : SettingsSession QVariant}
    (hrun : (propNameIndex property.name).run s = (index, s')) (hindex : index ≠ INVALID_INDEX) :
    (s'.db.rowName (propertyRow qt property index)).chars = property.name.chars := by
  have hkey : ((propNameIndex property.name).run s).1 ≠ INVALID_INDEX := by rwa [hrun]
  obtain ⟨name, hget, hchars⟩ := get?_propNameIndex hkey
  have hlt := lt_propNameIndex hkey
  rw [hrun] at hget hlt
  change ((s'.db.propertyDictionary.get? (toUInt index)).getD .null).chars = _
  rw [toUInt_ofNat hlt, hget]
  exact hchars

/-- **The property that is added.** -/
theorem hasProperty_addProperty (hpid : property.pid.toInt = id) :
    ((addProperty qt property).run s).2.db.HasProperty id property.name ↔
      s.Stores id property.name := by
  obtain ⟨⟨index, s'⟩, hrun⟩ : ∃ answer, (propNameIndex property.name).run s = answer := ⟨_, rfl⟩
  rw [run_addProperty hrun, SettingsSession.Stores, hrun]
  dsimp only
  by_cases hindex : index = INVALID_INDEX
  · rw [if_pos hindex]
    exact (or_iff_right fun h => h.1 hindex).symm
  · rw [if_neg hindex]
    rcases run_insertProperty qt property index s' with
      ⟨haccepts, t, ht, hinsert⟩ | ⟨hrefused, hrun'⟩
    · rw [hinsert]
      refine iff_of_true ?_ (Or.inl ⟨hindex, haccepts⟩)
      have hadded : (s'.db.properties.nextId, propertyRow qt property index) ∈ t.rows := by
        rw [(Table.insert_eq_some ht).2]
        exact List.mem_append_right _ List.mem_cons_self
      have hnamed : (s'.db.rowName (propertyRow qt property index)).chars = property.name.chars :=
        rowName_propertyRow hrun hindex
      exact ⟨_, hadded, hpid, hnamed⟩
    · rw [hrun']
      exact (or_iff_right fun h => hrefused h.2).symm

theorem hasProperty_addProperty_of_ne (hname : property.name.chars ≠ []) (hn : n.chars ≠ [])
    (hother : n.chars ≠ property.name.chars) :
    ((addProperty qt property).run s).2.db.HasProperty id n ↔ s.db.HasProperty id n := by
  refine ⟨fun hhas => ?_, fun hhas => hhas.grows hn (adds_addProperty hname s).db⟩
  obtain ⟨⟨index, s'⟩, hrun⟩ : ∃ answer, (propNameIndex property.name).run s = answer := ⟨_, rfl⟩
  have hproperties : s'.db.properties = s.db.properties := by
    rw [← properties_propNameIndex (s := s), hrun]
  -- a row that was there had the name before
  have hbefore : ∀ r ∈ s'.db.properties.rows, r.2.objectId = id →
      (s'.db.rowName r.2).chars = n.chars → s.db.HasProperty id n := by
    intro r hr hid hchars
    refine ⟨r, hproperties ▸ hr, hid, getPropNameById_propNameIndex hn hother ?_⟩
    rw [hrun]
    exact hchars
  rw [run_addProperty hrun] at hhas
  by_cases hindex : index = INVALID_INDEX
  · rw [if_pos hindex] at hhas
    obtain ⟨r, hr, hid, hchars⟩ := hhas
    exact hbefore r hr hid hchars
  · rw [if_neg hindex] at hhas
    rcases run_insertProperty qt property index s' with ⟨-, t, ht, hinsert⟩ | ⟨-, hrun'⟩
    · rw [hinsert] at hhas
      obtain ⟨r, hr, hid, hchars⟩ := hhas
      rcases (Table.mem_rows_insert ht).mp hr with hold | hnew
      · exact hbefore r hold hid hchars
      · have hnamed : (s'.db.rowName (propertyRow qt property index)).chars = property.name.chars :=
          rowName_propertyRow hrun hindex
        rw [hnew] at hchars
        exact absurd (hchars.symm.trans hnamed) hother
    · rw [hrun'] at hhas
      obtain ⟨r, hr, hid, hchars⟩ := hhas
      exact hbefore r hr hid hchars

theorem stores_of_not_failed (h : ((addProperty qt property).run s).2.failed = false) :
    s.Stores id property.name := by
  obtain ⟨⟨index, s'⟩, hrun⟩ : ∃ answer, (propNameIndex property.name).run s = answer := ⟨_, rfl⟩
  have hfailed := @failed_propNameIndex _ property.name s
  rw [run_addProperty hrun] at h
  rw [hrun] at hfailed
  rw [SettingsSession.Stores, hrun]
  by_cases hindex : index = INVALID_INDEX
  · rw [if_pos hindex, hfailed hindex] at h
    cases h
  · rw [if_neg hindex] at h
    rcases run_insertProperty qt property index s' with ⟨haccepts, -⟩ | ⟨-, hrefuse⟩
    · exact Or.inl ⟨hindex, haccepts⟩
    · rw [hrefuse] at h
      cases h

end DbController

end ArmOd
