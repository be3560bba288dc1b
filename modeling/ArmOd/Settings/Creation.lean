import ArmOd.Base.Run
import ArmOd.Settings.Growth

/-!
# Asking for an object

`getSettingsNode` in two cases. An object that is there is read, and nothing is written. For one that
is not there the INSERT of the object is tried and, where it succeeds, the nine properties are added
in a loop that goes on after a failure.
-/

namespace ArmOd

variable {QVariant : Type}

/-- The object of a name. -/
def SettingsDb.objectId? (db : SettingsDb QVariant) (name : QText) : Option Nat :=
  db.objects.firstId fun row => name.sqlEq row.objectName

variable {name n : QText} {pid : Int32} {id : Nat} {prop : QText × QText}
  {props : List (QText × QText)}

theorem SettingsDb.Grows.objectId? {db db' : SettingsDb QVariant} (h : db.Grows db')
    (hid : db.objectId? name = some id) : db'.objectId? name = some id :=
  h.objects.firstId hid

theorem SettingsDb.lt_of_objectId? {db : SettingsDb QVariant} (h : db.objectId? name = some id) :
    0 < id ∧ id < 2 ^ 31 := by
  obtain ⟨row, hget, -⟩ := Table.firstId_eq_some h
  exact ⟨db.objects.positive _ (db.objects.get?_eq_some_iff.mp hget),
    db.objects.lt_limit_of_get? hget⟩

theorem run_forM_eq_foldl {σ α : Type} {f : α → StateM σ PUnit} {step : σ → α → σ}
    (h : ∀ a s, (f a).run s = ((), step s a)) (as : List α) (s : σ) :
    (as.forM f).run s = ((), as.foldl step s) := by
  induction as generalizing s with
  | nil => rfl
  | cons a as ih => rw [run_forM_cons, h, List.foldl_cons, ih]

/-- The session after the INSERT of an object. -/
def SettingsSession.withObjects (s : SettingsSession QVariant)
    (t : SettingsTable (ObjectRow QVariant)) : SettingsSession QVariant :=
  s.accept { s.db with objects := t }

variable [Inhabited QVariant] {qt : VariantConversions QVariant} {s : SettingsSession QVariant}

namespace DbManager

/-- A round of the loop that adds the properties. -/
def addStationProperty (qt : VariantConversions QVariant) (pid : Int32)
    (s : SettingsSession QVariant) (prop : QText × QText) : SettingsSession QVariant :=
  ((DbController.addProperty qt (stationProperty qt pid prop)).run s).2

theorem adds_addStationProperty (h : prop.1.chars ≠ []) :
    s.Adds (addStationProperty qt pid s prop) := by
  have hname : (stationProperty qt pid prop).name.chars ≠ [] := h
  exact DbController.adds_addProperty hname s

theorem hasProperty_addStationProperty_of_ne (hname : prop.1.chars ≠ []) (hn : n.chars ≠ [])
    (hother : n.chars ≠ prop.1.chars) :
    (addStationProperty qt pid s prop).db.HasProperty id n ↔ s.db.HasProperty id n := by
  have hname' : (stationProperty qt pid prop).name.chars ≠ [] := hname
  exact DbController.hasProperty_addProperty_of_ne hname' hn hother

/-! ### The loop over the properties -/

/-- The names are texts, and no two are the same. -/
def Names (props : List (QText × QText)) : Prop :=
  (props.map fun prop => prop.1.chars).Nodup ∧ ∀ prop ∈ props, prop.1.chars ≠ []

theorem names_stationProperties : Names stationProperties := by
  rw [Names]
  decide +kernel

theorem adds_foldl (h : Names props) : s.Adds (props.foldl (addStationProperty qt pid) s) := by
  induction props generalizing s with
  | nil => exact refl_of SettingsSession.Adds s
  | cons prop props ih =>
      obtain ⟨hnodup, hnames⟩ := h
      have hfirst : s.Adds (addStationProperty qt pid s prop) :=
        adds_addStationProperty (hnames prop List.mem_cons_self)
      exact trans_of SettingsSession.Adds hfirst
        (ih ⟨hnodup.of_cons, fun p hp => hnames p (List.mem_cons_of_mem _ hp)⟩)

theorem hasProperty_foldl_of_notMem (h : Names props) (hn : n.chars ≠ [])
    (hother : n.chars ∉ props.map fun prop => prop.1.chars) :
    (props.foldl (addStationProperty qt pid) s).db.HasProperty id n ↔ s.db.HasProperty id n := by
  induction props generalizing s with
  | nil => exact Iff.rfl
  | cons prop props ih =>
      obtain ⟨hnodup, hnames⟩ := h
      rw [List.map_cons, List.mem_cons, not_or] at hother
      rw [List.foldl_cons, ih ⟨hnodup.of_cons, fun p hp => hnames p (List.mem_cons_of_mem _ hp)⟩
        hother.2]
      exact hasProperty_addStationProperty_of_ne (hnames prop List.mem_cons_self) hn hother.1

/-- **The loop has added every property** exactly when every round has. -/
theorem hasProperty_foldl_iff (h : Names props) (hpid : pid.toInt = id) :
    (∀ prop ∈ props, (props.foldl (addStationProperty qt pid) s).db.HasProperty id prop.1) ↔
      Along (addStationProperty qt pid) (fun s prop => s.Stores id prop.1) s props := by
  induction props generalizing s with
  | nil => exact iff_of_true (fun _ hprop => absurd hprop List.not_mem_nil) trivial
  | cons prop props ih =>
      obtain ⟨hnodup, hnames⟩ := h
      have hrest : Names props :=
        ⟨hnodup.of_cons, fun p hp => hnames p (List.mem_cons_of_mem _ hp)⟩
      rw [List.forall_mem_cons, List.foldl_cons, Along.cons, ih hrest, hasProperty_foldl_of_notMem
        hrest (hnames prop List.mem_cons_self) (List.nodup_cons.mp hnodup).1]
      exact and_congr_left' (DbController.hasProperty_addProperty hpid)

/-- The loop over the properties of a station. -/
def addStationProperties (qt : VariantConversions QVariant) (id : Nat)
    (s : SettingsSession QVariant) : SettingsSession QVariant :=
  stationProperties.foldl (addStationProperty qt (Int32.ofNat id)) s

theorem adds_addStationProperties : s.Adds (addStationProperties qt id s) :=
  adds_foldl names_stationProperties

/-! ### Failures -/

/-- A loop without a failure has added every property. -/
theorem along_of_not_failed (h : Names props)
    (hfailed : (props.foldl (addStationProperty qt pid) s).failed = false) :
    Along (addStationProperty qt pid) (fun s prop => s.Stores id prop.1) s props := by
  induction props generalizing s with
  | nil => trivial
  | cons prop props ih =>
      obtain ⟨hnodup, hnames⟩ := h
      have hrest : Names props :=
        ⟨hnodup.of_cons, fun p hp => hnames p (List.mem_cons_of_mem _ hp)⟩
      refine ⟨?_, ih hrest hfailed⟩
      have hround : (addStationProperty qt pid s prop).failed = false := by
        by_contra hfirst
        rw [Bool.not_eq_false] at hfirst
        have hlast : (props.foldl (addStationProperty qt pid)
            (addStationProperty qt pid s prop)).failed = true := (adds_foldl hrest).failed hfirst
        rw [List.foldl_cons, hlast] at hfailed
        cases hfailed
      exact DbController.stores_of_not_failed hround

/-! ### An object that is there, and one that is not -/

theorem id_getObjectByName : (DbController.getObjectByName qt s.db name).id =
    Int32.ofNat ((s.db.objectId? name).getD DbController.INVALID_INDEX) := by
  rw [DbController.getObjectByName, DbController.getObjectByParam, SettingsDb.objectId?,
    Table.firstId, Table.select, List.head?_filter]
  cases s.db.objects.rows.find? fun r => name.sqlEq r.2.objectName with
  | none => rfl
  | some r => rfl

theorem toNat_ofNat (h : id < 2 ^ 31) : (Int32.ofNat id).toUInt32.toNat = id := by
  rw [Int32.toUInt32_ofNat', UInt32.toNat_ofNat']
  omega

theorem ofNat_ne_invalid (hpos : 0 < id) (hlt : id < 2 ^ 31) :
    Int32.ofNat id ≠ Int32.ofNat DbController.INVALID_INDEX := fun heq =>
  Nat.ne_of_gt hpos (DbController.ofNat_inj hlt (by decide) heq)

theorem run_getSettingsNode {obj : Object QVariant} {s' : SettingsSession QVariant}
    (h : (if (DbController.getObjectByName qt s.db name).id =
          Int32.ofNat DbController.INVALID_INDEX then
        createSettingsNode qt name
      else Pure.pure (DbController.getObjectByName qt s.db name)).run s = (obj, s')) :
    (getSettingsNode qt name).run s = if obj.id = Int32.ofNat DbController.INVALID_INDEX then
        (SettingsNode.new, s')
      else ({ object := obj
              properties := DbController.getProperties qt s'.db obj.id.toUInt32.toNat }, s') := by
  rw [getSettingsNode, run_bind, run_get]
  dsimp only
  by_cases hfound : (DbController.getObjectByName qt s.db name).id =
      Int32.ofNat DbController.INVALID_INDEX
  · rw [if_pos hfound] at h ⊢
    rw [run_bind, h, run_ite]
    rfl
  · rw [if_neg hfound] at h ⊢
    rw [run_bind, h, run_ite]
    rfl

/-- **An object that is there** is read. -/
theorem run_getSettingsNode_of_some (h : s.db.objectId? name = some id) :
    (getSettingsNode qt name).run s = ({
      object := DbController.getObjectByName qt s.db name
      properties := DbController.getProperties qt s.db id }, s) := by
  obtain ⟨hpos, hlt⟩ := SettingsDb.lt_of_objectId? h
  have hid : (DbController.getObjectByName qt s.db name).id = Int32.ofNat id := by
    rw [id_getObjectByName, h, Option.getD_some]
  have hvalid : (DbController.getObjectByName qt s.db name).id ≠
      Int32.ofNat DbController.INVALID_INDEX :=
    hid ▸ ofNat_ne_invalid hpos hlt
  rw [run_getSettingsNode (by rw [if_neg hvalid, run_pure]), if_neg hvalid, hid, toNat_ofNat hlt]

/-- The object that is created for a name. -/
def newObject (name : QText) : Object QVariant :=
  { (Object.new : Object QVariant) with
    name, pid := Int32.ofNat DbController.INVALID_INDEX, state := 0, isEditable := false }

theorem run_createObject {recordId : Nat} {s' : SettingsSession QVariant}
    (h : (DbController.addObject qt (newObject name)).run s = (recordId, s')) :
    (createObject qt name).run s =
      if recordId = DbController.INVALID_INDEX then (newObject name, s')
      else (DbController.getObject qt s'.db recordId, s') := by
  have hrun : (createObject qt name).run s =
      if ((DbController.addObject qt (newObject name)).run s).1 = DbController.INVALID_INDEX then
        (newObject name, ((DbController.addObject qt (newObject name)).run s).2)
      else (DbController.getObject qt ((DbController.addObject qt (newObject name)).run s).2.db
        ((DbController.addObject qt (newObject name)).run s).1,
        ((DbController.addObject qt (newObject name)).run s).2) := by
    rw [createObject]
    dsimp only
    rw [run_bind, run_ite]
    rfl
  rw [hrun, h]

/-- The row of a new object. -/
def objectRow (qt : VariantConversions QVariant) (name : QText) : ObjectRow QVariant :=
  { objectName := name, pid := none, state := qt.ofInt 0, editable := qt.ofBool false }

theorem run_addObject (qt : VariantConversions QVariant) (name : QText)
    (s : SettingsSession QVariant) :
    (s.Accepts s.db.objects ∧ ∃ t, s.db.objects.insert (objectRow qt name) =
        some (s.db.objects.nextId, t) ∧ (DbController.addObject qt (newObject name)).run s =
          (s.db.objects.nextId, s.withObjects t)) ∨
      (¬s.Accepts s.db.objects ∧
        (DbController.addObject qt (newObject name)).run s =
          (DbController.INVALID_INDEX, s.refuse)) :=
  DbController.run_exec_insert SettingsDb.objects (fun db objects => { db with objects })
    (objectRow qt name) s

theorem id_getObject {db : SettingsDb QVariant} {row : ObjectRow QVariant}
    (h : db.objects.get? id = some row) :
    (DbController.getObject qt db id).id = Int32.ofNat id := by
  obtain ⟨r, hfind, -⟩ := Option.map_eq_some_iff.mp h
  have hid : r.1 = id := by simpa using List.find?_some hfind
  rw [DbController.getObject, DbController.getObjectByParam, hfind]
  exact congrArg Int32.ofNat hid

theorem run_forM_addProperty (obj : Object QVariant) :
    (props.forM fun prop => do
      let _ ← DbController.addProperty qt (stationProperty qt obj.id prop)).run s =
      (PUnit.unit, props.foldl (addStationProperty qt obj.id) s) :=
  run_forM_eq_foldl (fun _ _ => rfl) props s

theorem run_createStation {obj : Object QVariant} {s' : SettingsSession QVariant}
    (h : (createObject qt name).run s = (obj, s'))
    (hobj : obj.id ≠ Int32.ofNat DbController.INVALID_INDEX) :
    (createStation qt name).run s =
      (obj, stationProperties.foldl (addStationProperty qt obj.id) s') := by
  rw [createStation, run_bind, h]
  dsimp only
  rw [run_ite, if_neg hobj, run_bind, run_forM_addProperty, run_pure]

/-- **An object that is not there** is refused, or it is created and the loop is run. -/
theorem run_getSettingsNode_of_none (qt : VariantConversions QVariant)
    (h : s.db.objectId? name = none) :
    (¬s.Accepts s.db.objects ∧ (getSettingsNode qt name).run s = (SettingsNode.new, s.refuse)) ∨
    (s.Accepts s.db.objects ∧ ∃ t obj, s.db.objects.insert (objectRow qt name) =
        some (s.db.objects.nextId, t) ∧
      (getSettingsNode qt name).run s = ({
        object := obj
        properties := DbController.getProperties qt
          (addStationProperties qt s.db.objects.nextId (s.withObjects t)).db
          s.db.objects.nextId },
        addStationProperties qt s.db.objects.nextId (s.withObjects t))) := by
  have hfound : (DbController.getObjectByName qt s.db name).id =
      Int32.ofNat DbController.INVALID_INDEX := by
    rw [id_getObjectByName, h, Option.getD_none]
  rcases run_addObject qt name s with ⟨haccepts, t, ht, hadd⟩ | ⟨hrefused, hadd⟩
  · have hlt := haccepts.2
    have hpos := s.db.objects.nextId_pos
    have hrecord : s.db.objects.nextId ≠ DbController.INVALID_INDEX := Nat.ne_of_gt hpos
    obtain ⟨obj, hobject, hid⟩ : ∃ obj, (createObject qt name).run s =
        (obj, s.withObjects t) ∧ obj.id = Int32.ofNat s.db.objects.nextId := by
      have hget : (s.withObjects t).db.objects.get? s.db.objects.nextId =
          some (objectRow qt name) := Table.insert_get? ht
      exact ⟨_, (run_createObject hadd).trans (if_neg hrecord), id_getObject hget⟩
    have hvalid : obj.id ≠ Int32.ofNat DbController.INVALID_INDEX := hid ▸ ofNat_ne_invalid hpos hlt
    have hstation := run_createStation hobject hvalid
    refine Or.inr ⟨haccepts, t, obj, ht, ?_⟩
    rw [run_getSettingsNode (by rw [if_pos hfound]; exact hstation), if_neg hvalid, hid,
      toNat_ofNat hlt, addStationProperties]
  · have hobject := run_createObject hadd
    rw [if_pos rfl] at hobject
    have hstation : (createStation qt name).run s = (newObject name, s.refuse) := by
      rw [createStation, run_bind, hobject]
      rfl
    refine Or.inl ⟨hrefused, ?_⟩
    rw [run_getSettingsNode (by rw [if_pos hfound]; exact hstation)]
    rfl

theorem getSettingsNode_cases {node : SettingsNode QVariant} {s' : SettingsSession QVariant}
    (hrun : (getSettingsNode qt name).run s = (node, s')) :
    (∃ id, s.db.objectId? name = some id ∧
      node.properties = DbController.getProperties qt s.db id ∧ s' = s) ∨
    (s.db.objectId? name = none ∧ ¬s.Accepts s.db.objects ∧ node.properties = [] ∧
      s' = s.refuse) ∨
    (s.db.objectId? name = none ∧ s.Accepts s.db.objects ∧ ∃ t,
      s.db.objects.insert (objectRow qt name) = some (s.db.objects.nextId, t) ∧
      node.properties = DbController.getProperties qt s'.db s.db.objects.nextId ∧
      s' = addStationProperties qt s.db.objects.nextId (s.withObjects t)) := by
  cases hthere : s.db.objectId? name with
  | some id =>
      rw [run_getSettingsNode_of_some hthere] at hrun
      obtain ⟨rfl, rfl⟩ := Prod.mk.inj hrun
      exact Or.inl ⟨id, rfl, rfl, rfl⟩
  | none =>
      rcases run_getSettingsNode_of_none qt hthere with
        ⟨hrefused, hnone⟩ | ⟨haccepts, t, obj, ht, hnew⟩
      · rw [hnone] at hrun
        obtain ⟨rfl, rfl⟩ := Prod.mk.inj hrun
        exact Or.inr (Or.inl ⟨rfl, hrefused, rfl, rfl⟩)
      · rw [hnew] at hrun
        obtain ⟨rfl, rfl⟩ := Prod.mk.inj hrun
        exact Or.inr (Or.inr ⟨rfl, haccepts, t, ht, rfl, rfl⟩)

theorem grows_getSettingsNode : Moves SettingsSession.Grows (getSettingsNode qt name) := by
  intro s
  obtain ⟨⟨node, s'⟩, hrun⟩ : ∃ answer, (getSettingsNode qt name).run s = answer := ⟨_, rfl⟩
  rw [hrun]
  rcases getSettingsNode_cases hrun with
    ⟨id, -, -, rfl⟩ | ⟨-, -, -, rfl⟩ | ⟨-, -, t, ht, -, rfl⟩
  · exact refl_of SettingsSession.Grows s'
  · exact ⟨.refl _, fun _ => rfl⟩
  · have hobject : s.Grows (s.withObjects t) :=
      ⟨⟨Table.insert_extends ht, .refl _, .refl _, fun _ _ hget => Or.inl hget⟩, id⟩
    have hloop : (s.withObjects t).Grows (addStationProperties qt
        s.db.objects.nextId (s.withObjects t)) :=
      adds_addStationProperties.toGrows
    dsimp only
    exact trans_of SettingsSession.Grows hobject hloop

theorem objectId?_insert {t : SettingsTable (ObjectRow QVariant)}
    (ht : s.db.objects.insert (objectRow qt name) = some (s.db.objects.nextId, t)) (n : QText) :
    (addStationProperties qt id (s.withObjects t)).db.objectId? n =
      (s.db.objectId? n).or (if n.sqlEq name then some s.db.objects.nextId else none) := by
  rw [SettingsDb.objectId?, adds_addStationProperties.objects]
  exact Table.firstId_insert ht _

theorem objectId?_insert_self {t : SettingsTable (ObjectRow QVariant)}
    (ht : s.db.objects.insert (objectRow qt name) = some (s.db.objects.nextId, t))
    (hnone : s.db.objectId? name = none) (hname : name.units ≠ none) :
    (addStationProperties qt id (s.withObjects t)).db.objectId? name =
      some s.db.objects.nextId := by
  rw [objectId?_insert ht, hnone, if_pos (QText.sqlEq_self hname), Option.none_or]

theorem objectId?_insert_of_ne {t : SettingsTable (ObjectRow QVariant)}
    (ht : s.db.objects.insert (objectRow qt name) = some (s.db.objects.nextId, t)) (h : n ≠ name) :
    (addStationProperties qt id (s.withObjects t)).db.objectId? n = s.db.objectId? n := by
  have hdifferent : ¬n.sqlEq name = true := fun hsame => h (QText.eq_of_sqlEq hsame)
  rw [objectId?_insert ht, if_neg hdifferent, Option.or_none]

end DbManager

end ArmOd
