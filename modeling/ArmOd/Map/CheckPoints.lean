import ArmOd.Qt.Text

/-!
# The checkpoints of an ini file

The groups of the file are gone through with `beginGroup` and `endGroup` around the reading of each.
A group that lacks a value is left by a `continue` in front of its `endGroup`, so that it stays open:
the groups behind it are looked for inside of it.

What Qt makes of a file is a parameter: the values under their paths and the groups at the top, with
the conversions of a `QVariant`.
-/

namespace ArmOd

/-- What is asked of a `QVariant`. -/
structure Variants (QVariant : Type) where
  isNull : QVariant → Bool
  /-- `canConvert( QVariant::String )`. -/
  canConvertToString : QVariant → Bool
  /-- `canConvert( QVariant::Double )`. -/
  canConvertToDouble : QVariant → Bool
  toString : QVariant → String
  toDouble : QVariant → Double

/-- The content of an ini file: the values by the groups and the key that lead to them (a null value
where there is none), and the groups at the top. -/
structure IniFile (QVariant : Type) where
  value : List String → QVariant
  childGroups : List String

structure CheckPoint where
  name : String
  position : QPointF
  deriving DecidableEq, Repr

namespace MapClient1

variable {QVariant : Type}

/-- The open groups of the settings, and the list of the checkpoints. -/
@[ext]
structure CheckPointPass where
  groups : List String := []
  m_checkPointsList : List CheckPoint := []
  deriving DecidableEq, Repr

/-- A checkpoint with the values that are found in the groups; nothing where one of them is null or
cannot be converted. -/
def checkPoint? (qt : Variants QVariant) (ini : IniFile QVariant) (groups : List String) :
    Option CheckPoint :=
  let name := ini.value (groups ++ ["Name"])
  let lat := ini.value (groups ++ ["Latitude"])
  let lon := ini.value (groups ++ ["Longitude"])
  if qt.isNull name || !qt.canConvertToString name then none
  else if qt.isNull lat || !qt.canConvertToDouble lat then none
  else if qt.isNull lon || !qt.canConvertToDouble lon then none
  else some { name := qt.toString name, position := ⟨qt.toDouble lon, qt.toDouble lat⟩ }

/-- The body of the loop. -/
def passGroup (qt : Variants QVariant) (ini : IniFile QVariant) (p : CheckPointPass)
    (childKey : String) : CheckPointPass :=
  -- `beginGroup`
  let p := { p with groups := p.groups ++ [childKey] }
  match checkPoint? qt ini p.groups with
  | none => p
  | some checkPoint =>
    -- `endGroup` at the end
    { groups := p.groups.dropLast
      m_checkPointsList := p.m_checkPointsList ++ [checkPoint] }

def readCheckPointsFromFile (qt : Variants QVariant) (ini : IniFile QVariant)
    (m_checkPointsList : List CheckPoint) : CheckPointPass :=
  ini.childGroups.foldl (passGroup qt ini) { m_checkPointsList }

/-- The group has a name, a latitude and a longitude that are there and can be converted. -/
structure Complete (qt : Variants QVariant) (ini : IniFile QVariant) (childKey : String) :
    Prop where
  name : qt.isNull (ini.value [childKey, "Name"]) = false ∧
    qt.canConvertToString (ini.value [childKey, "Name"]) = true
  latitude : qt.isNull (ini.value [childKey, "Latitude"]) = false ∧
    qt.canConvertToDouble (ini.value [childKey, "Latitude"]) = true
  longitude : qt.isNull (ini.value [childKey, "Longitude"]) = false ∧
    qt.canConvertToDouble (ini.value [childKey, "Longitude"]) = true

/-- The checkpoint of a group at the top: its name, at its longitude and latitude. -/
def checkPointOf (qt : Variants QVariant) (ini : IniFile QVariant) (childKey : String) :
    CheckPoint where
  name := qt.toString (ini.value [childKey, "Name"])
  position := ⟨qt.toDouble (ini.value [childKey, "Longitude"]),
    qt.toDouble (ini.value [childKey, "Latitude"])⟩

instance (qt : Variants QVariant) (ini : IniFile QVariant) (childKey : String) :
    Decidable (Complete qt ini childKey) :=
  decidable_of_iff ((qt.isNull (ini.value [childKey, "Name"]) = false ∧
      qt.canConvertToString (ini.value [childKey, "Name"]) = true) ∧
    (qt.isNull (ini.value [childKey, "Latitude"]) = false ∧
      qt.canConvertToDouble (ini.value [childKey, "Latitude"]) = true) ∧
    qt.isNull (ini.value [childKey, "Longitude"]) = false ∧
      qt.canConvertToDouble (ini.value [childKey, "Longitude"]) = true)
    ⟨fun h => ⟨h.1, h.2.1, h.2.2⟩, fun h => ⟨h.name, h.latitude, h.longitude⟩⟩

/-- There is one more checkpoint for every complete group, and no group is open. -/
def ReadsGroups (qt : Variants QVariant) (ini : IniFile QVariant)
    (m_checkPointsList : List CheckPoint) : Prop :=
  readCheckPointsFromFile qt ini m_checkPointsList =
    { groups := []
      m_checkPointsList := m_checkPointsList ++
        (ini.childGroups.filter fun childKey => Complete qt ini childKey).map
          (checkPointOf qt ini) }

variable {qt : Variants QVariant} {ini : IniFile QVariant} {p : CheckPointPass}
  {childKey : String} {childKeys groups : List String}

/-- At the top the body of the loop makes the checkpoints of the complete groups. -/
theorem checkPoint?_singleton (childKey : String) : checkPoint? qt ini [childKey] =
    if Complete qt ini childKey then some (checkPointOf qt ini childKey) else none := by
  split
  · rename_i hcomplete
    obtain ⟨hname, hlatitude, hlongitude⟩ := hcomplete
    simp [checkPoint?, checkPointOf, hname, hlatitude, hlongitude]
  · rename_i hincomplete
    rw [Option.eq_none_iff_forall_not_mem]
    intro checkPoint hsome
    simp only [checkPoint?, List.singleton_append, Option.mem_def, Option.ite_none_left_eq_some,
      Bool.or_eq_true, not_or, Bool.not_eq_true, Bool.not_eq_false'] at hsome
    exact hincomplete ⟨hsome.1, hsome.2.1, hsome.2.2.1⟩

theorem isSome_checkPoint?_iff (childKey : String) :
    (checkPoint? qt ini [childKey]).isSome ↔ Complete qt ini childKey := by
  rw [checkPoint?_singleton]
  split <;> simp [*]

theorem filterMap_checkPoint? (childKeys : List String) :
    (childKeys.filterMap fun childKey => checkPoint? qt ini [childKey]) =
      (childKeys.filter fun childKey => Complete qt ini childKey).map (checkPointOf qt ini) := by
  simp only [checkPoint?_singleton]
  induction childKeys with
  | nil => rfl
  | cons childKey childKeys ih =>
      by_cases hcomplete : Complete qt ini childKey <;> simp [hcomplete, ih]

theorem passGroup_of_some {checkPoint : CheckPoint}
    (h : checkPoint? qt ini (p.groups ++ [childKey]) = some checkPoint) :
    passGroup qt ini p childKey =
      { groups := p.groups, m_checkPointsList := p.m_checkPointsList ++ [checkPoint] } := by
  rw [passGroup]
  dsimp only
  rw [h]
  simp only [List.dropLast_concat]

theorem passGroup_of_none (h : checkPoint? qt ini (p.groups ++ [childKey]) = none) :
    passGroup qt ini p childKey = { p with groups := p.groups ++ [childKey] } := by
  rw [passGroup]
  dsimp only
  rw [h]

theorem groups_foldl_passGroup :
    p.groups <+: (childKeys.foldl (passGroup qt ini) p).groups := by
  induction childKeys generalizing p with
  | nil => exact List.prefix_rfl
  | cons childKey childKeys ih =>
      rw [List.foldl_cons]
      refine List.IsPrefix.trans ?_ ih
      cases h : checkPoint? qt ini (p.groups ++ [childKey]) with
      | none =>
          rw [passGroup_of_none h]
          exact List.prefix_append _ _
      | some checkPoint =>
          rw [passGroup_of_some h]

/-- The loop comes back to the groups it started in exactly when it finds every group complete. -/
theorem groups_foldl_eq_iff : (childKeys.foldl (passGroup qt ini) p).groups = p.groups ↔
    ∀ childKey ∈ childKeys, (checkPoint? qt ini (p.groups ++ [childKey])).isSome := by
  induction childKeys generalizing p with
  | nil => exact iff_of_true rfl fun _ hkey => absurd hkey List.not_mem_nil
  | cons childKey childKeys ih =>
      rw [List.foldl_cons, List.forall_mem_cons]
      cases h : checkPoint? qt ini (p.groups ++ [childKey]) with
      | none =>
          refine iff_of_false (fun hback => ?_) fun hall => absurd hall.1 (by simp)
          have hopen := @groups_foldl_passGroup _ qt ini (passGroup qt ini p childKey) childKeys
          rw [hback, passGroup_of_none h] at hopen
          have hlength := hopen.length_le
          rw [List.length_append, List.length_singleton] at hlength
          omega
      | some checkPoint =>
          have hrest := @ih (passGroup qt ini p childKey)
          rw [passGroup_of_some h] at hrest ⊢
          rw [hrest, and_iff_right Option.isSome_some]

theorem foldl_passGroup (h : ∀ childKey ∈ childKeys,
    (checkPoint? qt ini (p.groups ++ [childKey])).isSome) :
    (childKeys.foldl (passGroup qt ini) p).m_checkPointsList = p.m_checkPointsList ++
      childKeys.filterMap fun childKey => checkPoint? qt ini (p.groups ++ [childKey]) := by
  induction childKeys generalizing p with
  | nil => rw [List.filterMap_nil, List.append_nil, List.foldl_nil]
  | cons childKey childKeys ih =>
      obtain ⟨⟨checkPoint, hfirst⟩, hrest⟩ := (List.forall_mem_cons.mp h).imp_left
        Option.isSome_iff_exists.mp
      simp only [List.foldl_cons, passGroup_of_some hfirst, List.filterMap_cons, hfirst]
      rw [ih (p := ⟨p.groups, p.m_checkPointsList ++ [checkPoint]⟩) hrest, List.append_assoc,
        List.singleton_append]

/-- **The checkpoints are read** exactly when every group is complete. -/
theorem readsGroups_iff (qt : Variants QVariant) (ini : IniFile QVariant)
    (m_checkPointsList : List CheckPoint) :
    ReadsGroups qt ini m_checkPointsList ↔
      ∀ childKey ∈ ini.childGroups, Complete qt ini childKey := by
  have hgroups := @groups_foldl_eq_iff _ qt ini { m_checkPointsList } ini.childGroups
  simp only [List.nil_append, isSome_checkPoint?_iff] at hgroups
  constructor
  · intro hreads
    have hclosed : (readCheckPointsFromFile qt ini m_checkPointsList).groups = [] :=
      congrArg CheckPointPass.groups hreads
    exact hgroups.mp hclosed
  · intro hcomplete
    have hlist := foldl_passGroup (p := { m_checkPointsList }) fun childKey hkey =>
      (isSome_checkPoint?_iff childKey).mpr (hcomplete childKey hkey)
    rw [ReadsGroups, readCheckPointsFromFile, ← filterMap_checkPoint?]
    exact CheckPointPass.ext_iff.mpr ⟨hgroups.mpr hcomplete, hlist⟩

/-- Values that are texts. -/
def texts : Variants (Option String) where
  isNull value := value.isNone
  canConvertToString _ := true
  canConvertToDouble _ := true
  toString value := value.getD ""
  toDouble value := Text.decimal (value.getD "").toList

/-- A group without a longitude, and a complete one behind it. -/
def twoGroups : IniFile (Option String) where
  value path :=
    if path = ["A", "Name"] then some "A" else if path = ["A", "Latitude"] then some "60"
    else if path = ["B", "Name"] then some "B" else if path = ["B", "Latitude"] then some "60"
    else if path = ["B", "Longitude"] then some "30" else none
  childGroups := ["A", "B"]

/-- The complete group is not read. -/
theorem not_readsGroups_twoGroups : ¬ReadsGroups texts twoGroups [] := by
  rw [ReadsGroups]
  decide +kernel

end MapClient1

end ArmOd
