import ArmOd.DbBla.Contents

/-!
# How the tables grow

The handling of position messages never deletes: along any sequence of writes the tables of UAVs,
roles, names, devices and sources keep their rows in place and only get longer, so what a lookup
found it will find again. `Adds W c c'` says that the contents changed by writes from `W` only, all
of them remembered; what is not written is as it was.
-/

namespace ArmOd

namespace Store

/-- The tables that rows are looked up in have kept their rows. -/
structure Grows (s s' : Store) : Prop where
  uav : s.uav.Extends s'.uav
  uavroles : s.uavroles.Extends s'.uavroles
  dictionary : ∀ d, (s.dictionary d).Extends (s'.dictionary d)
  devices : s.devices.Extends s'.devices
  sources : s.sources.Extends s'.sources

namespace Grows

theorem refl (s : Store) : s.Grows s :=
  ⟨Table.Extends.refl _, Table.Extends.refl _, fun _ => Table.Extends.refl _, Table.Extends.refl _,
    Table.Extends.refl _⟩

theorem trans {s s' s'' : Store} (h : s.Grows s') (h' : s'.Grows s'') : s.Grows s'' :=
  ⟨h.uav.trans h'.uav, h.uavroles.trans h'.uavroles, fun d =>
    (h.dictionary d).trans (h'.dictionary d),
    h.devices.trans h'.devices, h.sources.trans h'.sources⟩

theorem roleOf {s s' : Store} (h : s.Grows s') {id : Nat} {role : String}
    (hrole : s.roleOf id = some role) : s'.roleOf id = some role := by
  obtain ⟨row, hrow, hcode⟩ := Option.bind_eq_some_iff.mp hrole
  obtain ⟨roleRow, hroleRow, rfl⟩ := Option.map_eq_some_iff.mp hcode
  rw [Store.roleOf, h.uav.get? hrow, Option.bind_some, h.uavroles.get? hroleRow, Option.map_some]

end Grows

/-! ### One write -/

variable {s s' : Store} {id : Nat}

theorem exists_of_map_insert {τ : Type} {inserted : Option (Nat × τ)} {put : τ → Store}
    (h : inserted.map (fun p => (p.1, put p.2)) = some (id, s')) :
    ∃ t, inserted = some (id, t) ∧ s' = put t := by
  obtain ⟨p, hinsert, heq⟩ := Option.map_eq_some_iff.mp h
  obtain ⟨rfl, rfl⟩ := Prod.mk.inj heq
  exact ⟨p.2, hinsert, rfl⟩

theorem apply_insertUav {row : UavRow} (h : s.apply (.insertUav row) = some (id, s')) :
    ∃ t, s.uav.insert row = some (id, t) ∧ s' = { s with uav := t } :=
  exists_of_map_insert (Option.ite_none_right_eq_some.mp h).2

theorem apply_insertRole {row : RoleRow} (h : s.apply (.insertRole row) = some (id, s')) :
    ∃ t, s.uavroles.insert row = some (id, t) ∧ s' = { s with uavroles := t } :=
  exists_of_map_insert h

theorem apply_insertDictionary {d : Dictionary} {name : String}
    (h : s.apply (.insertDictionary d name) = some (id, s')) :
    ∃ t, (s.dictionary d).insert name = some (id, t) ∧
      s' = { s with dictionary := Function.update s.dictionary d t } :=
  exists_of_map_insert h

theorem apply_insertDevice {row : DeviceRow} (h : s.apply (.insertDevice row) = some (id, s')) :
    ∃ t, s.devices.insert row = some (id, t) ∧ s' = { s with devices := t } :=
  exists_of_map_insert (Option.ite_none_right_eq_some.mp h).2

theorem apply_insertSource {row : SourceRow} (h : s.apply (.insertSource row) = some (id, s')) :
    ∃ t, s.sources.insert row = some (id, t) ∧ s' = { s with sources := t } :=
  exists_of_map_insert (Option.ite_none_right_eq_some.mp h).2

/-- A write that rows are never looked up by: a record, a target, a mission, or a deletion of these.
-/
def IsLookedUp : Write → Prop
  | .insertUav _ | .insertRole _ | .insertDictionary _ _ | .insertDevice _ | .insertSource _ => True
  | _ => False

theorem apply_other {w : Write} (hw : ¬IsLookedUp w) (h : s.apply w = some (id, s')) :
    s'.uav = s.uav ∧ s'.uavroles = s.uavroles ∧ s'.dictionary = s.dictionary ∧
      s'.devices = s.devices ∧ s'.sources = s.sources := by
  cases w with
  | insertUav row => exact absurd trivial hw
  | insertRole row => exact absurd trivial hw
  | insertDictionary d name => exact absurd trivial hw
  | insertDevice row => exact absurd trivial hw
  | insertSource row => exact absurd trivial hw
  | insertInfo row =>
      have hinsert : s.insertInfo row = some (id, s') := (Option.ite_none_right_eq_some.mp h).2
      rw [insertInfo] at hinsert
      split at hinsert
      · cases hinsert
        exact ⟨rfl, rfl, rfl, rfl, rfl⟩
      · obtain ⟨_, -, rfl⟩ : ∃ t, s.info.insert row = some (id, t) ∧ s' = { s with info := t } :=
          exists_of_map_insert hinsert
        exact ⟨rfl, rfl, rfl, rfl, rfl⟩
  | insertTarget row =>
      obtain ⟨_, -, rfl⟩ : ∃ t, s.target.insert row = some (id, t) ∧ s' = { s with target := t } :=
        exists_of_map_insert (Option.ite_none_right_eq_some.mp h).2
      exact ⟨rfl, rfl, rfl, rfl, rfl⟩
  | insertMission row =>
      obtain ⟨_, -, rfl⟩ : ∃ t, s.uavmission.insert row = some (id, t) ∧
          s' = { s with uavmission := t } :=
        exists_of_map_insert (Option.ite_none_right_eq_some.mp h).2
      exact ⟨rfl, rfl, rfl, rfl, rfl⟩
  | deleteMissionsByUavId uavId =>
      cases h
      exact ⟨rfl, rfl, rfl, rfl, rfl⟩
  | deleteMissionsByTargetId targetId =>
      cases h
      exact ⟨rfl, rfl, rfl, rfl, rfl⟩
  | deleteTargetsByUavId uavId =>
      cases (Option.ite_none_left_eq_some.mp h).2
      exact ⟨rfl, rfl, rfl, rfl, rfl⟩
  | deleteTargetById targetId =>
      cases (Option.ite_none_left_eq_some.mp h).2
      exact ⟨rfl, rfl, rfl, rfl, rfl⟩

theorem apply_grows {w : Write} (h : s.apply w = some (id, s')) : s.Grows s' := by
  have hgrows := Grows.refl s
  cases w with
  | insertUav row =>
      obtain ⟨t, hinsert, rfl⟩ := apply_insertUav h
      exact { hgrows with uav := Table.insert_extends hinsert }
  | insertRole row =>
      obtain ⟨t, hinsert, rfl⟩ := apply_insertRole h
      exact { hgrows with uavroles := Table.insert_extends hinsert }
  | insertDictionary d name =>
      obtain ⟨t, hinsert, rfl⟩ := apply_insertDictionary h
      refine { hgrows with dictionary := fun d' => ?_ }
      by_cases hd : d' = d
      · subst hd
        change Table.Extends _ (Function.update s.dictionary d' t d')
        rw [Function.update_self]
        exact Table.insert_extends hinsert
      · change Table.Extends _ (Function.update s.dictionary d t d')
        rw [Function.update_of_ne hd]
        exact Table.Extends.refl _
  | insertDevice row =>
      obtain ⟨t, hinsert, rfl⟩ := apply_insertDevice h
      exact { hgrows with devices := Table.insert_extends hinsert }
  | insertSource row =>
      obtain ⟨t, hinsert, rfl⟩ := apply_insertSource h
      exact { hgrows with sources := Table.insert_extends hinsert }
  | _ =>
      obtain ⟨huav, hroles, hdict, hdevices, hsources⟩ := apply_other (by exact not_false) h
      constructor
      · rw [huav]; exact Table.Extends.refl _
      · rw [hroles]; exact Table.Extends.refl _
      · rw [hdict]; exact fun _ => Table.Extends.refl _
      · rw [hdevices]; exact Table.Extends.refl _
      · rw [hsources]; exact Table.Extends.refl _

/-- A write leaves the UAVs, the sources and every dictionary that it does not insert into. -/
theorem apply_keeps {w : Write} (h : s.apply w = some (id, s')) :
    ((∀ row, w ≠ .insertUav row) → s'.uav = s.uav) ∧
    (∀ d, (∀ name, w ≠ .insertDictionary d name) → s'.dictionary d = s.dictionary d) ∧
    ((∀ row, w ≠ .insertSource row) → s'.sources = s.sources) := by
  cases w with
  | insertUav row =>
      obtain ⟨t, _, rfl⟩ := apply_insertUav h
      exact ⟨fun hw => absurd rfl (hw row), fun _ _ => rfl, fun _ => rfl⟩
  | insertRole row =>
      obtain ⟨t, _, rfl⟩ := apply_insertRole h
      exact ⟨fun _ => rfl, fun _ _ => rfl, fun _ => rfl⟩
  | insertDictionary d' name =>
      obtain ⟨t, _, rfl⟩ := apply_insertDictionary h
      refine ⟨fun _ => rfl, fun d hw => ?_, fun _ => rfl⟩
      have hd : d ≠ d' := fun hd => hw name (by rw [hd])
      exact Function.update_of_ne hd t s.dictionary
  | insertDevice row =>
      obtain ⟨t, _, rfl⟩ := apply_insertDevice h
      exact ⟨fun _ => rfl, fun _ _ => rfl, fun _ => rfl⟩
  | insertSource row =>
      obtain ⟨t, _, rfl⟩ := apply_insertSource h
      exact ⟨fun _ => rfl, fun _ _ => rfl, fun hw => absurd rfl (hw row)⟩
  | _ =>
      obtain ⟨huav, -, hdict, -, hsources⟩ := apply_other (by exact not_false) h
      exact ⟨fun _ => huav, fun d _ => congrFun hdict d, fun _ => hsources⟩

theorem apply_uav_eq {w : Write} (hw : ∀ row, w ≠ .insertUav row) (h : s.apply w = some (id, s')) :
    s'.uav = s.uav :=
  (apply_keeps h).1 hw

theorem apply_dictionary_eq {w : Write} {d : Dictionary} (hw : ∀ name, w ≠ .insertDictionary d name)
    (h : s.apply w = some (id, s')) : s'.dictionary d = s.dictionary d :=
  (apply_keeps h).2.1 d hw

theorem apply_sources_eq {w : Write} (hw : ∀ row, w ≠ .insertSource row)
    (h : s.apply w = some (id, s')) : s'.sources = s.sources :=
  (apply_keeps h).2.2 hw

/-! ### Any number of writes -/

/-- What a list of writes makes of the tables. -/
inductive Writes : Store → List Write → Store → Prop
  | nil (s : Store) : Writes s [] s
  | cons {s mid s' : Store} {w : Write} {id : Nat} {ws : List Write}
        (happly : s.apply w = some (id, mid)) (hrest : Writes mid ws s') :
      Writes s (w :: ws) s'

namespace Writes

theorem single {w : Write} (h : s.apply w = some (id, s')) : s.Writes [w] s' := cons h (nil s')

theorem append {s'' : Store} {ws ws' : List Write} (h : s.Writes ws s') (h' : s'.Writes ws' s'') :
    s.Writes (ws ++ ws') s'' := by
  induction h with
  | nil => exact h'
  | cons happly _ ih => exact cons happly (ih h')

/-- **The tables only grow.** -/
theorem grows {ws : List Write} (h : s.Writes ws s') : s.Grows s' := by
  induction h with
  | nil s => exact Grows.refl s
  | cons happly _ ih => exact (apply_grows happly).trans ih

theorem keeps {τ : Type} {π : Store → τ} {P : Write → Prop} {ws : List Write}
    (hstep : ∀ {s s' : Store} {w : Write} {id : Nat}, P w → s.apply w = some (id, s') → π s' = π s)
    (h : s.Writes ws s') (hws : ∀ w ∈ ws, P w) : π s' = π s := by
  induction h with
  | nil => rfl
  | cons happly _ ih =>
      rw [ih fun w hw => hws w (List.mem_cons_of_mem _ hw), hstep (hws _ List.mem_cons_self) happly]

theorem uav_eq {ws : List Write} (h : s.Writes ws s')
    (hws : ∀ w ∈ ws, ∀ row, w ≠ .insertUav row) : s'.uav = s.uav :=
  h.keeps apply_uav_eq hws

theorem dictionary_eq {d : Dictionary} {ws : List Write} (h : s.Writes ws s')
    (hws : ∀ w ∈ ws, ∀ name, w ≠ .insertDictionary d name) :
    s'.dictionary d = s.dictionary d :=
  h.keeps apply_dictionary_eq hws

theorem sources_eq {ws : List Write} (h : s.Writes ws s')
    (hws : ∀ w ∈ ws, ∀ row, w ≠ .insertSource row) : s'.sources = s.sources :=
  h.keeps apply_sources_eq hws

end Writes

end Store

namespace StoreM

theorem run_bind_eq_some {α β : Type} {g : StoreM α} {k : α → StoreM β}
    {c c' : DbContents} {b : β} :
    (g >>= k).run c = some (b, c') ↔ ∃ a mid, g.run c = some (a, mid) ∧ (k a).run mid = some
    (b, c') := by
  rw [StateT.run_bind]
  simp [Option.bind_eq_some_iff]

theorem run_pure_eq_some {α : Type} {a b : α} {c c' : DbContents} : (pure a : StoreM α).run c = some
    (b, c') ↔ b = a ∧ c' = c := by
  simp [eq_comm]

theorem run_read_eq_some {α : Type} {f : Store → α} {c c' : DbContents} {a : α} :
    (read f).run c = some (a, c') ↔ a = f c.store ∧ c' = c := by
  simp [eq_comm]

theorem run_exec_eq_some {w : Write} {c c' : DbContents} {id : Nat} :
    (exec w).run c = some (id, c') ↔ c.store.apply w = some (id, c'.store) ∧
    c'.written = c.written ++ [w] := by
  rw [run_exec, Option.map_eq_some_iff]
  constructor
  · rintro ⟨⟨_, store⟩, happly, heq⟩
    cases heq
    exact ⟨happly, rfl⟩
  · rintro ⟨happly, hwritten⟩
    refine ⟨_, happly, ?_⟩
    simp only [← hwritten]

theorem run_getOrElse_eq_some {find : Store → Option Nat} {g : StoreM Nat} {c c' : DbContents}
    {id : Nat} :
    (getOrElse find g).run c = some (id, c') ↔
      find c.store = some id ∧ c' = c ∨ find c.store = none ∧ g.run c = some (id, c') := by
  rw [getOrElse, run_bind_eq_some]
  cases hfind : find c.store with
  | none => simp [hfind]
  | some found => simp [hfind, eq_comm]

end StoreM

/-- `c'` comes from `c` by writes from `W`. -/
def DbContents.Adds (W : Write → Prop) (c c' : DbContents) : Prop :=
  ∃ new, c'.written = c.written ++ new ∧ (∀ w ∈ new, W w) ∧ c.store.Writes new c'.store

namespace DbContents.Adds

variable {W W' : Write → Prop} {c c' c'' : DbContents}

theorem refl (c : DbContents) : c.Adds W c :=
  ⟨[], (List.append_nil _).symm, fun _ hw => absurd hw List.not_mem_nil, .nil _⟩

theorem trans (h : c.Adds W c') (h' : c'.Adds W c'') : c.Adds W c'' := by
  obtain ⟨new, hnew, hW, hwrites⟩ := h
  obtain ⟨new', hnew', hW', hwrites'⟩ := h'
  refine ⟨new ++ new', by rw [hnew', hnew, List.append_assoc], ?_, hwrites.append hwrites'⟩
  intro w hw
  rcases List.mem_append.mp hw with hw | hw
  · exact hW w hw
  · exact hW' w hw

theorem mono (h : c.Adds W c') (hW : ∀ w, W w → W' w) : c.Adds W' c' := by
  obtain ⟨new, hnew, hold, hwrites⟩ := h
  exact ⟨new, hnew, fun w hw => hW w (hold w hw), hwrites⟩

theorem grows (h : c.Adds W c') : c.store.Grows c'.store := by
  obtain ⟨_, _, _, hwrites⟩ := h
  exact hwrites.grows

theorem uav_eq (h : c.Adds W c') (hW : ∀ w, W w → ∀ row, w ≠ .insertUav row) :
    c'.store.uav = c.store.uav := by
  obtain ⟨_, _, hold, hwrites⟩ := h
  exact hwrites.uav_eq fun w hw => hW w (hold w hw)

theorem dictionary_eq {d : Dictionary} (h : c.Adds W c')
    (hW : ∀ w, W w → ∀ name, w ≠ .insertDictionary d name) :
    c'.store.dictionary d = c.store.dictionary d := by
  obtain ⟨_, _, hold, hwrites⟩ := h
  exact hwrites.dictionary_eq fun w hw => hW w (hold w hw)

theorem sources_eq (h : c.Adds W c') (hW : ∀ w, W w → ∀ row, w ≠ .insertSource row) :
    c'.store.sources = c.store.sources := by
  obtain ⟨_, _, hold, hwrites⟩ := h
  exact hwrites.sources_eq fun w hw => hW w (hold w hw)

theorem of_exec {w : Write} {id : Nat} (h : (StoreM.exec w).run c = some (id, c')) (hw : W w) :
    c.Adds W c' := by
  rw [StoreM.run_exec_eq_some] at h
  refine ⟨[w], h.2, fun w' hw' => ?_, .single h.1⟩
  rw [List.mem_singleton.mp hw']
  exact hw

theorem of_getOrCreate {find : Store → Option Nat} {w : Write} {id : Nat}
    (h : (StoreM.getOrCreate find w).run c = some (id, c'))
    (hw : W w) : c.Adds W c' := by
  rcases StoreM.run_getOrElse_eq_some.mp h with ⟨_, rfl⟩ | ⟨_, hexec⟩
  · exact refl c'
  · exact of_exec hexec hw

end DbContents.Adds

end ArmOd
