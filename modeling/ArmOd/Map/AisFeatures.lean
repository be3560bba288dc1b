import ArmOd.Base.Latest
import ArmOd.Base.Run
import ArmOd.Map.Shapes

/-!
# The AIS features of the map

`setAisData` moves the features of the ships that are still there from the list to a new one, makes
features for the others, and deletes what is left on the list. Features are numbered as they are
made, and the ones that have not been deleted are kept with what they show.

A ship that is named twice in one message is looked up in the old list, from which its first entry
has taken it: its second entry makes another feature, and the new list forgets the first one. And a
feature is not updated where the comparison of positions, which is a fuzzy one, sees no difference.
-/

namespace ArmOd

/-- What a feature shows. -/
structure Ais where
  name : String
  position : QPointF
  course : Double
  deriving DecidableEq, Repr

namespace MapClient1

/-- The list of the AIS features, the features that have not been deleted, and how many were made. -/
structure AisFeatures where
  m_aisList : QMap String Nat := ∅
  live : QMap Nat Ais := ∅
  created : Nat := 0

/-- The data of one call. -/
abbrev AisData := QMap Int (List String)

/-- An entry of the data; nothing where one of its numbers is none. The outer `none` is an index
outside of the vector. -/
def readAis (toDouble : String → Option Double) (vec : List String) : Option (Option Ais) := do
  match toDouble (← vec[1]?) with
  | none => return none
  | some lon =>
    match toDouble (← vec[2]?) with
    | none => return none
    | some lat =>
      match toDouble (← vec[5]?) with
      | none => return none
      | some course => return some { name := ← vec[0]?, position := ⟨lon, lat⟩, course }

/-- What an old feature shows after an entry of its name. `same` is `==` of two positions. -/
def updated (same : QPointF → QPointF → Bool) (entry ais : Ais) : Ais :=
  if ais.name = entry.name ∧ same ais.position entry.position = true ∧
    ais.course.eq entry.course = true then ais else entry

/-- The features while the data is gone through. -/
structure AisPass extends AisFeatures where
  newAisList : QMap String Nat := ∅

/-- The loop over the data, at an entry that could be read. -/
def passAis (same : QPointF → QPointF → Bool) (p : AisPass) (entry : Ais) : AisPass :=
  match p.m_aisList[entry.name]? with
  | some ais =>
    { p with
      m_aisList := p.m_aisList.erase entry.name
      newAisList := p.newAisList.insert entry.name ais
      live := p.live.modify ais (updated same entry) }
  | none =>
    { p with
      newAisList := p.newAisList.insert entry.name p.created
      live := p.live.insert p.created entry
      created := p.created + 1 }

/-- What is left on the old list is deleted, and the new list takes its place. -/
def clearAis (p : AisPass) : AisFeatures where
  m_aisList := p.newAisList
  live := p.live.filter fun ais _ => !QMap.hasValue p.m_aisList ais
  created := p.created

/-- The loop over the data. -/
def passVec (same : QPointF → QPointF → Bool) (toDouble : String → Option Double) (p : AisPass)
    (vec : List String) : Option AisPass := do
  match ← readAis toDouble vec with
  | some entry => return passAis same p entry
  | none => return p

def setAisData (same : QPointF → QPointF → Bool) (toDouble : String → Option Double)
    (data : AisData) (s : AisFeatures) : Option AisFeatures := do
  let p ← (QMap.values data).foldlM (passVec same toDouble) { s with }
  return clearAis p

/-- The entries whose numbers can be read, in the order of the data. -/
def entries (toDouble : String → Option Double) (data : AisData) : List Ais :=
  (QMap.values data).filterMap fun vec => (readAis toDouble vec).join

/-- Every index is inside of its vector. -/
def Readable (toDouble : String → Option Double) (data : AisData) : Prop :=
  ∀ vec ∈ QMap.values data, (readAis toDouble vec).isSome

/-- The features are those on the list; there is one for every name in the entries, and it shows the
last entry of its name. -/
structure Shows (es : List Ais) (s : AisFeatures) : Prop where
  owned : ∀ ais : Nat, ais ∈ s.live ↔ ∃ name : String, s.m_aisList[name]? = some ais
  names : ∀ name : String, name ∈ s.m_aisList ↔ name ∈ es.map Ais.name
  single : ∀ {name name' : String} {ais : Nat}, s.m_aisList[name]? = some ais →
    s.m_aisList[name']? = some ais → name = name'
  latest : ∀ e ∈ latest Ais.name es, ∃ ais : Nat,
    s.m_aisList[e.name]? = some ais ∧ s.live[ais]? = some e

/-- The features after some calls, and the data of the last one. -/
structure AisRun where
  features : Option AisFeatures := some {}
  last : AisData := ∅

def AisRun.next (same : QPointF → QPointF → Bool) (toDouble : String → Option Double) (r : AisRun)
    (data : AisData) : AisRun where
  features := r.features.bind (setAisData same toDouble data)
  last := data

/-- The list shows the last data. -/
def AisRun.Good (toDouble : String → Option Double) (r : AisRun) : Prop :=
  ∃ s, r.features = some s ∧ Shows (entries toDouble r.last) s

/-- Every index of the data is inside of its vector, no name stands in it twice, and an entry whose
position compares equal to the one its ship had before, with an equal course, has that position. -/
structure Distinct (same : QPointF → QPointF → Bool) (toDouble : String → Option Double)
    (last data : AisData) : Prop where
  readable : Readable toDouble data
  nodup : ((entries toDouble data).map Ais.name).Nodup
  moved : ∀ e ∈ entries toDouble data, ∀ old ∈ entries toDouble last, old.name = e.name →
    same old.position e.position = true → old.course.eq e.course = true →
    old.position = e.position

variable {same : QPointF → QPointF → Bool} {toDouble : String → Option Double} {data : AisData}
  {vecs : List (List String)} {p q : AisPass} {s : AisFeatures} {es : List Ais} {e : Ais}
  {name : String} {ais : Nat}

/-! ### The data -/

theorem foldlM_of_readable (h : ∀ vec ∈ vecs, (readAis toDouble vec).isSome) :
    vecs.foldlM (passVec same toDouble) p = some
      ((vecs.filterMap fun vec => (readAis toDouble vec).join).foldl (passAis same) p) := by
  induction vecs generalizing p with
  | nil => rfl
  | cons vec vecs ih =>
      obtain ⟨read, hread⟩ := Option.isSome_iff_exists.mp (h vec List.mem_cons_self)
      have hrest := fun p => @ih p fun vec hvec => h vec (List.mem_cons_of_mem _ hvec)
      rw [List.foldlM_cons, List.filterMap_cons, passVec, hread]
      cases read with
      | none => exact hrest p
      | some entry => exact hrest (passAis same p entry)

theorem readable_of_foldlM (h : vecs.foldlM (passVec same toDouble) p = some q) :
    ∀ vec ∈ vecs, (readAis toDouble vec).isSome := by
  induction vecs generalizing p with
  | nil => exact fun _ hvec => absurd hvec List.not_mem_nil
  | cons vec vecs ih =>
      rw [List.foldlM_cons] at h
      obtain ⟨mid, hmid, hrest⟩ := Option.bind_eq_some_iff.mp h
      obtain ⟨read, hread, -⟩ := Option.bind_eq_some_iff.mp hmid
      intro v hv
      rcases List.mem_cons.mp hv with rfl | hv
      · rw [hread]
        rfl
      · exact ih hrest v hv

theorem setAisData_of_readable (h : Readable toDouble data) : setAisData same toDouble data s =
    some (clearAis ((entries toDouble data).foldl (passAis same) { s with })) := by
  rw [setAisData, foldlM_of_readable h]
  rfl

theorem readable_of_setAisData {s' : AisFeatures} (h : setAisData same toDouble data s = some s') :
    Readable toDouble data := by
  obtain ⟨q, hq, -⟩ := Option.bind_eq_some_iff.mp h
  exact readable_of_foldlM hq

/-! ### The lists and the features -/

/-- One of the two lists has the feature under that name. -/
def AisPass.Owns (p : AisPass) (name : String) (ais : Nat) : Prop :=
  p.m_aisList[name]? = some ais ∨ p.newAisList[name]? = some ais

/-- A feature that has not been deleted and that neither list has. -/
def AisPass.Leaks (p : AisPass) : Prop := ∃ ais ∈ p.live, ∀ name, ¬p.Owns name ais

structure AisPass.Tidy (p : AisPass) : Prop where
  bounded : ∀ ais ∈ p.live, ais < p.created
  owned : ∀ {name : String} {ais : Nat}, p.Owns name ais → ais ∈ p.live
  single : ∀ {name name' : String} {ais : Nat}, p.Owns name ais → p.Owns name' ais → name = name'
  parted : ∀ name ∈ p.newAisList, name ∉ p.m_aisList

theorem passAis_of_some (h : p.m_aisList[e.name]? = some ais) : passAis same p e =
    { p with
      m_aisList := p.m_aisList.erase e.name
      newAisList := p.newAisList.insert e.name ais
      live := p.live.modify ais (updated same e) } := by
  rw [passAis, h]

theorem passAis_of_none (h : p.m_aisList[e.name]? = none) : passAis same p e =
    { p with
      newAisList := p.newAisList.insert e.name p.created
      live := p.live.insert p.created e
      created := p.created + 1 } := by
  rw [passAis, h]

theorem mem_newAisList_passAis :
    name ∈ (passAis same p e).newAisList ↔ e.name = name ∨ name ∈ p.newAisList := by
  cases h : p.m_aisList[e.name]? with
  | some ais =>
      rw [passAis_of_some h]
      exact QMap.mem_insert
  | none =>
      rw [passAis_of_none h]
      exact QMap.mem_insert

/-- Both lists together have what they had: the feature goes from one to the other. -/
theorem AisPass.Tidy.owns_of_some {a : Nat} (hp : p.Tidy) (h : p.m_aisList[e.name]? = some a) :
    (passAis same p e).Owns name ais ↔ p.Owns name ais := by
  have hnew : p.newAisList[e.name]? = none :=
    Std.TreeMap.getElem?_eq_none fun hmem => hp.parted _ hmem (QMap.mem_of_getElem? h)
  rw [passAis_of_some h, Owns, Owns, QMap.getElem?_erase, QMap.getElem?_insert]
  by_cases hname : e.name = name
  · rw [if_pos hname, if_pos hname, ← hname, h, hnew]
    exact or_comm
  · rw [if_neg hname, if_neg hname]

theorem AisPass.owns_of_none (h : p.m_aisList[e.name]? = none) : (passAis same p e).Owns name ais ↔
    (e.name = name ∧ ais = p.created) ∨ (e.name ≠ name ∧ p.Owns name ais) := by
  rw [passAis_of_none h, Owns, Owns, QMap.getElem?_insert]
  by_cases hname : e.name = name
  · subst hname
    rw [if_pos rfl, h]
    constructor
    · rintro (⟨⟨⟩⟩ | heq)
      exact Or.inl ⟨rfl, (Option.some.inj heq).symm⟩
    · rintro (⟨-, rfl⟩ | ⟨hne, -⟩)
      · exact Or.inr rfl
      · exact absurd rfl hne
  · rw [if_neg hname]
    exact ⟨fun hown => Or.inr ⟨hname, hown⟩, fun hown => (hown.resolve_left fun h => hname h.1).2⟩

theorem mem_live_of_some {a : Nat} (h : p.m_aisList[e.name]? = some a) :
    ais ∈ (passAis same p e).live ↔ ais ∈ p.live := by
  rw [passAis_of_some h]
  exact Std.TreeMap.mem_modify

theorem mem_live_of_none (h : p.m_aisList[e.name]? = none) :
    ais ∈ (passAis same p e).live ↔ p.created = ais ∨ ais ∈ p.live := by
  rw [passAis_of_none h]
  exact QMap.mem_insert

theorem AisPass.Tidy.not_owns_created (hp : p.Tidy) : ¬p.Owns name p.created :=
  fun hown => absurd (hp.bounded _ (hp.owned hown)) (lt_irrefl _)

theorem AisPass.Tidy.moved {a : Nat} (hp : p.Tidy) (h : p.m_aisList[e.name]? = some a) :
    (passAis same p e).Tidy := by
  refine ⟨fun ais hais => ?_, fun hown => ?_, fun hown hown' => ?_, fun name hmem => ?_⟩
  · have hlt := hp.bounded ais ((mem_live_of_some h).mp hais)
    rw [passAis_of_some h]
    exact hlt
  · exact (mem_live_of_some h).mpr (hp.owned ((hp.owns_of_some h).mp hown))
  · exact hp.single ((hp.owns_of_some h).mp hown) ((hp.owns_of_some h).mp hown')
  · rw [passAis_of_some h, QMap.mem_erase]
    rcases mem_newAisList_passAis.mp hmem with heq | hold
    · exact fun herase => herase.1 heq
    · exact fun herase => hp.parted name hold herase.2

theorem AisPass.Tidy.made (hp : p.Tidy) (h : p.m_aisList[e.name]? = none) :
    (passAis same p e).Tidy := by
  refine ⟨fun ais hais => ?_, fun hown => ?_, fun hown hown' => ?_, fun name hmem => ?_⟩
  · have hlt : ais < p.created + 1 := by
      rcases (mem_live_of_none h).mp hais with rfl | hold
      · exact Nat.lt_succ_self _
      · exact (hp.bounded ais hold).trans (Nat.lt_succ_self _)
    rw [passAis_of_none h]
    exact hlt
  · rcases (owns_of_none h).mp hown with ⟨-, rfl⟩ | ⟨-, hold⟩
    · exact (mem_live_of_none h).mpr (Or.inl rfl)
    · exact (mem_live_of_none h).mpr (Or.inr (hp.owned hold))
  · rcases (owns_of_none h).mp hown with ⟨rfl, rfl⟩ | ⟨-, hold⟩
    · rcases (owns_of_none h).mp hown' with ⟨heq, -⟩ | ⟨-, hold⟩
      · exact heq
      · exact absurd hold hp.not_owns_created
    · rcases (owns_of_none h).mp hown' with ⟨-, rfl⟩ | ⟨-, hold'⟩
      · exact absurd hold hp.not_owns_created
      · exact hp.single hold hold'
  · rw [passAis_of_none h]
    rcases mem_newAisList_passAis.mp hmem with rfl | hold
    · intro hleft
      obtain ⟨ais, hget⟩ := QMap.mem_iff.mp hleft
      rw [h] at hget
      cases hget
    · exact hp.parted name hold

theorem AisPass.Tidy.passAis (hp : p.Tidy) : (passAis same p e).Tidy := by
  cases h : p.m_aisList[e.name]? with
  | some a => exact hp.moved h
  | none => exact hp.made h

/-- A feature is leaked by a name that the new list already has. -/
theorem AisPass.Tidy.leaks_passAis (hp : p.Tidy) :
    (MapClient1.passAis same p e).Leaks ↔ p.Leaks ∨ e.name ∈ p.newAisList := by
  cases h : p.m_aisList[e.name]? with
  | some a =>
      have hnew : e.name ∉ p.newAisList := fun hmem =>
        hp.parted _ hmem (QMap.mem_of_getElem? h)
      rw [or_iff_left hnew]
      exact exists_congr fun ais => and_congr (mem_live_of_some h)
        (forall_congr' fun name => not_congr (hp.owns_of_some h))
  | none =>
      constructor
      · rintro ⟨ais, hais, hfree⟩
        by_cases hown : p.Owns e.name ais
        · exact Or.inr (QMap.mem_of_getElem? (hown.resolve_left (by rw [h]; exact nofun)))
        refine Or.inl ⟨ais, ((mem_live_of_none h).mp hais).resolve_left ?_, fun name hname => ?_⟩
        · rintro rfl
          exact hfree e.name ((owns_of_none h).mpr (Or.inl ⟨rfl, rfl⟩))
        · refine hfree name ((owns_of_none h).mpr (Or.inr ⟨?_, hname⟩))
          rintro rfl
          exact hown hname
      · rintro (⟨ais, hais, hfree⟩ | hmem)
        · refine ⟨ais, (mem_live_of_none h).mpr (Or.inr hais), fun name hown => ?_⟩
          rcases (owns_of_none h).mp hown with ⟨-, rfl⟩ | ⟨-, hold⟩
          · exact absurd (hp.bounded _ hais) (lt_irrefl _)
          · exact hfree name hold
        · obtain ⟨ais, hget⟩ := QMap.mem_iff.mp hmem
          have hais : ais ∈ p.live := hp.owned (Or.inr hget)
          refine ⟨ais, (mem_live_of_none h).mpr (Or.inr hais), fun name hown => ?_⟩
          rcases (owns_of_none h).mp hown with ⟨-, rfl⟩ | ⟨hne, hold⟩
          · exact absurd (hp.bounded _ hais) (lt_irrefl _)
          · exact hne (hp.single (Or.inr hget) hold)

/-! ### The loop -/

/-- What the feature of an entry shows, after a message that names its ship once. -/
def shown (same : QPointF → QPointF → Bool) (s : AisFeatures) (e : Ais) : Ais :=
  match s.m_aisList[e.name]?.bind fun ais => s.live[ais]? with
  | some old => updated same e old
  | none => e

/-- The features after the entries `es`, from `s`. -/
structure Passed (same : QPointF → QPointF → Bool) (s : AisFeatures) (es : List Ais)
    (p : AisPass) : Prop where
  tidy : p.Tidy
  names : ∀ name : String, name ∈ p.newAisList ↔ name ∈ es.map Ais.name
  left : ∀ name : String, name ∉ es.map Ais.name → p.m_aisList[name]? = s.m_aisList[name]?
  kept : ∀ {name : String} {ais : Nat}, p.m_aisList[name]? = some ais →
    s.m_aisList[name]? = some ais ∧ p.live[ais]? = s.live[ais]?
  leaks : p.Leaks ↔ ¬(es.map Ais.name).Nodup
  shows : (es.map Ais.name).Nodup → ∀ e ∈ es, ∃ ais : Nat,
    p.newAisList[e.name]? = some ais ∧ p.live[ais]? = some (shown same s e)

theorem Passed.shows_passAis (h : Passed same s es p) (hnew : e.name ∉ es.map Ais.name) :
    ∃ ais : Nat, (passAis same p e).newAisList[e.name]? = some ais ∧
      (passAis same p e).live[ais]? = some (shown same s e) := by
  cases hold : p.m_aisList[e.name]? with
  | some a =>
      obtain ⟨hfirst, hlive⟩ := h.kept hold
      obtain ⟨old, hshow⟩ := QMap.mem_iff.mp (h.tidy.owned (Or.inl hold))
      rw [passAis_of_some hold]
      refine ⟨a, by rw [QMap.getElem?_insert, if_pos rfl], ?_⟩
      rw [shown, hfirst, Option.bind_some, ← hlive, hshow]
      rw [Std.TreeMap.getElem?_modify, if_pos (Std.compare_eq_iff_eq.mpr rfl), hshow]
      rfl
  | none =>
      rw [passAis_of_none hold]
      refine ⟨p.created, by rw [QMap.getElem?_insert, if_pos rfl], ?_⟩
      rw [QMap.getElem?_insert, if_pos rfl, shown, ← h.left _ hnew, hold]
      rfl

/-- An entry leaves the features of the other ships alone. -/
theorem AisPass.Tidy.live_passAis (hp : p.Tidy) (hown : p.Owns name ais) (hne : e.name ≠ name) :
    (MapClient1.passAis same p e).live[ais]? = p.live[ais]? := by
  cases hold : p.m_aisList[e.name]? with
  | some a =>
      rw [passAis_of_some hold, Std.TreeMap.getElem?_modify, if_neg]
      rw [Std.compare_eq_iff_eq]
      rintro rfl
      exact hne (hp.single (Or.inl hold) hown)
  | none =>
      rw [passAis_of_none hold, QMap.getElem?_insert, if_neg]
      rintro rfl
      exact absurd (hp.bounded _ (hp.owned hown)) (lt_irrefl _)

theorem newAisList_passAis_of_ne (hne : e.name ≠ name) :
    (passAis same p e).newAisList[name]? = p.newAisList[name]? := by
  cases hold : p.m_aisList[e.name]? with
  | some a => rw [passAis_of_some hold, QMap.getElem?_insert, if_neg hne]
  | none => rw [passAis_of_none hold, QMap.getElem?_insert, if_neg hne]

theorem m_aisList_passAis :
    (passAis same p e).m_aisList[name]? = if e.name = name then none else p.m_aisList[name]? := by
  cases hold : p.m_aisList[e.name]? with
  | some a => rw [passAis_of_some hold, QMap.getElem?_erase]
  | none =>
      rw [passAis_of_none hold]
      by_cases hname : e.name = name
      · rw [if_pos hname, ← hname, hold]
      · rw [if_neg hname]

theorem Passed.passAis (h : Passed same s es p) : Passed same s (es ++ [e])
    (MapClient1.passAis same p e) where
  tidy := h.tidy.passAis
  names name := by
    rw [mem_newAisList_passAis, h.names, List.map_append, List.mem_append, List.map_singleton,
      List.mem_singleton, or_comm, eq_comm]
  left name hname := by
    rw [List.map_append, List.mem_append, not_or, List.map_singleton, List.mem_singleton] at hname
    rw [m_aisList_passAis, if_neg (Ne.symm hname.2), h.left name hname.1]
  kept {name ais} hget := by
    rw [m_aisList_passAis] at hget
    split at hget
    · cases hget
    · rename_i hne
      rw [h.tidy.live_passAis (Or.inl hget) hne]
      exact h.kept hget
  leaks := by
    rw [h.tidy.leaks_passAis, h.leaks, h.names, List.map_append, List.map_singleton,
      ← List.concat_eq_append, List.nodup_concat, not_and_or, not_not, or_comm]
  shows hnodup e' he' := by
    rw [List.map_append, List.map_singleton, ← List.concat_eq_append, List.nodup_concat] at hnodup
    obtain ⟨hnew, hnodup⟩ := hnodup
    rcases List.mem_append.mp he' with hold | hlast
    · have hne : e.name ≠ e'.name := fun heq => hnew (heq ▸ List.mem_map_of_mem hold)
      obtain ⟨ais, hget, hshow⟩ := h.shows hnodup e' hold
      refine ⟨ais, (newAisList_passAis_of_ne hne).trans hget, ?_⟩
      rw [h.tidy.live_passAis (Or.inr hget) hne, hshow]
    · rw [List.mem_singleton.mp hlast]
      exact h.shows_passAis hnew

theorem Passed.foldl (h : Passed same s [] { s with }) (es : List Ais) :
    Passed same s es (es.foldl (MapClient1.passAis same) { s with }) := by
  induction es using List.reverseRecOn with
  | nil => exact h
  | append_singleton es e ih =>
      rw [List.foldl_concat]
      exact ih.passAis

/-! ### The call -/

theorem getElem?_live_clearAis {a : Ais} : (clearAis p).live[ais]? = some a ↔
    p.live[ais]? = some a ∧ ∀ name : String, p.m_aisList[name]? ≠ some ais := by
  rw [clearAis, Std.TreeMap.getElem?_filter', Option.filter_eq_some_iff, Bool.not_eq_true',
    Bool.eq_false_iff, ne_eq, QMap.hasValue_iff, not_exists]

theorem mem_live_clearAis : ais ∈ (clearAis p).live ↔
    ais ∈ p.live ∧ ∀ name : String, p.m_aisList[name]? ≠ some ais := by
  rw [QMap.mem_iff, QMap.mem_iff, ← exists_and_right]
  exact exists_congr fun _ => getElem?_live_clearAis

theorem AisPass.Tidy.not_left (hp : p.Tidy) (h : p.newAisList[name]? = some ais) (name' : String) :
    p.m_aisList[name']? ≠ some ais := by
  intro hold
  have hmem := QMap.mem_of_getElem? h
  rw [hp.single (Or.inr h) (Or.inl hold)] at hmem
  exact hp.parted _ hmem (QMap.mem_of_getElem? hold)

/-- The call deletes all that the new list does not have, unless a feature was leaked. -/
theorem AisPass.Tidy.owned_clearAis_iff (hp : p.Tidy) :
    (∀ ais : Nat, ais ∈ (clearAis p).live ↔
      ∃ name : String, (clearAis p).m_aisList[name]? = some ais) ↔ ¬p.Leaks := by
  constructor
  · rintro h ⟨ais, hlive, hfree⟩
    have hkept : ais ∈ (clearAis p).live :=
      mem_live_clearAis.mpr ⟨hlive, fun name hold => hfree name (Or.inl hold)⟩
    obtain ⟨name, hname⟩ := (h ais).mp hkept
    exact hfree name (Or.inr hname)
  · intro h ais
    constructor
    · intro hkept
      obtain ⟨hlive, hleft⟩ := mem_live_clearAis.mp hkept
      by_contra hnone
      refine h ⟨ais, hlive, fun name hown => ?_⟩
      exact hown.elim (hleft name) fun hnew => hnone ⟨name, hnew⟩
    · rintro ⟨name, hname⟩
      exact mem_live_clearAis.mpr ⟨hp.owned (Or.inr hname), hp.not_left hname⟩

theorem Passed.shows_clearAis_iff (h : Passed same s es p) : Shows es (clearAis p) ↔
    (es.map Ais.name).Nodup ∧ ∀ e ∈ es, shown same s e = e := by
  have hsees : (es.map Ais.name).Nodup → ∀ e ∈ es, ∃ ais : Nat,
      (clearAis p).m_aisList[e.name]? = some ais ∧
        (clearAis p).live[ais]? = some (shown same s e) := fun hnodup e he => by
    obtain ⟨ais, hget, hshow⟩ := h.shows hnodup e he
    exact ⟨ais, hget, getElem?_live_clearAis.mpr ⟨hshow, h.tidy.not_left hget⟩⟩
  constructor
  · intro hs
    have hnodup : (es.map Ais.name).Nodup := by
      by_contra hdup
      exact h.tidy.owned_clearAis_iff.mp hs.owned (h.leaks.mpr hdup)
    refine ⟨hnodup, fun e he => ?_⟩
    obtain ⟨ais, hget, hshow⟩ := hsees hnodup e he
    obtain ⟨ais', hget', hshow'⟩ := hs.latest e (by rwa [latest_of_nodup hnodup])
    rw [hget] at hget'
    cases hget'
    rw [hshow] at hshow'
    exact Option.some.inj hshow'
  · rintro ⟨hnodup, hshown⟩
    refine ⟨h.tidy.owned_clearAis_iff.mpr fun hleak => h.leaks.mp hleak hnodup, h.names,
      fun hget hget' => h.tidy.single (Or.inr hget) (Or.inr hget'), fun e he => ?_⟩
    rw [latest_of_nodup hnodup] at he
    obtain ⟨ais, hget, hshow⟩ := hsees hnodup e he
    exact ⟨ais, hget, hshow.trans (congrArg some (hshown e he))⟩

/-! ### The run -/

/-- Features are numbered below the next one. -/
def AisFeatures.Bounded (s : AisFeatures) : Prop := ∀ ais ∈ s.live, ais < s.created

variable {last : List Ais}

theorem Shows.passed (h : Shows last s) (hs : s.Bounded) : Passed same s [] { s with } := by
  have hnew : ∀ {name : String} {ais : Nat}, (∅ : QMap String Nat)[name]? ≠ some ais :=
    fun hget => absurd (QMap.mem_of_getElem? hget) Std.TreeMap.not_mem_emptyc
  refine ⟨⟨hs, fun hown => ?_, fun hown hown' => ?_, fun name hmem => ?_⟩, fun name => ?_,
    fun _ _ => rfl, fun hget => ⟨hget, rfl⟩, ?_, fun _ _ he => absurd he List.not_mem_nil⟩
  · exact (h.owned _).mpr ⟨_, hown.resolve_right hnew⟩
  · exact h.single (hown.resolve_right hnew) (hown'.resolve_right hnew)
  · exact absurd hmem Std.TreeMap.not_mem_emptyc
  · exact ⟨fun hmem => absurd hmem Std.TreeMap.not_mem_emptyc,
      fun hmem => absurd hmem List.not_mem_nil⟩
  · refine iff_of_false ?_ (not_not.mpr List.nodup_nil)
    rintro ⟨ais, hais, hfree⟩
    obtain ⟨name, hname⟩ := (h.owned ais).mp hais
    exact hfree name (Or.inl hname)

theorem updated_eq_iff {old : Ais} (hname : old.name = e.name) : updated same e old = e ↔
    (same old.position e.position = true → old.course.eq e.course = true →
      old.position = e.position) := by
  rw [updated]
  split
  · rename_i heq
    refine ⟨fun h _ _ => by rw [h], fun h => ?_⟩
    obtain ⟨-, hsame, hcourse⟩ := heq
    have hvalue : old.course = e.course :=
      of_decide_eq_true (Bool.and_eq_true_iff.mp hcourse).1
    obtain ⟨oldName, oldPosition, oldCourse⟩ := old
    cases hname
    cases hvalue
    cases h hsame hcourse
    rfl
  · rename_i hne
    exact ⟨fun _ hsame hcourse => absurd ⟨hname, hsame, hcourse⟩ hne, fun _ => rfl⟩

theorem Shows.shown_eq_iff (h : Shows last s) (hlast : (last.map Ais.name).Nodup) :
    shown same s e = e ↔ ∀ old ∈ last, old.name = e.name →
      same old.position e.position = true → old.course.eq e.course = true →
      old.position = e.position := by
  have hsees := fun old hold => h.latest old (by rwa [latest_of_nodup hlast])
  by_cases hknown : e.name ∈ last.map Ais.name
  · obtain ⟨old, hold, hname⟩ := List.mem_map.mp hknown
    obtain ⟨ais, hget, hshow⟩ := hsees old hold
    rw [shown, ← hname, hget, Option.bind_some, hshow, hname]
    refine (updated_eq_iff hname).trans ⟨fun hmoved old' hold' hname' => ?_, fun hall => ?_⟩
    · cases List.inj_on_of_nodup_map hlast hold' hold (hname'.trans hname.symm)
      exact hmoved
    · exact hall old hold hname
  · have hnone : s.m_aisList[e.name]? = none :=
      Std.TreeMap.getElem?_eq_none fun hmem => hknown ((h.names _).mp hmem)
    rw [shown, hnone]
    exact iff_of_true rfl fun old hold hname => absurd (hname ▸ List.mem_map_of_mem hold) hknown

theorem Shows.passed_entries {last : AisData} (h : Shows (entries toDouble last) s)
    (hs : s.Bounded) (same : QPointF → QPointF → Bool) (data : AisData) :
    Passed same s (entries toDouble data)
      ((entries toDouble data).foldl (passAis same) { s with }) :=
  (h.passed hs).foldl (entries toDouble data)

theorem setAisData_shows_iff {last : AisData} (h : Shows (entries toDouble last) s)
    (hs : s.Bounded) (hlast : ((entries toDouble last).map Ais.name).Nodup) :
    (∃ s', setAisData same toDouble data s = some s' ∧ Shows (entries toDouble data) s') ↔
      Distinct same toDouble last data := by
  have hpassed := h.passed_entries hs same data
  constructor
  · rintro ⟨s', hs', hshows⟩
    have hreadable := readable_of_setAisData hs'
    rw [setAisData_of_readable hreadable] at hs'
    cases hs'
    obtain ⟨hnodup, hshown⟩ := hpassed.shows_clearAis_iff.mp hshows
    exact ⟨hreadable, hnodup, fun e he => (h.shown_eq_iff hlast).mp (hshown e he)⟩
  · intro hdata
    refine ⟨_, setAisData_of_readable hdata.readable, hpassed.shows_clearAis_iff.mpr ⟨hdata.nodup, ?_⟩⟩
    exact fun e he => (h.shown_eq_iff hlast).mpr (hdata.moved e he)

theorem bounded_setAisData {last : AisData} {s' : AisFeatures} (h : Shows (entries toDouble last) s)
    (hs : s.Bounded) (hs' : setAisData same toDouble data s = some s') : s'.Bounded := by
  rw [setAisData_of_readable (readable_of_setAisData hs')] at hs'
  cases hs'
  have hpassed := h.passed_entries hs same data
  exact fun ais hais => hpassed.tidy.bounded ais (mem_live_clearAis.mp hais).1

/-- What a run keeps while every message is a good one. -/
def AisRun.Sound (toDouble : String → Option Double) (r : AisRun) : Prop :=
  ∃ s, r.features = some s ∧ Shows (entries toDouble r.last) s ∧ s.Bounded ∧
    ((entries toDouble r.last).map Ais.name).Nodup

theorem AisRun.sound_start : AisRun.Sound toDouble {} := by
  have hnone : ∀ {name : String} {ais : Nat}, (∅ : QMap String Nat)[name]? ≠ some ais :=
    fun hget => absurd (QMap.mem_of_getElem? hget) Std.TreeMap.not_mem_emptyc
  have hentries : entries toDouble ∅ = [] := rfl
  refine ⟨{}, rfl, ⟨fun ais => ?_, fun name => ?_, fun hget => absurd hget hnone, ?_⟩,
    fun ais hais => absurd hais Std.TreeMap.not_mem_emptyc, List.nodup_nil⟩
  · exact iff_of_false Std.TreeMap.not_mem_emptyc fun ⟨_, hget⟩ => hnone hget
  · exact iff_of_false Std.TreeMap.not_mem_emptyc List.not_mem_nil
  · rw [hentries]
    exact fun _ he => absurd he List.not_mem_nil

theorem AisRun.Sound.good {r : AisRun} (h : r.Sound toDouble) : r.Good toDouble := by
  obtain ⟨s, hs, hshows, -⟩ := h
  exact ⟨s, hs, hshows⟩

theorem AisRun.Sound.good_next_iff {r : AisRun} (h : r.Sound toDouble) :
    (r.next same toDouble data).Good toDouble ↔ Distinct same toDouble r.last data := by
  obtain ⟨s, hs, hshows, hbounded, hlast⟩ := h
  rw [← setAisData_shows_iff hshows hbounded hlast, AisRun.Good, AisRun.next, hs]
  rfl

theorem AisRun.Sound.next {r : AisRun} (h : r.Sound toDouble)
    (hdata : Distinct same toDouble r.last data) : (r.next same toDouble data).Sound toDouble := by
  obtain ⟨s', hs', hshows'⟩ := h.good_next_iff.mpr hdata
  obtain ⟨s, hs, hshows, hbounded, -⟩ := h
  have hcall : setAisData same toDouble data s = some s' := by
    rw [AisRun.next, hs] at hs'
    exact hs'
  exact ⟨s', hs', hshows', bounded_setAisData hshows hbounded hcall, hdata.nodup⟩

/-- **The features neither leak nor go stale exactly in the runs of good messages.** -/
theorem good_aisRun_iff (same : QPointF → QPointF → Bool) (toDouble : String → Option Double)
    (datas : List AisData) :
    (∀ before, before <+: datas → (before.foldl (AisRun.next same toDouble) {}).Good toDouble) ↔
      Along (AisRun.next same toDouble) (fun r data => Distinct same toDouble r.last data) {}
        datas := by
  rw [Along.forall_prefix_iff, and_iff_right AisRun.sound_start.good]
  refine Along.congr (fun r data h hgood => ?_) (fun r data h => h.good_next_iff)
    AisRun.sound_start
  exact h.next (h.good_next_iff.mp hgood)

/-- A ship without a name. -/
def unnamed : List String := ["", "1", "1", "", "", "1"]

/-- Two ships without a name leave a feature on the map that no list has. -/
theorem not_good_unnamed : ¬∀ (same : QPointF → QPointF → Bool) (toDouble : String → Option Double)
    (datas before : List AisData), before <+: datas →
    (before.foldl (AisRun.next same toDouble) {}).Good toDouble := by
  intro h
  have hgood := h (fun p q => decide (p = q)) (fun text => if text = "1" then some 1 else none)
    [(∅ : AisData).insert 0 unnamed |>.insert 1 unnamed] _ (List.prefix_refl _)
  have hdistinct := AisRun.sound_start.good_next_iff.mp hgood
  exact absurd hdistinct.nodup (by decide +kernel)

end MapClient1

end ArmOd
