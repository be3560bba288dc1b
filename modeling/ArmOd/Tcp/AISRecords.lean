import ArmOd.Tcp.AISScan

/-!
# The records of an AIS answer

What `TcpAISCoder::filterData` makes of a well-formed answer. The record of a list that is kept is
the one its closing bracket declared, and the places of the commas in it are whatever the memory
held, so that any three numbers may take the part of the commas in front of and behind the latitude
and the longitude. The planes of the zone come out for every memory only where no memory can cut a
position of the zone out of the text.
-/

namespace ArmOd

/-- A list of eighteen fields, the name among them in quotes. -/
structure AISRecord where
  fields : Vector Text 18
  name : Text
  quoted : fields[16] = '"' :: (name ++ ['"'])
  clean : ∀ f ∈ fields.toList, ∀ c ∈ f, c ≠ '[' ∧ c ≠ ']' ∧ c ≠ ','

namespace TcpAISCoder

/-- The two texts are a position of the zone. -/
def InZone (fp : Numerics) (zone : AISZone) (latitude longitude : Text) : Prop :=
  (fp.toDouble latitude).le zone.latitudeMax ∧ zone.latitudeMin.le (fp.toDouble latitude) ∧
    zone.longitudeMin.le (fp.toDouble longitude) ∧ (fp.toDouble longitude).le zone.longitudeMax

instance (fp : Numerics) (zone : AISZone) (latitude longitude : Text) :
    Decidable (InZone fp zone latitude longitude) :=
  inferInstanceAs (Decidable (_ ∧ _ ∧ _ ∧ _))

end TcpAISCoder

namespace AISRecord

open TcpAISCoder

/-- `[f0,f1,...,f17]`. -/
def text (r : AISRecord) : Text := '[' :: ([','].intercalate r.fields.toList ++ [']'])

/-- Name, longitude, latitude, speed, altitude in metres and course. -/
def plane (fp : Numerics) (conv : Conversions) (r : AISRecord) : List Text :=
  [r.name, r.fields[2], r.fields[1], r.fields[5],
    conv.number (fp.mul (fp.toDouble r.fields[4]) (fp.ofRat (3048 / 10000))), r.fields[3]]

/-- A sequence of records. -/
def answerText (records : List AISRecord) : Text := records.flatMap text

/-- The planes of the zone, each with the index of its record. -/
def planes (fp : Numerics) (conv : Conversions) (zone : AISZone) (records : List AISRecord) :
    List (Nat × List Text) :=
  records.zipIdx.filterMap fun (r, i) =>
    if InZone fp zone r.fields[1] r.fields[2] then some (i, r.plane fp conv) else none

/-- Whatever the memory holds, the answer has the planes of the zone, and no list is left. -/
def Filters (fp : Numerics) (conv : Conversions) (zone : AISZone) (records : List AISRecord) :
    Prop :=
  ∀ memory, filterData fp conv memory zone {} (answerText records) =
    some ({}, answer (planes fp conv zone records))

/-- Three numbers cut a position of the zone out of the text. -/
def CutsInZone (fp : Numerics) (zone : AISZone) (data : Text) : Prop :=
  ∃ c0 c1 c2, InZone fp zone (field data (c0 + 1) c1) (field data (c1 + 1) c2)

end AISRecord

namespace TcpAISCoder

open AISRecord

variable {fp : Numerics} {conv : Conversions} {zone : AISZone} {memory : Nat → Bracketed}
  {s s' : Scan} {i : Nat} {data : Text} {br : Bracketed}

/-! ### What the scan keeps -/

/-- The records of the closing brackets. -/
def closings (memory : Nat → Bracketed) (i : Nat) (data : Text) : List Bracketed :=
  (data.zipIdx i).filterMap fun p =>
    if p.1 = ']' then some { memory p.2 with br2 := p.2 } else none

theorem closings_cons (c : Char) : closings memory i (c :: data) =
    (if c = ']' then [{ memory i with br2 := i }] else []) ++ closings memory (i + 1) data := by
  rw [closings, List.zipIdx_cons, List.filterMap_cons, closings]
  split <;> simp_all

theorem m_listBr_scanChar {c : Char} (h : scanChar (memory i) s (c, i) = some s') :
    s'.m_listBr = s.m_listBr ++ if c = ']' then [{ memory i with br2 := i }] else [] := by
  rcases scanChar_cases (memory i) s c i with rfl | ⟨rfl, hin⟩ | rfl | ⟨-, hclose, -, hscan⟩
  · rw [scanChar_open] at h
    cases h
    exact (List.append_nil _).symm
  · rw [scanChar_comma hin] at h
    obtain ⟨-, heq⟩ := Option.ite_none_right_eq_some.mp h
    cases heq
    exact (List.append_nil _).symm
  · rw [scanChar_close] at h
    cases h
    rw [if_pos rfl]
  · rw [hscan] at h
    cases h
    rw [if_neg hclose, List.append_nil]

theorem m_listBr_scanFrom (h : scanFrom memory s i data = some s') :
    s'.m_listBr = s.m_listBr ++ closings memory i data := by
  induction data generalizing s i with
  | nil =>
      cases h
      exact (List.append_nil _).symm
  | cons c data ih =>
      rw [scanFrom_cons, Option.bind_eq_some_iff] at h
      obtain ⟨s₁, hchar, hrest⟩ := h
      rw [ih hrest, m_listBr_scanChar hchar, closings_cons, List.append_assoc]

theorem parse_of_inZone (conv : Conversions)
    (h : InZone fp zone (field data (br.comma.get 0 + 1) (br.comma.get 1))
      (field data (br.comma.get 1 + 1) (br.comma.get 2))) :
    ∃ rest, parse fp conv zone data br =
      some (field data (br.comma.get 15 + 2) (br.comma.get 16 - 1) :: rest) :=
  ⟨_, if_pos h⟩

theorem parse_of_not_inZone (h : ¬InZone fp zone (field data (br.comma.get 0 + 1) (br.comma.get 1))
    (field data (br.comma.get 1 + 1) (br.comma.get 2))) : parse fp conv zone data br = none :=
  if_neg h

/-! ### The answer -/

/-- A key of the map with its texts. -/
def readEntry : Reader Item (Int × List String) := do
  let key ← QDataStream.readInt
  let vec ← QDataStream.readAll QDataStream.readQString
  return (key, vec)

/-- The texts of a record. -/
def putTexts (vec : List Text) : QByteArray :=
  QDataStream.write (fun text => [.qString (String.ofList text)]) vec

theorem carries_entry : Carries (fun p : Nat × List Text => .int p.1 :: putTexts p.2) readEntry
    fun p => ((p.1 : Int), p.2.map String.ofList) := by
  have hint : Carries (fun i : Int => [Item.int i]) QDataStream.readInt id :=
    QDataStream.carries_next fun _ => rfl
  have hstring : Carries (fun text : String => [Item.qString text]) QDataStream.readQString id :=
    QDataStream.carries_next fun _ => rfl
  have hkey : Carries (fun p : Nat × List Text => [Item.int p.1]) QDataStream.readInt
      fun p => (p.1 : Int) := fun p => hint p.1
  have htext : Carries (fun text : Text => [Item.qString (String.ofList text)])
      QDataStream.readQString String.ofList := fun text => hstring (String.ofList text)
  have hvec : Carries (fun p : Nat × List Text => putTexts p.2)
      (QDataStream.readAll QDataStream.readQString) fun p => p.2.map String.ofList :=
    fun p => QDataStream.carries_container htext p.2
  have hentry : Carries (fun p : Nat × List Text => [.int p.1] ++ (putTexts p.2 ++ [])) readEntry
      fun p => ((p.1 : Int), p.2.map String.ofList) :=
    hkey.bind fun key => hvec.bind fun vec => Carries.pure (key, vec)
  simpa only [List.append_nil, List.singleton_append] using hentry

theorem answer_injective : Function.Injective answer := by
  intro map1 map2 h
  have hdata := congrArg Message.data h
  have hall := QDataStream.carries_container carries_entry
  have hread := (hall.run map1.reverse).symm.trans
    ((congrArg (QDataStream.readAll readEntry).run hdata).trans (hall.run map2.reverse))
  have hentries := congrArg Prod.fst (Option.some.inj hread)
  have hinjective : Function.Injective
      fun p : Nat × List Text => ((p.1 : Int), p.2.map String.ofList) := by
    intro p q hpq
    obtain ⟨hkey, hvec⟩ := Prod.mk.inj hpq
    exact Prod.ext (Int.ofNat.inj hkey)
      (List.map_injective_iff.mpr (fun _ _ => String.ofList_injective) hvec)
  exact List.reverse_injective (List.map_injective_iff.mpr hinjective hentries)

end TcpAISCoder

namespace AISRecord

open TcpAISCoder

variable {fp : Numerics} {conv : Conversions} {zone : AISZone} {memory : Nat → Bracketed}
  {records : List AISRecord} {r : AISRecord} {data : Text}

/-! ### The text of the records -/

theorem count_intercalate {c : Char} {fields : List Text} (h : ∀ f ∈ fields, c ∉ f) :
    ([c].intercalate fields).count c = fields.length - 1 := by
  induction fields with
  | nil => rfl
  | cons f fields ih =>
      obtain ⟨hf, hfields⟩ := List.forall_mem_cons.mp h
      cases fields with
      | nil => simpa using List.count_eq_zero.mpr hf
      | cons g fields =>
          rw [List.intercalate_cons_cons, List.count_append, List.count_append,
            List.count_eq_zero.mpr hf, List.count_singleton_self, ih hfields]
          simp only [List.length_cons]
          omega

theorem notMem_intercalate {c d : Char} {fields : List Text} (hcd : c ≠ d)
    (h : ∀ f ∈ fields, c ∉ f) : c ∉ [d].intercalate fields := by
  induction fields with
  | nil => exact List.not_mem_nil
  | cons f fields ih =>
      obtain ⟨hf, hfields⟩ := List.forall_mem_cons.mp h
      cases fields with
      | nil => rwa [List.intercalate_singleton]
      | cons g fields =>
          rw [List.intercalate_cons_cons, List.mem_append, List.mem_append, List.mem_singleton]
          exact not_or.mpr ⟨not_or.mpr ⟨hf, hcd⟩, ih hfields⟩

theorem clean_mem {f : Text} (hf : f ∈ r.fields.toList) {c : Char} (hc : c ∈ ['[', ']', ',']) :
    c ∉ f := by
  intro hmem
  have hclean := r.clean f hf c hmem
  simp at hc
  grind

theorem answerText_cons : answerText (r :: records) =
    ('[' :: [','].intercalate r.fields.toList) ++ ']' :: answerText records := by
  simp [answerText, text]

theorem isSome_scan (memory : Nat → Bracketed) (records : List AISRecord) :
    (scan memory [] (answerText records)).isSome := by
  rw [isSome_scan_iff]
  induction records with
  | nil => simp [answerText, commas]
  | cons r records ih =>
      have hclose : ']' ∉ '[' :: [','].intercalate r.fields.toList := by
        rw [List.mem_cons]
        exact not_or.mpr ⟨by decide, notMem_intercalate (by decide) fun f hf =>
          clean_mem hf (by simp)⟩
      rw [answerText_cons, List.splitOn_append_cons_self_of_not_mem hclose, List.forall_mem_cons]
      refine ⟨?_, ih⟩
      rw [commas_open, commas, if_pos rfl,
        count_intercalate fun f hf => clean_mem hf (by simp), Vector.length_toList]

theorem exists_split (hr : r ∈ records) : ∃ front back,
    answerText records = front ++ (r.fields[1] ++ ',' :: (r.fields[2] ++ back)) := by
  obtain ⟨before, after, rfl⟩ := List.append_of_mem hr
  have hlist : r.fields.toList =
      r.fields[0] :: r.fields[1] :: r.fields[2] :: r.fields.toList.drop 3 := by
    rw [← List.drop_zero (l := r.fields.toList), List.drop_eq_getElem_cons (by simp),
      List.drop_eq_getElem_cons (by simp), List.drop_eq_getElem_cons (by simp)]
    simp
  have hdrop : r.fields.toList.drop 3 ≠ [] := by simp [List.drop_eq_nil_iff]
  refine ⟨before.flatMap text ++ ('[' :: (r.fields[0] ++ [','])),
    ',' :: [','].intercalate (r.fields.toList.drop 3) ++ ']' :: answerText after, ?_⟩
  rw [answerText, List.flatMap_append, List.flatMap_cons, text, hlist,
    List.intercalate_cons_cons, List.intercalate_cons_cons, List.intercalate_cons_of_ne_nil hdrop]
  simp [answerText]

theorem field_append (front middle back : Text) :
    field (front ++ (middle ++ back)) front.length (front.length + middle.length) = middle := by
  rw [field, add_sub_cancel_left, Text.mid]
  split
  · rename_i hle
    rw [List.length_append, List.length_append] at hle
    have hnil : middle.length = 0 := by omega
    exact (List.length_eq_zero_iff.mp hnil).symm
  · dsimp only
    rw [if_neg (by omega), if_neg (by omega), Int.toNat_natCast, Int.toNat_natCast,
      List.drop_left, List.take_left]

/-! ### The filter -/

/-- The entries of the records that the closing brackets keep. -/
def entries (fp : Numerics) (conv : Conversions) (memory : Nat → Bracketed) (zone : AISZone)
    (data : Text) : List (Nat × List Text) :=
  (closings memory 0 data).zipIdx.filterMap fun (br, i) =>
    (parse fp conv zone data br).map fun vec => (i, vec)

theorem filterData_answerText : filterData fp conv memory zone {} (answerText records) =
    some ({}, answer (entries fp conv memory zone (answerText records))) := by
  obtain ⟨s, hscan⟩ := Option.isSome_iff_exists.mp (isSome_scan memory records)
  have hlist : s.m_listBr = closings memory 0 (answerText records) := m_listBr_scanFrom hscan
  rw [filterData, hscan, entries, ← hlist]
  rfl

theorem filters_iff_entries : Filters fp conv zone records ↔ ∀ memory,
    entries fp conv memory zone (answerText records) = planes fp conv zone records := by
  simp only [Filters, filterData_answerText, Option.some_inj, Prod.mk.injEq, true_and,
    answer_injective.eq_iff]

theorem cutsInZone_of_mem (hr : r ∈ records) (h : InZone fp zone r.fields[1] r.fields[2]) :
    CutsInZone fp zone (answerText records) := by
  obtain ⟨front, back, hsplit⟩ := exists_split hr
  have hlatitude : field (answerText records) (((front.length : Int) - 1) + 1)
      (front.length + r.fields[1].length) = r.fields[1] := by
    rw [hsplit, sub_add_cancel, field_append]
  have hlongitude : field (answerText records) ((front.length + r.fields[1].length : Int) + 1)
      (front.length + r.fields[1].length + 1 + r.fields[2].length) = r.fields[2] := by
    have hfield := field_append (front ++ (r.fields[1] ++ [','])) r.fields[2] back
    rw [hsplit]
    simpa [add_assoc] using hfield
  rw [← hlatitude, ← hlongitude] at h
  exact ⟨_, _, _, h⟩

theorem filters_of_not_cutsInZone (h : ¬CutsInZone fp zone (answerText records)) :
    Filters fp conv zone records := by
  rw [filters_iff_entries]
  intro memory
  have hentries : entries fp conv memory zone (answerText records) = [] := by
    rw [entries, List.filterMap_eq_nil_iff]
    intro p _
    have hparse : parse fp conv zone (answerText records) p.1 = none :=
      parse_of_not_inZone fun hin => h ⟨_, _, _, hin⟩
    exact congrArg (Option.map _) hparse
  have hplanes : planes fp conv zone records = [] := by
    rw [planes, List.filterMap_eq_nil_iff]
    intro p hp
    exact if_neg fun hin => h (cutsInZone_of_mem (List.fst_mem_of_mem_zipIdx hp) hin)
  rw [hentries, hplanes]

/-- The same places in every record. -/
def constant (comma : Vector Int 17) : Nat → Bracketed := fun _ => { br1 := 0, br2 := 0, comma }

theorem comma_of_mem_closings {comma : Vector Int 17} {br : Bracketed}
    (h : br ∈ closings (constant comma) 0 data) : br.comma = comma := by
  rw [closings, List.mem_filterMap] at h
  obtain ⟨p, -, hp⟩ := h
  split at hp
  · cases hp
    rfl
  · cases hp

theorem closings_ne_nil (memory : Nat → Bracketed) (hdata : ']' ∈ data) :
    closings memory 0 data ≠ [] := by
  rw [closings, ne_eq, List.filterMap_eq_nil_iff]
  intro h
  obtain ⟨i, hi⟩ := List.mem_iff_getElem?.mp hdata
  exact absurd (h (']', i) (List.mk_mem_zipIdx_iff_getElem?.mpr hi)) (by simp)

/-- The first plane has the name that the memory says. -/
theorem exists_entries_cons (conv : Conversions) (comma : Vector Int 17) (hdata : ']' ∈ data)
    (h : InZone fp zone (field data (comma.get 0 + 1) (comma.get 1))
      (field data (comma.get 1 + 1) (comma.get 2))) :
    ∃ vec more, entries fp conv (constant comma) zone data =
      (0, field data (comma.get 15 + 2) (comma.get 16 - 1) :: vec) :: more := by
  obtain ⟨br, rest, hclosings⟩ := List.exists_cons_of_ne_nil
    (closings_ne_nil (constant comma) hdata)
  have hcomma : br.comma = comma :=
    comma_of_mem_closings (hclosings ▸ List.mem_cons_self)
  subst hcomma
  obtain ⟨vec, hparse⟩ := parse_of_inZone conv h
  rw [entries, hclosings, List.zipIdx_cons, List.filterMap_cons]
  simp only [hparse, Option.map_some]
  exact ⟨vec, _, rfl⟩

theorem not_filters_of_cutsInZone (hne : records ≠ [])
    (h : CutsInZone fp zone (answerText records)) : ¬Filters fp conv zone records := by
  rw [filters_iff_entries]
  intro hentries
  obtain ⟨c0, c1, c2, hin⟩ := h
  obtain ⟨r, more, rfl⟩ := List.exists_cons_of_ne_nil hne
  have hclose : ']' ∈ answerText (r :: more) := by simp [answerText_cons]
  -- two memories that differ in the end of the name
  let places (c16 : Int) : Vector Int 17 :=
    #v[c0, c1, c2, 0, 0, 0, 0, 0, 0, 0, 0, 0, 0, 0, 0, -2, c16]
  obtain ⟨vec, rest, hempty⟩ := exists_entries_cons conv (places 1) hclose hin
  obtain ⟨vec', rest', hone⟩ := exists_entries_cons conv (places 2) hclose hin
  have hsame := hempty.symm.trans ((hentries _).trans ((hentries _).symm.trans hone))
  have hname := (List.cons.inj (Prod.mk.inj (List.cons.inj hsame).1).2).1
  have hzero : field (answerText (r :: more)) 0 0 = [] := by
    simp [field, Text.mid]
  have hbracket : field (answerText (r :: more)) 0 1 = ['['] := by
    rw [answerText_cons]
    exact field_append [] ['['] _
  exact absurd (hzero.symm.trans (hname.trans hbracket)) (by simp)

theorem filters_nil : Filters fp conv zone [] := fun _ => rfl

/-- **The filter of the zone.** The coder returns the planes of the zone whatever the memory holds
exactly when there is no list in the answer, or no three numbers cut a position of the zone out of
its text. -/
theorem filters_iff (fp : Numerics) (conv : Conversions) (zone : AISZone)
    (records : List AISRecord) : Filters fp conv zone records ↔
      records = [] ∨ ¬CutsInZone fp zone (answerText records) := by
  constructor
  · intro h
    by_contra hnot
    obtain ⟨hne, hcuts⟩ := not_or.mp hnot
    exact not_filters_of_cutsInZone hne (not_not.mp hcuts) h
  · intro h
    rcases h with rfl | hcuts
    · exact filters_nil
    · exact filters_of_not_cutsInZone hcuts

/-- A plane at 50, 30. -/
def insideRecord : AISRecord where
  fields := #v[['1'], ['5', '0'], ['3', '0'], ['9', '0'], ['0'], ['0'], [], [], [], [], [], [], [],
    [], [], [], ['"', 'P', '"'], []]
  name := ['P']
  quoted := by decide
  clean := by simp

def insideZone : AISZone where
  latitudeMax := .fin 52
  latitudeMin := .fin 48
  longitudeMin := .fin 28
  longitudeMax := .fin 32

theorem not_filters : ¬∀ fp conv zone records, Filters fp conv zone records := by
  intro h
  let conv : Conversions :=
    { number := fun _ => [], toDate := fun _ _ => 0, toTime := fun _ _ => default }
  have hin : InZone Numerics.exact insideZone insideRecord.fields[1] insideRecord.fields[2] := by
    decide +kernel
  exact not_filters_of_cutsInZone (List.cons_ne_nil insideRecord [])
    (cutsInZone_of_mem List.mem_cons_self hin) (h Numerics.exact conv insideZone [insideRecord])

end AISRecord

end ArmOd
