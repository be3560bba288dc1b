import ArmOd.Json.Rules

/-!
# What is read back

The text of a value is read with success and to its end. The parser tells a number's kind by its
text alone: without a point and a minus it is an unsigned one, so a signed number that is not
negative comes back unsigned, and a double whose text has an exponent and no point comes back as
zero. A hash comes back as a map.
-/

namespace ArmOd.Json

variable {doubles : Doubles} {json rest text : Text} {o : Outcome} {n : Nat}

/-! ### Values -/

section

variable (doubles)

/-- What holds for the text of a finite double: it is written with the characters of a number, and
`toDouble` gives the double back. -/
structure Doubles.Reads (x : Double) : Prop where
  chars : ∀ c ∈ doubles.number x, isNumberChar c
  head : ∀ c ∈ (doubles.number x).head?, c.isDigit ∨ c = '-'
  ne_nil : doubles.number x ≠ []
  toDouble : doubles.toDouble (serializeDouble doubles x) = x

/-- The kind of a number is told by its text. -/
def readDouble (x : Double) : QVariant :=
  if '.' ∈ serializeDouble doubles x then .double x
  else if (serializeDouble doubles x).head? = some '-' then .longLong 0
  else .uLongLong 0

mutual

/-- What comes back from the text of a value. -/
def readBack : QVariant → QVariant
  | .invalid => .invalid
  | .bool b => .bool b
  | .longLong i => if i < 0 then .longLong i else .uLongLong i.toNat
  | .uLongLong n => .uLongLong n
  | .double x => readDouble doubles x
  | .string s => .string s
  | .list items => .list (readItems items)
  | .map entries => .map (readPairs [] entries)
  | .hash entries => .map (readPairs [] entries)

def readItems : List QVariant → List QVariant
  | [] => []
  | v :: rest => readBack v :: readItems rest

/-- The entries are set one after the other. -/
def readPairs (map : List (Text × QVariant)) : List (Text × QVariant) → List (Text × QVariant)
  | [] => map
  | (key, v) :: rest => readPairs (setEntry key (readBack v) map) rest

end

mutual

/-- The integers are in the ranges of their types, the doubles are finite. -/
def Valid : QVariant → Prop
  | .longLong i => -2 ^ 63 ≤ i ∧ i < 2 ^ 63
  | .uLongLong n => n < 2 ^ 64
  | .double x => doubles.Reads x
  | .list items => ValidItems items
  | .map entries => ValidPairs entries
  | .hash entries => ValidPairs entries
  | _ => True

def ValidItems : List QVariant → Prop
  | [] => True
  | v :: rest => Valid v ∧ ValidItems rest

def ValidPairs : List (Text × QVariant) → Prop
  | [] => True
  | (_, v) :: rest => Valid v ∧ ValidPairs rest

end

end

theorem parses_digits (h : n < 2 ^ 64) (hstops : Stops rest) :
    Parses doubles (Nat.toDigits 10 n ++ rest) ⟨.uLongLong n, rest, true⟩ := by
  rw [← numberValue_digits doubles h]
  exact parses_number (fun c hc => isNumberChar_of_isDigit (Text.isDigit_of_mem_toDigits c hc))
    (fun c hc => Or.inl (Text.isDigit_of_mem_toDigits c (List.mem_of_mem_head? hc)))
    Nat.toDigits_ne_nil hstops

theorem isNumberChar_of_mem_serializeDouble {x : Double} (h : doubles.Reads x) :
    ∀ c ∈ serializeDouble doubles x, isNumberChar c := by
  intro c hc
  rw [serializeDouble] at hc
  split at hc
  · obtain hc | hc := List.mem_append.mp hc
    · exact h.chars c hc
    · rw [List.mem_cons, List.mem_singleton] at hc
      obtain rfl | rfl := hc <;> rfl
  · exact h.chars c hc

/-- Without a point the text has an exponent, and is no integer. -/
theorem numberValue_serializeDouble {x : Double} (h : doubles.Reads x) :
    numberValue doubles (serializeDouble doubles x) = readDouble doubles x := by
  rw [numberValue, readDouble]
  by_cases hpoint : '.' ∈ serializeDouble doubles x
  · rw [if_pos hpoint, if_pos hpoint, h.toDouble]
  rw [if_neg hpoint, if_neg hpoint]
  have hexp : 'e' ∈ serializeDouble doubles x := by
    rw [serializeDouble] at hpoint ⊢
    split
    case isTrue hboth =>
        rw [if_pos hboth] at hpoint
        exact absurd (List.mem_append_right _ List.mem_cons_self) hpoint
    case isFalse hboth =>
        rw [if_neg hboth] at hpoint
        by_contra hexp
        exact hboth ⟨hpoint, hexp⟩
  have hdigit : ¬ 'e'.isDigit := by decide
  split
  case isTrue hminus =>
      have htail : 'e' ∈ (serializeDouble doubles x).tail := by
        obtain ⟨tail, htail⟩ := List.head?_eq_some_iff.mp hminus
        rw [htail] at hexp ⊢
        exact (List.mem_cons.mp hexp).resolve_left (by decide)
      rw [toLongLong, if_neg]
      exact fun hall => hdigit (List.all_eq_true.mp hall.2.1 _ htail)
  case isFalse =>
      rw [toULongLong, if_neg]
      exact fun hall => hdigit (List.all_eq_true.mp hall.2.1 _ hexp)

theorem parses_double {x : Double} (h : doubles.Reads x) (hstops : Stops rest) :
    Parses doubles (serializeDouble doubles x ++ rest) ⟨readDouble doubles x, rest, true⟩ := by
  obtain ⟨c, tail, hnumber⟩ := List.exists_cons_of_ne_nil h.ne_nil
  have hhead : (serializeDouble doubles x).head? = (doubles.number x).head? := by
    rw [serializeDouble, hnumber]
    split <;> rfl
  have hne : serializeDouble doubles x ≠ [] := by
    rw [serializeDouble, hnumber]
    split <;> exact List.cons_ne_nil _ _
  rw [← numberValue_serializeDouble h]
  exact parses_number (isNumberChar_of_mem_serializeDouble h) (by rw [hhead]; exact h.head) hne
    hstops

/-! ### Lists and maps -/

/-- The pieces behind the first one, each with the separator in front. -/
def behind (list : List Text) : Text := list.flatMap fun i => [',', ' '] ++ i

theorem foldl_join {sep : Text} (list : List Text) {res : Text} (h : res ≠ []) :
    list.foldl (fun res i => (if res ≠ [] then res ++ sep else res) ++ i) res =
      res ++ list.flatMap fun i => sep ++ i := by
  induction list generalizing res with
  | nil => rw [List.foldl_nil, List.flatMap_nil, List.append_nil]
  | cons i list ih =>
      rw [List.foldl_cons, if_pos h, List.append_assoc, ih (List.append_ne_nil_of_left_ne_nil h _),
        List.flatMap_cons, List.append_assoc]

theorem join_cons (h : text ≠ []) (list : List Text) :
    join (text :: list) [',', ' '] = text ++ behind list := by
  rw [join, List.foldl_cons, if_neg (not_not_intro rfl), List.nil_append, foldl_join list h, behind]

theorem stops_behind (list : List Text) (c : Char) (rest : Text) (hc : isNumberChar c = false) :
    Stops (behind list ++ c :: rest) := by
  cases list with
  | nil =>
      rintro d ⟨⟩
      exact hc
  | cons =>
      rintro d ⟨⟩
      rfl

theorem Parses.ne_nil (h : Parses doubles json o) (hsuccess : o.success) : json ≠ [] := by
  rintro rfl
  exact (h.isItem hsuccess).1 rfl

/-- A member behind a blank: its name, the colon, its value, and the loop behind it. -/
theorem objectLoops_pair (key : Text) (map : List (Text × QVariant)) {v : QVariant}
    (hv : ∀ rest, Stops rest →
      Parses doubles (serialize doubles v ++ rest) ⟨readBack doubles v, rest, true⟩)
    (h : ObjectLoops doubles (setEntry key (readBack doubles v) map) rest o) (hstops : Stops rest) :
    ObjectLoops doubles map
      (' ' :: (sanitizeString key ++ [' ', ':', ' '] ++ serialize doubles v ++ rest)) o := by
  have hname : parseString (' ' :: (sanitizeString key ++ [' ', ':', ' '] ++ serialize doubles v ++
      rest)) = some ⟨.string key, ' ' :: ':' :: ' ' :: (serialize doubles v ++ rest), true⟩ := by
    rw [parseString_space, List.append_assoc, List.append_assoc, parseString_sanitizeString]
    rfl
  refine ObjectLoops.member ?_ hname rfl rfl ((hv rest hstops).space rfl) rfl h
  rw [lookAhead, nextToken_space, List.append_assoc, List.append_assoc]
  exact lookAhead_sanitizeString key _

mutual

theorem parses_serialize : ∀ (v : QVariant), Valid doubles v → ∀ rest, Stops rest →
    Parses doubles (serialize doubles v ++ rest) ⟨readBack doubles v, rest, true⟩
  | .invalid, _, _, _ => ⟨1, rfl⟩
  | .bool true, _, _, _ => ⟨1, rfl⟩
  | .bool false, _, _, _ => ⟨1, rfl⟩
  | .longLong i, hvalid, rest, hstops => by
      rw [serialize, readBack, Text.number]
      by_cases hneg : i < 0
      · have hnat : -(i.natAbs : Int) = i := by omega
        have hle : i.natAbs ≤ 2 ^ 63 := by
          have := hvalid.1
          omega
        rw [if_pos hneg, if_pos hneg, ← hnat, ← numberValue_minus doubles hle, hnat]
        refine parses_number (fun c hc => ?_) (fun c hc => ?_) (List.cons_ne_nil _ _) hstops
        · obtain rfl | hc := List.mem_cons.mp hc
          · rfl
          · exact isNumberChar_of_isDigit (Text.isDigit_of_mem_toDigits c hc)
        · exact Or.inr (Option.some.inj hc).symm
      · have hnat : i.toNat = i.natAbs := by omega
        have hlt : i.natAbs < 2 ^ 64 := by
          have := hvalid.2
          omega
        rw [if_neg hneg, if_neg hneg, hnat]
        exact parses_digits hlt hstops
  | .uLongLong n, hvalid, rest, hstops => by
      rw [serialize, readBack]
      exact parses_digits hvalid hstops
  | .double x, hvalid, rest, hstops => by
      rw [serialize, readBack]
      exact parses_double hvalid hstops
  | .string s, _, rest, _ => by
      rw [serialize, readBack]
      exact Parses.string (lookAhead_sanitizeString s rest) (parseString_sanitizeString s rest)
  | .list [], _, rest, _ => Parses.array rfl (ArrayLoops.close [] rfl)
  | .list (v :: items), hvalid, rest, _ => by
      have hv := parses_serialize v hvalid.1
      have hne := (hv [] (fun _ h => by cases h)).ne_nil rfl
      rw [List.append_nil] at hne
      rw [serialize, readBack, serializeItems, join_cons hne]
      simp only [List.cons_append, List.nil_append, List.append_assoc]
      refine Parses.array rfl (ArrayLoops.item
        ((hv _ (stops_behind (serializeItems doubles items) ' ' (']' :: rest) rfl)).space rfl) rfl ?_)
      exact arrayLoops_items items hvalid.2 [readBack doubles v] rest
  | .map entries, hvalid, rest, _ => by
      rw [serialize, readBack]
      exact parses_pairs entries hvalid rest
  | .hash entries, hvalid, rest, _ => by
      rw [serialize, readBack]
      exact parses_pairs entries hvalid rest

theorem arrayLoops_items : ∀ (items : List QVariant), ValidItems doubles items → ∀ list rest,
    ArrayLoops doubles list (behind (serializeItems doubles items) ++ ' ' :: ']' :: rest)
      ⟨.list (list ++ readItems doubles items), rest, true⟩
  | [], _, list, rest => by
      rw [readItems, List.append_nil]
      exact ArrayLoops.close list rfl
  | v :: items, hvalid, list, rest => by
      have hv := parses_serialize v hvalid.1 _
        (stops_behind (serializeItems doubles items) ' ' (']' :: rest) rfl)
      have hitems := arrayLoops_items items hvalid.2 (list ++ [readBack doubles v]) rest
      rw [List.append_assoc, List.singleton_append] at hitems
      rw [serializeItems, behind, List.flatMap_cons, ← behind, readItems]
      simp only [List.cons_append, List.nil_append, List.append_assoc]
      exact ArrayLoops.comma rfl (ArrayLoops.item (hv.space rfl) rfl hitems)

theorem parses_pairs : ∀ (entries : List (Text × QVariant)), ValidPairs doubles entries → ∀ rest,
    Parses doubles
      (['{', ' '] ++ join (serializePairs doubles entries) [',', ' '] ++ [' ', '}'] ++ rest)
      ⟨.map (readPairs doubles [] entries), rest, true⟩
  | [], _, rest => Parses.object rfl (ObjectLoops.close [] rfl)
  | (key, v) :: entries, hvalid, rest => by
      have hpair := objectLoops_pair key [] (parses_serialize v hvalid.1)
        (objectLoops_pairs entries hvalid.2 (setEntry key (readBack doubles v) []) rest)
        (stops_behind (serializePairs doubles entries) ' ' ('}' :: rest) rfl)
      rw [serializePairs, join_cons (by rw [sanitizeString]; exact List.cons_ne_nil _ _), readPairs]
      simp only [List.cons_append, List.nil_append, List.append_assoc] at hpair ⊢
      exact Parses.object rfl hpair

theorem objectLoops_pairs : ∀ (entries : List (Text × QVariant)), ValidPairs doubles entries →
    ∀ map rest, ObjectLoops doubles map
      (behind (serializePairs doubles entries) ++ ' ' :: '}' :: rest)
      ⟨.map (readPairs doubles map entries), rest, true⟩
  | [], _, map, rest => ObjectLoops.close map rfl
  | (key, v) :: entries, hvalid, map, rest => by
      have hpair := objectLoops_pair key map (parses_serialize v hvalid.1)
        (objectLoops_pairs entries hvalid.2 (setEntry key (readBack doubles v) map) rest)
        (stops_behind (serializePairs doubles entries) ' ' ('}' :: rest) rfl)
      rw [serializePairs, behind, List.flatMap_cons, ← behind, readPairs]
      simp only [List.cons_append, List.nil_append, List.append_assoc] at hpair ⊢
      exact ObjectLoops.comma rfl hpair

end

/-! ### Values that come back as they were -/

section

variable (doubles)

mutual

/-- The values whose text tells them apart from all others. -/
def Exact : QVariant → Prop
  | .longLong i => i < 0
  | .double x => '.' ∈ serializeDouble doubles x
  | .list items => ExactItems items
  | .map entries => entries.Pairwise (fun a b => a.1 < b.1) ∧ ExactPairs entries
  | .hash _ => False
  | _ => True

def ExactItems : List QVariant → Prop
  | [] => True
  | v :: rest => Exact v ∧ ExactItems rest

def ExactPairs : List (Text × QVariant) → Prop
  | [] => True
  | (_, v) :: rest => Exact v ∧ ExactPairs rest

end

end

section

variable {map entries : List (Text × QVariant)} {name : Text} {value : QVariant}

theorem setEntry_of_lt (h : ∀ p ∈ map, p.1 < name) :
    setEntry name value map = map ++ [(name, value)] := by
  induction map with
  | nil => rfl
  | cons p map ih =>
      have hlt := h p List.mem_cons_self
      rw [setEntry, if_neg hlt.asymm, if_neg hlt.ne', ih fun q hq => h q (List.mem_cons_of_mem _ hq),
        List.cons_append]

theorem key_of_mem_setEntry {p : Text × QVariant} (h : p ∈ setEntry name value map) :
    p.1 = name ∨ p ∈ map := by
  induction map with
  | nil => exact Or.inl (by rw [List.mem_singleton.mp h])
  | cons q map ih =>
      rw [setEntry] at h
      split at h
      · obtain rfl | h := List.mem_cons.mp h
        · exact Or.inl rfl
        · exact Or.inr h
      split at h
      · obtain rfl | h := List.mem_cons.mp h
        · exact Or.inl rfl
        · exact Or.inr (List.mem_cons_of_mem _ h)
      · obtain rfl | h := List.mem_cons.mp h
        · exact Or.inr List.mem_cons_self
        · exact (ih h).imp_right (List.mem_cons_of_mem _)

theorem sorted_setEntry (h : map.Pairwise fun a b => a.1 < b.1) :
    (setEntry name value map).Pairwise fun a b => a.1 < b.1 := by
  induction map with
  | nil => exact List.pairwise_singleton _ _
  | cons p map ih =>
      obtain ⟨hp, hmap⟩ := List.pairwise_cons.mp h
      rw [setEntry]
      split
      case isTrue hlt =>
          refine List.pairwise_cons.mpr ⟨fun q hq => ?_, h⟩
          obtain rfl | hq := List.mem_cons.mp hq
          · exact hlt
          · exact lt_trans hlt (hp q hq)
      case isFalse hlt =>
          split
          case isTrue heq =>
              rw [← heq] at hp
              exact List.pairwise_cons.mpr ⟨hp, hmap⟩
          case isFalse hne =>
              refine List.pairwise_cons.mpr ⟨fun q hq => ?_, ih hmap⟩
              obtain heq | hq := key_of_mem_setEntry hq
              · rw [heq]
                exact lt_of_le_of_ne (not_lt.mp hlt) (Ne.symm hne)
              · exact hp q hq

theorem sorted_readPairs (h : map.Pairwise fun a b => a.1 < b.1) :
    (readPairs doubles map entries).Pairwise fun a b => a.1 < b.1 := by
  induction entries generalizing map with
  | nil => exact h
  | cons p entries ih => exact ih (sorted_setEntry h)

/-- Entries in the order of their keys are set at the end. -/
theorem readPairs_of_sorted (hmap : ∀ p ∈ map, ∀ q ∈ entries, p.1 < q.1)
    (h : entries.Pairwise fun a b => a.1 < b.1) :
    readPairs doubles map entries = map ++ entries.map fun p => (p.1, readBack doubles p.2) := by
  induction entries generalizing map with
  | nil => exact (List.append_nil map).symm
  | cons q entries ih =>
      obtain ⟨hq, hentries⟩ := List.pairwise_cons.mp h
      rw [readPairs, setEntry_of_lt fun p hp => hmap p hp q List.mem_cons_self, ih _ hentries,
        List.append_assoc, List.singleton_append, List.map_cons]
      intro p hp r hr
      obtain hp | hp := List.mem_append.mp hp
      · exact hmap p hp r (List.mem_cons_of_mem _ hr)
      · rw [List.mem_singleton.mp hp]
        exact hq r hr

end

mutual

theorem readBack_eq_self : ∀ (v : QVariant), readBack doubles v = v ↔ Exact doubles v
  | .invalid => ⟨fun _ => trivial, fun _ => rfl⟩
  | .bool _ => ⟨fun _ => trivial, fun _ => rfl⟩
  | .uLongLong _ => ⟨fun _ => trivial, fun _ => rfl⟩
  | .string _ => ⟨fun _ => trivial, fun _ => rfl⟩
  | .hash _ => ⟨fun h => (by cases h), fun h => h.elim⟩
  | .longLong i => by
      rw [readBack, Exact]
      by_cases hneg : i < 0
      · exact ⟨fun _ => hneg, fun _ => if_pos hneg⟩
      · rw [if_neg hneg]
        exact ⟨fun h => (by cases h), fun h => absurd h hneg⟩
  | .double x => by
      rw [readBack, Exact, readDouble]
      by_cases hpoint : '.' ∈ serializeDouble doubles x
      · exact ⟨fun _ => hpoint, fun _ => if_pos hpoint⟩
      · rw [if_neg hpoint]
        refine ⟨fun h => ?_, fun h => absurd h hpoint⟩
        split at h <;> cases h
  | .list items => by
      rw [readBack, Exact, QVariant.list.injEq]
      exact readItems_eq_self items
  | .map entries => by
      rw [readBack, Exact, QVariant.map.injEq, ← map_readBack_eq_self entries]
      refine ⟨fun h => ?_, fun ⟨hsorted, h⟩ => ?_⟩
      · have hsorted : entries.Pairwise fun a b => a.1 < b.1 := by
          rw [← h]
          exact sorted_readPairs List.Pairwise.nil
        rw [readPairs_of_sorted (fun _ hp => absurd hp List.not_mem_nil) hsorted] at h
        exact ⟨hsorted, h⟩
      · rw [readPairs_of_sorted (fun _ hp => absurd hp List.not_mem_nil) hsorted]
        exact h

theorem readItems_eq_self : ∀ (items : List QVariant),
    readItems doubles items = items ↔ ExactItems doubles items
  | [] => ⟨fun _ => trivial, fun _ => rfl⟩
  | v :: rest => by
      rw [readItems, ExactItems, List.cons.injEq, readBack_eq_self v, readItems_eq_self rest]

theorem map_readBack_eq_self : ∀ (entries : List (Text × QVariant)),
    (entries.map fun p => (p.1, readBack doubles p.2)) = entries ↔ ExactPairs doubles entries
  | [] => ⟨fun _ => trivial, fun _ => rfl⟩
  | (key, v) :: rest => by
      rw [List.map_cons, ExactPairs, List.cons.injEq, Prod.mk.injEq, readBack_eq_self v,
        map_readBack_eq_self rest]
      exact ⟨fun h => ⟨h.1.2, h.2⟩, fun h => ⟨⟨rfl, h.1⟩, h.2⟩⟩

end

/-- The text of a value is read with success, to its end, and exactly the values that the text
tells apart come back as they were. -/
theorem parse_serialize {v : QVariant} (hvalid : Valid doubles v) :
    parse doubles (some (serialize doubles v)) = some ⟨readBack doubles v, [], true⟩ ∧
      (readBack doubles v = v ↔ Exact doubles v) := by
  have hparses := parses_serialize v hvalid [] fun _ h => by cases h
  rw [List.append_nil] at hparses
  exact ⟨hparses.parseValue le_rfl, readBack_eq_self v⟩

/-- One double, as `number` and `toDouble` give it. -/
def oneAndAHalf : Doubles := ⟨fun _ => ['1', '.', '5'], Text.decimal⟩

theorem reads_oneAndAHalf : oneAndAHalf.Reads (.fin (3 / 2)) where
  chars := fun c hc => by
    have hall : ['1', '.', '5'].all isNumberChar := by decide
    exact List.all_eq_true.mp hall c hc
  head := fun c hc => Or.inl (by cases hc; decide)
  ne_nil := List.cons_ne_nil _ _
  toDouble := by
    have htext : serializeDouble oneAndAHalf (.fin (3 / 2)) = Text.fixed 1 15 := by decide
    rw [htext]
    refine (Text.decimal_fixed Nat.one_pos 15).trans ?_
    norm_num

/-- An array in an object. -/
def planes : QVariant :=
  .map [(['0'], .list [.longLong (-5), .double (.fin (3 / 2)), .string ['a', '\"', '\\']])]

theorem valid_planes : Valid oneAndAHalf planes :=
  ⟨⟨⟨by decide, by decide⟩, reads_oneAndAHalf, trivial, trivial⟩, trivial⟩

theorem parse_serialize_planes :
    parse oneAndAHalf (some (serialize oneAndAHalf planes)) = some ⟨planes, [], true⟩ :=
  (parse_serialize valid_planes).1

/-- A document that is no number: whatever stands behind it is left where it is, and a part of it
is no document. -/
theorem parse_append {value : QVariant} (h : parse doubles (some json) = some ⟨value, [], true⟩)
    (hnumber : lookAhead json ≠ .number) :
    (∀ text, parse doubles (some (json ++ text)) = some ⟨value, text, true⟩) ∧
    (∀ front, front <+: json → front ≠ json →
      ∃ o, parse doubles (some front) = some o ∧ o.success = false) := by
  have happend := fun text => (read_append text _).1 _ _ h rfl fun hnext => absurd hnext hnumber
  refine ⟨fun text => Parses.parseValue ⟨_, happend text⟩ le_rfl, ?_⟩
  rintro front ⟨back, rfl⟩ hne
  obtain ⟨o, hfront, -⟩ := exists_parseValue doubles front
  refine ⟨o, hfront, Bool.eq_false_iff.mpr fun hsuccess => ?_⟩
  -- A part that was read would be read in front of the rest too, and leave it behind.
  have hlook := (Parses.isItem ⟨_, hfront⟩ hsuccess).1
  have hback := (read_append back _).1 _ _ hfront hsuccess fun hnext =>
    absurd ((lookAhead_append hlook).trans hnext) hnumber
  have heq := (Parses.parseValue ⟨_, hback⟩ le_rfl).symm.trans h
  have hrest : o.rest ++ back = [] := congrArg Outcome.rest (Option.some.inj heq)
  exact hne (by rw [(List.append_eq_nil_iff.mp hrest).2, List.append_nil])

theorem parse_append_planes :
    (∀ text, parse oneAndAHalf (some (serialize oneAndAHalf planes ++ text)) =
      some ⟨planes, text, true⟩) ∧
    (∀ front, front <+: serialize oneAndAHalf planes → front ≠ serialize oneAndAHalf planes →
      ∃ o, parse oneAndAHalf (some front) = some o ∧ o.success = false) := by
  have hparses := parses_serialize planes valid_planes [] fun _ h => by cases h
  rw [List.append_nil] at hparses
  exact parse_append (hparses.parseValue le_rfl) (by decide)

end ArmOd.Json
