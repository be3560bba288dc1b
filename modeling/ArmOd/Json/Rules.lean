import ArmOd.Json.Append

/-!
# Rules for what is read

The parser without its count: what a value, an object and an array are read as, from what their
parts are read as. Then the parts that have none themselves, the strings and the numbers.
-/

namespace ArmOd.Json

variable {doubles : Doubles} {json rest text str : Text} {o : Outcome} {count n : Nat} {c : Char}

section

variable (doubles)

def Parses (json : Text) (o : Outcome) : Prop := ∃ count, parseValue doubles count json = some o

def ObjectLoops (map : List (Text × QVariant)) (json : Text) (o : Outcome) : Prop :=
  ∃ count, objectLoop doubles count map json = some o

def ArrayLoops (list : List QVariant) (json : Text) (o : Outcome) : Prop :=
  ∃ count, arrayLoop doubles count list json = some o

end

theorem Parses.parseValue (h : Parses doubles json o) (hcount : 2 * json.length + 2 ≤ count) :
    parseValue doubles count json = some o := by
  obtain ⟨n, hn⟩ := h
  obtain ⟨o', ho', -⟩ := exists_parseValue doubles json
  have heq := parseValue_mono (le_max_right n _) ho'
  rw [parseValue_mono (le_max_left n _) hn] at heq
  rw [parseValue_mono hcount ho', ← heq]

theorem Parses.space (h : Parses doubles json o) (hsuccess : o.success) :
    Parses doubles (' ' :: json) o := by
  obtain ⟨count, h⟩ := h
  refine ⟨count, ?_⟩
  cases count with
  | zero => cases h
  | succ count =>
      rw [Json.parseValue] at h ⊢
      rw [lookAhead, nextToken_space, ← lookAhead, parseString_space, parseNumber_space]
      cases hnext : lookAhead json <;> simp only [hnext] at h ⊢
      all_goals first
        | exact h
        | exact absurd hsuccess (not_success_of_failed h)

theorem Parses.object (hnext : nextToken json = (.curlyOpen, rest))
    (h : ObjectLoops doubles [] rest o) : Parses doubles json o := by
  obtain ⟨count, h⟩ := h
  refine ⟨count + 1, ?_⟩
  rw [Json.parseValue, lookAhead, hnext]
  exact h

theorem Parses.array (hnext : nextToken json = (.squaredOpen, rest))
    (h : ArrayLoops doubles [] rest o) : Parses doubles json o := by
  obtain ⟨count, h⟩ := h
  refine ⟨count + 1, ?_⟩
  rw [Json.parseValue, lookAhead, hnext]
  exact h

theorem Parses.string (hnext : lookAhead json = .string) (h : parseString json = some o) :
    Parses doubles json o := by
  refine ⟨1, ?_⟩
  rw [Json.parseValue]
  simp only [hnext]
  exact h

theorem Parses.number (hnext : lookAhead json = .number) :
    Parses doubles json (parseNumber doubles json) := by
  refine ⟨1, ?_⟩
  rw [Json.parseValue]
  simp only [hnext]

theorem Parses.isItem (h : Parses doubles json o) (hsuccess : o.success) :
    (lookAhead json).IsItem := by
  obtain ⟨count, h⟩ := h
  cases count with
  | zero => cases h
  | succ count =>
      rw [Json.parseValue] at h
      refine ⟨fun hnext => ?_, fun hnext => ?_, fun hnext => ?_⟩
      all_goals
        simp only [hnext] at h
        exact absurd hsuccess (not_success_of_failed h)

theorem ArrayLoops.item {list : List QVariant} {value : Outcome}
    (hvalue : Parses doubles json value) (hsuccess : value.success)
    (h : ArrayLoops doubles (list ++ [value.value]) value.rest o) :
    ArrayLoops doubles list json o := by
  have hitem := hvalue.isItem hsuccess
  obtain ⟨n, hvalue⟩ := hvalue
  obtain ⟨m, h⟩ := h
  refine ⟨max n m + 1, ?_⟩
  rw [arrayLoop_of_item hitem (parseValue_mono (le_max_left n m) hvalue) hsuccess]
  exact arrayLoop_mono (le_max_right n m) h

theorem ArrayLoops.comma {list : List QVariant} (hnext : nextToken json = (.comma, rest))
    (h : ArrayLoops doubles list rest o) : ArrayLoops doubles list json o := by
  obtain ⟨count, h⟩ := h
  refine ⟨count + 1, ?_⟩
  rw [arrayLoop_comma (by rw [lookAhead, hnext]), hnext]
  exact h

theorem ArrayLoops.close (list : List QVariant) (hnext : nextToken json = (.squaredClose, rest)) :
    ArrayLoops doubles list json ⟨.list list, rest, true⟩ := by
  refine ⟨1, ?_⟩
  rw [arrayLoop_close (by rw [lookAhead, hnext]), hnext]

theorem ObjectLoops.member {map : List (Text × QVariant)} {name value : Outcome}
    (hnext : lookAhead json = .string) (hname : parseString json = some name)
    (hnameSuccess : name.success) (hcolon : nextToken name.rest = (.colon, rest))
    (hvalue : Parses doubles rest value) (hsuccess : value.success)
    (h : ObjectLoops doubles (setEntry name.value.toString value.value map) value.rest o) :
    ObjectLoops doubles map json o := by
  obtain ⟨n, hvalue⟩ := hvalue
  obtain ⟨m, h⟩ := h
  refine ⟨max n m + 1, ?_⟩
  have hvalue' : parseValue doubles (max n m) (nextToken name.rest).2 = some value := by
    rw [hcolon]
    exact parseValue_mono (le_max_left n m) hvalue
  rw [objectLoop_of_member (by rw [hnext]; exact ⟨by decide, by decide, by decide⟩) hname
    hnameSuccess (by rw [hcolon]) hvalue' hsuccess]
  exact objectLoop_mono (le_max_right n m) h

theorem ObjectLoops.comma {map : List (Text × QVariant)} (hnext : nextToken json = (.comma, rest))
    (h : ObjectLoops doubles map rest o) : ObjectLoops doubles map json o := by
  obtain ⟨count, h⟩ := h
  refine ⟨count + 1, ?_⟩
  rw [objectLoop_comma (by rw [lookAhead, hnext]), hnext]
  exact h

theorem ObjectLoops.close (map : List (Text × QVariant))
    (hnext : nextToken json = (.curlyClose, rest)) :
    ObjectLoops doubles map json ⟨.map map, rest, true⟩ := by
  refine ⟨1, ?_⟩
  rw [objectLoop_close (by rw [lookAhead, hnext]), hnext]

/-! ### Strings -/

/-- What the seven replacements of `sanitizeString` make of a character. -/
def escape (c : Char) : Text :=
  if c = '\\' then ['\\', '\\']
  else if c = '\"' then ['\\', '\"']
  else if c = '\x08' then ['\\', 'b']
  else if c = '\x0c' then ['\\', 'f']
  else if c = '\n' then ['\\', 'n']
  else if c = '\r' then ['\\', 'r']
  else if c = '\t' then ['\\', 't']
  else [c]

/-- No replacement finds what another one put there. -/
theorem sanitizeString_eq (str : Text) :
    sanitizeString str = '\"' :: (str.flatMap escape ++ ['\"']) := by
  simp only [sanitizeString, replace, List.flatMap_assoc]
  refine congrArg (fun text : Text => '\"' :: (text ++ ['\"'])) (List.flatMap_congr fun c _ => ?_)
  rw [escape]
  split_ifs <;> simp_all

theorem stringLoop_of_escape (s : Text) (c : Char) (rest : Text) :
    stringLoop s (escape c ++ rest) = stringLoop (s ++ [c]) rest := by
  rw [escape]
  split_ifs with hslash hquote hb hf hn hr ht
  · rw [hslash]
    exact stringLoop_escape s rest (by decide)
  · rw [hquote]
    exact stringLoop_escape s rest (by decide)
  · rw [hb]
    exact stringLoop_escape s rest (by decide)
  · rw [hf]
    exact stringLoop_escape s rest (by decide)
  · rw [hn]
    exact stringLoop_escape s rest (by decide)
  · rw [hr]
    exact stringLoop_escape s rest (by decide)
  · rw [ht]
    exact stringLoop_escape s rest (by decide)
  · exact stringLoop_char s rest hquote hslash

theorem stringLoop_sanitized (s str rest : Text) :
    stringLoop s (str.flatMap escape ++ '\"' :: rest) = ⟨.string (s ++ str), rest, true⟩ := by
  induction str generalizing s with
  | nil => rw [List.flatMap_nil, List.nil_append, stringLoop_quote, List.append_nil]
  | cons c str ih =>
      rw [List.flatMap_cons, List.append_assoc, stringLoop_of_escape, ih, List.append_assoc,
        List.singleton_append]

theorem lookAhead_sanitizeString (str rest : Text) :
    lookAhead (sanitizeString str ++ rest) = .string := by
  rw [sanitizeString_eq]
  rfl

theorem parseString_sanitizeString (str rest : Text) :
    parseString (sanitizeString str ++ rest) = some ⟨.string str, rest, true⟩ := by
  rw [sanitizeString_eq, List.cons_append, List.append_assoc, List.singleton_append, parseString,
    eatWhitespace_cons_of_neg (by decide)]
  exact congrArg some (stringLoop_sanitized [] str rest)

/-! ### Numbers -/

/-- What stands behind a number and does not go on with it. -/
def Stops (rest : Text) : Prop := ∀ c ∈ rest.head?, isNumberChar c = false

theorem isNumberChar_of_isDigit (h : c.isDigit) : isNumberChar c := by
  have hdigits : ∀ n : Fin 10, isNumberChar (Char.ofNat (48 + n)) := by decide
  rw [Char.isDigit, Bool.and_eq_true, decide_eq_true_eq, decide_eq_true_eq] at h
  have hlow : 48 ≤ c.toNat := h.1
  have hhigh : c.toNat ≤ 57 := h.2
  have hc := hdigits ⟨c.toNat - 48, by omega⟩
  rwa [show 48 + (c.toNat - 48) = c.toNat by omega, Char.ofNat_toNat] at hc

theorem tokenOf_of_isDigit (h : c.isDigit ∨ c = '-') : tokenOf c = some .number := by
  obtain h | rfl := h
  case inr => rfl
  have hdigits : ∀ n : Fin 10, tokenOf (Char.ofNat (48 + n)) = some .number := by decide
  rw [Char.isDigit, Bool.and_eq_true, decide_eq_true_eq, decide_eq_true_eq] at h
  have hlow : 48 ≤ c.toNat := h.1
  have hhigh : c.toNat ≤ 57 := h.2
  have hc := hdigits ⟨c.toNat - 48, by omega⟩
  rwa [show 48 + (c.toNat - 48) = c.toNat by omega, Char.ofNat_toNat] at hc

theorem isWhitespace_of_isNumberChar (h : isNumberChar c) : isWhitespace c = false := by
  have hchars : ['0', '1', '2', '3', '4', '5', '6', '7', '8', '9', '+', '-', '.', 'e', 'E'].all
      fun c => !isWhitespace c := by
    decide
  have hc := List.all_eq_true.mp hchars c (List.contains_iff_mem.mp h)
  rwa [Bool.not_eq_true'] at hc

theorem parses_number (hchars : ∀ c ∈ text, isNumberChar c)
    (hhead : ∀ c ∈ text.head?, c.isDigit ∨ c = '-') (hne : text ≠ []) (hstops : Stops rest) :
    Parses doubles (text ++ rest) ⟨numberValue doubles text, rest, true⟩ := by
  obtain ⟨c, tail, rfl⟩ := List.exists_cons_of_ne_nil hne
  have heat : eatWhitespace (c :: tail ++ rest) = c :: tail ++ rest :=
    eatWhitespace_cons_of_neg (isWhitespace_of_isNumberChar (hchars c List.mem_cons_self))
  have hnext : lookAhead (c :: tail ++ rest) = .number := by
    rw [lookAhead, nextToken_of_tokenOf heat (tokenOf_of_isDigit (hhead c rfl))]
  have htake : rest.takeWhile isNumberChar = [] := by
    cases rest with
    | nil => rfl
    | cons d behind => exact List.takeWhile_cons_of_neg (by rw [hstops d rfl]; decide)
  have hdrop : rest.dropWhile isNumberChar = rest := by
    cases rest with
    | nil => rfl
    | cons d behind => exact List.dropWhile_cons_of_neg (by rw [hstops d rfl]; decide)
  have hparse : parseNumber doubles (c :: tail ++ rest) =
      ⟨numberValue doubles (c :: tail), rest, true⟩ := by
    rw [parseNumber, heat, List.takeWhile_append_of_pos hchars, List.dropWhile_append_of_pos hchars,
      htake, hdrop, List.append_nil]
  rw [← hparse]
  exact Parses.number hnext

theorem notMem_digits (hc : ¬ c.isDigit) (n : Nat) : c ∉ Nat.toDigits 10 n :=
  Text.notMem_of_isDigit Text.isDigit_of_mem_toDigits hc

theorem head_digits (n : Nat) : (Nat.toDigits 10 n).head? ≠ some '-' := fun h =>
  notMem_digits (by decide) n (List.mem_of_mem_head? h)

theorem numberValue_digits (doubles : Doubles) (h : n < 2 ^ 64) :
    numberValue doubles (Nat.toDigits 10 n) = .uLongLong n := by
  rw [numberValue, if_neg (notMem_digits (by decide) n), if_neg (head_digits n), toULongLong,
    Nat.ofDigitChars_ten_toDigits, if_pos]
  exact ⟨Nat.toDigits_ne_nil, List.all_eq_true.mpr Text.isDigit_of_mem_toDigits, h⟩

theorem numberValue_minus (doubles : Doubles) (h : n ≤ 2 ^ 63) :
    numberValue doubles ('-' :: Nat.toDigits 10 n) = .longLong (-n) := by
  have hpoint : '.' ∉ '-' :: Nat.toDigits 10 n := fun hmem =>
    (List.mem_cons.mp hmem).elim (by decide) (notMem_digits (by decide) n)
  rw [numberValue, if_neg hpoint, if_pos List.head?_cons, toLongLong, List.tail_cons,
    Nat.ofDigitChars_ten_toDigits, if_pos]
  exact ⟨Nat.toDigits_ne_nil, List.all_eq_true.mpr Text.isDigit_of_mem_toDigits, h⟩

end ArmOd.Json
