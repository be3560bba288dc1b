import ArmOd.Json.Json

/-!
# The JSON parser

Every call comes to an end inside of the text: a value passes at least one character, and a loop
asks for a value only where a character is left, so a count of twice the length is enough. What was
read with success does not depend on what stands behind it, a number at the end of the text apart.
-/

namespace ArmOd.Json

variable {doubles : Doubles} {json rest text : Text} {token : JsonToken} {o : Outcome}
  {count n : Nat} {c : Char}

/-! ### Tokens -/

theorem eatWhitespace_suffix (json : Text) : eatWhitespace json <:+ json := List.dropWhile_suffix _

theorem eatWhitespace_cons_of_neg (h : isWhitespace c = false) :
    eatWhitespace (c :: rest) = c :: rest := by
  rw [eatWhitespace, List.dropWhile_cons_of_neg (by rw [h]; exact Bool.false_ne_true)]

theorem eatWhitespace_space (json : Text) : eatWhitespace (' ' :: json) = eatWhitespace json :=
  List.dropWhile_cons_of_pos (by decide)

theorem nextToken_space (json : Text) : nextToken (' ' :: json) = nextToken json := by
  rw [nextToken, nextToken, eatWhitespace_space]

theorem parseString_space (json : Text) : parseString (' ' :: json) = parseString json := by
  rw [parseString, parseString, eatWhitespace_space]

theorem parseNumber_space (json : Text) :
    parseNumber doubles (' ' :: json) = parseNumber doubles json := by
  rw [parseNumber, parseNumber, eatWhitespace_space]

theorem nextToken_cases (h : eatWhitespace json = c :: rest) :
    (∃ token, tokenOf c = some token ∧ nextToken json = (token, rest)) ∨
    (tokenOf c = none ∧
      ((['t', 'r', 'u', 'e'] <+: c :: rest ∧ nextToken json = (.true, (c :: rest).drop 4)) ∨
       (['f', 'a', 'l', 's', 'e'] <+: c :: rest ∧ nextToken json = (.false, (c :: rest).drop 5)) ∨
       (['n', 'u', 'l', 'l'] <+: c :: rest ∧ nextToken json = (.null, (c :: rest).drop 4)) ∨
       nextToken json = (.none, c :: rest))) := by
  rw [nextToken]
  simp only [h]
  cases htoken : tokenOf c with
  | some token => exact Or.inl ⟨token, rfl, rfl⟩
  | none =>
      refine Or.inr ⟨rfl, ?_⟩
      by_cases htrue : ['t', 'r', 'u', 'e'].isPrefixOf (c :: rest)
      · exact Or.inl ⟨List.isPrefixOf_iff_prefix.mp htrue, if_pos htrue⟩
      by_cases hfalse : ['f', 'a', 'l', 's', 'e'].isPrefixOf (c :: rest)
      · exact Or.inr (Or.inl ⟨List.isPrefixOf_iff_prefix.mp hfalse,
          (if_neg htrue).trans (if_pos hfalse)⟩)
      by_cases hnull : ['n', 'u', 'l', 'l'].isPrefixOf (c :: rest)
      · exact Or.inr (Or.inr (Or.inl ⟨List.isPrefixOf_iff_prefix.mp hnull,
          (if_neg htrue).trans ((if_neg hfalse).trans (if_pos hnull))⟩))
      · exact Or.inr (Or.inr (Or.inr
          ((if_neg htrue).trans ((if_neg hfalse).trans (if_neg hnull)))))

theorem nextToken_of_tokenOf (h : eatWhitespace json = c :: rest) (htoken : tokenOf c = some token) :
    nextToken json = (token, rest) := by
  rw [nextToken]
  simp only [h, htoken]

theorem nextToken_of_eatWhitespace_nil (h : eatWhitespace json = []) :
    nextToken json = (.none, []) := by
  rw [nextToken]
  simp only [h]

theorem nextToken_passes (json : Text) :
    (nextToken json).2 <:+ json ∧
      ((nextToken json).1 ≠ .none → (nextToken json).2.length < json.length) := by
  have hsuffix := eatWhitespace_suffix json
  cases h : eatWhitespace json with
  | nil =>
      rw [nextToken_of_eatWhitespace_nil h]
      exact ⟨List.nil_suffix, fun hne => absurd rfl hne⟩
  | cons c rest =>
      rw [h] at hsuffix
      have hlength := hsuffix.length_le
      rw [List.length_cons] at hlength
      obtain ⟨token, -, hnext⟩ | ⟨-, ⟨-, hnext⟩ | ⟨-, hnext⟩ | ⟨-, hnext⟩ | hnext⟩ :=
        nextToken_cases h <;> rw [hnext]
      · exact ⟨(List.suffix_cons c rest).trans hsuffix, fun _ => by dsimp only; omega⟩
      · exact ⟨(List.drop_suffix _ _).trans hsuffix, fun _ => by
          simp only [List.drop_succ_cons, List.length_drop]; omega⟩
      · exact ⟨(List.drop_suffix _ _).trans hsuffix, fun _ => by
          simp only [List.drop_succ_cons, List.length_drop]; omega⟩
      · exact ⟨(List.drop_suffix _ _).trans hsuffix, fun _ => by
          simp only [List.drop_succ_cons, List.length_drop]; omega⟩
      · exact ⟨hsuffix, fun hne => absurd rfl hne⟩

theorem eatWhitespace_ne_nil (h : lookAhead json ≠ .none) : eatWhitespace json ≠ [] := by
  intro hnil
  rw [lookAhead, nextToken_of_eatWhitespace_nil hnil] at h
  exact h rfl

/-! ### Where a call ends -/

/-- The call stays in the text, and passes a character where it succeeds. -/
structure Outcome.Ends (o : Outcome) (json : Text) : Prop where
  suffix : o.rest <:+ json
  passes : o.success → o.rest.length < json.length

theorem Outcome.Ends.mono (h : o.Ends rest) (hsuffix : rest <:+ json) : o.Ends json :=
  ⟨h.suffix.trans hsuffix, fun hsuccess => (h.passes hsuccess).trans_le hsuffix.length_le⟩

theorem not_success_of_failed {value : QVariant} (h : some (Outcome.failed value rest) = some o) :
    ¬ o.success := by
  obtain rfl := Option.some.inj h
  exact Bool.false_ne_true

theorem ends_failed {value : QVariant} (h : rest <:+ json) : (Outcome.failed value rest).Ends json :=
  ⟨h, fun hsuccess => absurd hsuccess Bool.false_ne_true⟩

theorem ends_next {value : QVariant} (h : lookAhead json ≠ .none) :
    (Outcome.mk value (nextToken json).2 true).Ends json :=
  ⟨(nextToken_passes json).1, fun _ => (nextToken_passes json).2 h⟩

theorem stringLoop_quote (s rest : Text) :
    stringLoop s ('\"' :: rest) = ⟨.string s, rest, true⟩ := by
  rw [stringLoop.eq_def]
  simp only [if_pos]

theorem stringLoop_char (s rest : Text) (hquote : c ≠ '\"') (hslash : c ≠ '\\') :
    stringLoop s (c :: rest) = stringLoop (s ++ [c]) rest := by
  rw [stringLoop.eq_def]
  simp only [if_neg hquote, if_neg hslash]

theorem stringLoop_escape (s rest : Text) (h : c ≠ 'u') :
    stringLoop s ('\\' :: c :: rest) = stringLoop (s ++ unescape c) rest := by
  rw [stringLoop.eq_def]
  simp only [if_neg h]
  rfl

theorem stringLoop_suffix (s json : Text) : (stringLoop s json).rest <:+ json := by
  fun_induction stringLoop s json with
  | case1 => exact List.nil_suffix
  | case2 => exact List.suffix_cons _ _
  | case3 => exact List.nil_suffix
  | case4 _ a b c d tail _ ih =>
      exact ih.trans (((((List.suffix_cons d tail).trans (List.suffix_cons c _)).trans
        (List.suffix_cons b _)).trans (List.suffix_cons a _)).trans
        ((List.suffix_cons _ _).trans (List.suffix_cons _ _)))
  | case5 => exact (List.suffix_cons _ _).trans (List.suffix_cons _ _)
  | case6 _ _ _ _ _ ih => exact ih.trans ((List.suffix_cons _ _).trans (List.suffix_cons _ _))
  | case7 _ _ _ _ _ ih => exact ih.trans (List.suffix_cons _ _)

theorem exists_parseString (h : lookAhead json ≠ .none) :
    ∃ o, parseString json = some o ∧ o.Ends json := by
  have hsuffix := eatWhitespace_suffix json
  rw [parseString]
  cases heat : eatWhitespace json with
  | nil => exact absurd heat (eatWhitespace_ne_nil h)
  | cons c rest =>
      rw [heat] at hsuffix
      have hloop := stringLoop_suffix [] rest
      refine ⟨_, rfl, hloop.trans ((List.suffix_cons c rest).trans hsuffix), fun _ => ?_⟩
      have hlength := hsuffix.length_le
      have hlength' := hloop.length_le
      rw [List.length_cons] at hlength
      omega

theorem isNumberChar_of_tokenOf (h : tokenOf c = some .number) : isNumberChar c := by
  have hchars : ['0', '1', '2', '3', '4', '5', '6', '7', '8', '9', '-'].all isNumberChar := by
    decide
  simp only [tokenOf] at h
  repeat' split at h
  all_goals try cases h
  exact List.all_eq_true.mp hchars c (List.contains_iff_mem.mp ‹_›)

theorem isNumberChar_of_lookAhead (heat : eatWhitespace json = c :: rest)
    (h : lookAhead json = .number) : isNumberChar c := by
  rw [lookAhead] at h
  obtain ⟨token, htoken, hnext⟩ | ⟨-, ⟨-, hnext⟩ | ⟨-, hnext⟩ | ⟨-, hnext⟩ | hnext⟩ :=
    nextToken_cases heat <;> rw [hnext] at h
  · exact isNumberChar_of_tokenOf (htoken.trans (congrArg some h))
  all_goals cases h

theorem ends_parseNumber (h : lookAhead json = .number) : (parseNumber doubles json).Ends json := by
  have hsuffix := eatWhitespace_suffix json
  refine ⟨(List.dropWhile_suffix _).trans hsuffix, fun _ => ?_⟩
  cases heat : eatWhitespace json with
  | nil => exact absurd heat (eatWhitespace_ne_nil (by rw [h]; decide))
  | cons c rest =>
      have hc : isNumberChar c := isNumberChar_of_lookAhead heat h
      have hlength := hsuffix.length_le
      rw [heat, List.length_cons] at hlength
      have hdrop : (parseNumber doubles json).rest = rest.dropWhile isNumberChar := by
        rw [parseNumber, heat]
        exact List.dropWhile_cons_of_pos hc
      have hrest := (List.dropWhile_suffix isNumberChar (l := rest)).length_le
      rw [hdrop]
      omega

/-! ### The count -/

/-- The three functions that call each other, with a count of twice what is left. -/
theorem exists_parse (doubles : Doubles) (count : Nat) :
    (∀ json, 2 * json.length + 2 ≤ count →
      ∃ o, parseValue doubles count json = some o ∧ o.Ends json) ∧
    (∀ map json, 2 * json.length + 3 ≤ count →
      ∃ o, objectLoop doubles count map json = some o ∧ o.Ends json) ∧
    (∀ list json, 2 * json.length + 3 ≤ count →
      ∃ o, arrayLoop doubles count list json = some o ∧ o.Ends json) := by
  induction count with
  | zero => exact ⟨fun _ h => by omega, fun _ _ h => by omega, fun _ _ h => by omega⟩
  | succ count ih =>
      obtain ⟨ihValue, ihObject, ihArray⟩ := ih
      refine ⟨fun json hcount => ?_, fun map json hcount => ?_, fun list json hcount => ?_⟩
      · obtain ⟨hsuffix, hpasses⟩ := nextToken_passes json
        rw [parseValue]
        split
        case h_1 h => exact exists_parseString (by rw [h]; decide)
        case h_2 h => exact ⟨_, rfl, ends_parseNumber h⟩
        case h_3 h =>
            have hlength := hpasses (by rw [← lookAhead, h]; decide)
            obtain ⟨o, ho, hends⟩ := ihObject [] (nextToken json).2 (by omega)
            exact ⟨o, ho, hends.mono hsuffix⟩
        case h_4 h =>
            have hlength := hpasses (by rw [← lookAhead, h]; decide)
            obtain ⟨o, ho, hends⟩ := ihArray [] (nextToken json).2 (by omega)
            exact ⟨o, ho, hends.mono hsuffix⟩
        case h_5 h => exact ⟨_, rfl, ends_next (by rw [h]; decide)⟩
        case h_6 h => exact ⟨_, rfl, ends_next (by rw [h]; decide)⟩
        case h_7 h => exact ⟨_, rfl, ends_next (by rw [h]; decide)⟩
        case h_8 => exact ⟨_, rfl, ends_failed List.suffix_rfl⟩
      · obtain ⟨hsuffix, hpasses⟩ := nextToken_passes json
        rw [objectLoop]
        split
        case h_1 => exact ⟨_, rfl, ends_failed List.suffix_rfl⟩
        case h_2 h =>
            have hlength := hpasses (by rw [← lookAhead, h]; decide)
            obtain ⟨o, ho, hends⟩ := ihObject map (nextToken json).2 (by omega)
            exact ⟨o, ho, hends.mono hsuffix⟩
        case h_3 h => exact ⟨_, rfl, ends_next (by rw [h]; decide)⟩
        case h_4 hnone _ _ =>
            obtain ⟨name, hname, hnameEnds⟩ := exists_parseString hnone
            rw [hname]
            dsimp only
            by_cases hsuccess : name.success
            case neg => exact ⟨_, if_pos hsuccess, ends_failed hnameEnds.suffix⟩
            rw [if_neg (not_not_intro hsuccess)]
            have hbehind := (nextToken_passes name.rest).1
            have hnameLength := hnameEnds.passes hsuccess
            by_cases hcolon : (nextToken name.rest).1 = .colon
            case neg => exact ⟨_, if_pos hcolon, ends_failed (hbehind.trans hnameEnds.suffix)⟩
            rw [if_neg (not_not_intro hcolon)]
            have hbehindLength := hbehind.length_le
            obtain ⟨value, hvalue, hvalueEnds⟩ := ihValue (nextToken name.rest).2 (by omega)
            have hends := hvalueEnds.mono (hbehind.trans hnameEnds.suffix)
            rw [hvalue]
            dsimp only
            by_cases hvalueSuccess : value.success
            case neg => exact ⟨_, if_pos hvalueSuccess, ends_failed hends.suffix⟩
            rw [if_neg (not_not_intro hvalueSuccess)]
            have hvalueLength := hends.passes hvalueSuccess
            obtain ⟨o, ho, hoEnds⟩ := ihObject (setEntry name.value.toString value.value map)
              value.rest (by omega)
            exact ⟨o, ho, hoEnds.mono hends.suffix⟩
      · obtain ⟨hsuffix, hpasses⟩ := nextToken_passes json
        rw [arrayLoop]
        split
        case h_1 => exact ⟨_, rfl, ends_failed List.suffix_rfl⟩
        case h_2 h =>
            have hlength := hpasses (by rw [← lookAhead, h]; decide)
            obtain ⟨o, ho, hends⟩ := ihArray list (nextToken json).2 (by omega)
            exact ⟨o, ho, hends.mono hsuffix⟩
        case h_3 h => exact ⟨_, rfl, ends_next (by rw [h]; decide)⟩
        case h_4 =>
            obtain ⟨value, hvalue, hends⟩ := ihValue json (by omega)
            rw [hvalue]
            dsimp only
            by_cases hsuccess : value.success
            case neg => exact ⟨_, if_pos hsuccess, ends_failed hends.suffix⟩
            rw [if_neg (not_not_intro hsuccess)]
            have hlength := hends.passes hsuccess
            obtain ⟨o, ho, hoEnds⟩ := ihArray (list ++ [value.value]) value.rest (by omega)
            exact ⟨o, ho, hoEnds.mono hends.suffix⟩

/-! ### One round of each function -/

theorem arrayLoop_comma (h : lookAhead json = .comma) (list : List QVariant) :
    arrayLoop doubles (count + 1) list json = arrayLoop doubles count list (nextToken json).2 := by
  rw [arrayLoop]
  simp only [h]

theorem arrayLoop_close (h : lookAhead json = .squaredClose) (list : List QVariant) :
    arrayLoop doubles (count + 1) list json = some ⟨.list list, (nextToken json).2, true⟩ := by
  rw [arrayLoop]
  simp only [h]

/-- Where a value is asked for. -/
def JsonToken.IsItem (token : JsonToken) : Prop :=
  token ≠ .none ∧ token ≠ .comma ∧ token ≠ .squaredClose

theorem arrayLoop_item (h : (lookAhead json).IsItem) (list : List QVariant) :
    arrayLoop doubles (count + 1) list json =
      (parseValue doubles count json).bind fun value =>
        if ¬ value.success then some (.failed (.list []) value.rest)
        else arrayLoop doubles count (list ++ [value.value]) value.rest := by
  rw [arrayLoop]
  split
  case h_1 heq => exact absurd heq h.1
  case h_2 heq => exact absurd heq h.2.1
  case h_3 heq => exact absurd heq h.2.2
  case h_4 => cases parseValue doubles count json <;> rfl

theorem objectLoop_comma (h : lookAhead json = .comma) (map : List (Text × QVariant)) :
    objectLoop doubles (count + 1) map json = objectLoop doubles count map (nextToken json).2 := by
  rw [objectLoop]
  simp only [h]

theorem objectLoop_close (h : lookAhead json = .curlyClose) (map : List (Text × QVariant)) :
    objectLoop doubles (count + 1) map json = some ⟨.map map, (nextToken json).2, true⟩ := by
  rw [objectLoop]
  simp only [h]

/-- Where a member is asked for. -/
def JsonToken.IsMember (token : JsonToken) : Prop :=
  token ≠ .none ∧ token ≠ .comma ∧ token ≠ .curlyClose

theorem objectLoop_member (h : (lookAhead json).IsMember) (map : List (Text × QVariant)) :
    objectLoop doubles (count + 1) map json =
      (parseString json).bind fun name =>
        if ¬ name.success then some (.failed (.map []) name.rest)
        else if (nextToken name.rest).1 ≠ .colon then
          some (.failed (.map []) (nextToken name.rest).2)
        else (parseValue doubles count (nextToken name.rest).2).bind fun value =>
          if ¬ value.success then some (.failed (.map []) value.rest)
          else objectLoop doubles count (setEntry name.value.toString value.value map)
            value.rest := by
  rw [objectLoop]
  split
  case h_1 heq => exact absurd heq h.1
  case h_2 heq => exact absurd heq h.2.1
  case h_3 heq => exact absurd heq h.2.2
  case h_4 =>
      cases parseString json with
      | none => rfl
      | some name =>
          dsimp only [Option.bind_some]
          split
          · rfl
          split
          · rfl
          cases parseValue doubles count (nextToken name.rest).2 <;> rfl

theorem JsonToken.item_cases (token : JsonToken) :
    token = .none ∨ token = .comma ∨ token = .squaredClose ∨ token.IsItem := by
  cases token <;> simp [IsItem]

theorem JsonToken.member_cases (token : JsonToken) :
    token = .none ∨ token = .comma ∨ token = .curlyClose ∨ token.IsMember := by
  cases token <;> simp [IsMember]

theorem arrayLoop_none (h : lookAhead json = .none) (list : List QVariant) :
    arrayLoop doubles (count + 1) list json = some (.failed (.list []) json) := by
  rw [arrayLoop]
  simp only [h]

theorem objectLoop_none (h : lookAhead json = .none) (map : List (Text × QVariant)) :
    objectLoop doubles (count + 1) map json = some (.failed (.map []) json) := by
  rw [objectLoop]
  simp only [h]

/-- With a larger count the functions return what they returned. -/
theorem parse_succ (count : Nat) :
    (∀ json o, parseValue doubles count json = some o →
      parseValue doubles (count + 1) json = some o) ∧
    (∀ map json o, objectLoop doubles count map json = some o →
      objectLoop doubles (count + 1) map json = some o) ∧
    (∀ list json o, arrayLoop doubles count list json = some o →
      arrayLoop doubles (count + 1) list json = some o) := by
  induction count with
  | zero =>
      exact ⟨fun _ _ h => (by cases h), fun _ _ _ h => (by cases h), fun _ _ _ h => (by cases h)⟩
  | succ count ih =>
      obtain ⟨ihValue, ihObject, ihArray⟩ := ih
      refine ⟨fun json o h => ?_, fun map json o h => ?_, fun list json o h => ?_⟩
      · rw [parseValue] at h ⊢
        cases hnext : lookAhead json <;> simp only [hnext] at h ⊢
        all_goals first
          | exact h
          | exact ihObject _ _ _ h
          | exact ihArray _ _ _ h
      · obtain hnext | hnext | hnext | hnext := (lookAhead json).member_cases
        · rw [objectLoop_none hnext] at h ⊢
          exact h
        · rw [objectLoop_comma hnext] at h ⊢
          exact ihObject _ _ _ h
        · rw [objectLoop_close hnext] at h ⊢
          exact h
        · rw [objectLoop_member hnext] at h ⊢
          obtain ⟨name, hname, h⟩ := Option.bind_eq_some_iff.mp h
          refine Option.bind_eq_some_iff.mpr ⟨name, hname, ?_⟩
          by_cases hsuccess : name.success
          case neg => rwa [if_pos hsuccess] at h ⊢
          rw [if_neg (not_not_intro hsuccess)] at h ⊢
          by_cases hcolon : (nextToken name.rest).1 = .colon
          case neg => rwa [if_pos hcolon] at h ⊢
          rw [if_neg (not_not_intro hcolon)] at h ⊢
          obtain ⟨value, hvalue, h⟩ := Option.bind_eq_some_iff.mp h
          refine Option.bind_eq_some_iff.mpr ⟨value, ihValue _ _ hvalue, ?_⟩
          by_cases hvalueSuccess : value.success
          case neg => rwa [if_pos hvalueSuccess] at h ⊢
          rw [if_neg (not_not_intro hvalueSuccess)] at h ⊢
          exact ihObject _ _ _ h
      · obtain hnext | hnext | hnext | hnext := (lookAhead json).item_cases
        · rw [arrayLoop_none hnext] at h ⊢
          exact h
        · rw [arrayLoop_comma hnext] at h ⊢
          exact ihArray _ _ _ h
        · rw [arrayLoop_close hnext] at h ⊢
          exact h
        · rw [arrayLoop_item hnext] at h ⊢
          obtain ⟨value, hvalue, h⟩ := Option.bind_eq_some_iff.mp h
          refine Option.bind_eq_some_iff.mpr ⟨value, ihValue _ _ hvalue, ?_⟩
          by_cases hsuccess : value.success
          case neg => rwa [if_pos hsuccess] at h ⊢
          rw [if_neg (not_not_intro hsuccess)] at h ⊢
          exact ihArray _ _ _ h

theorem parseValue_mono (hle : count ≤ n) (h : parseValue doubles count json = some o) :
    parseValue doubles n json = some o := by
  induction hle with
  | refl => exact h
  | step _ ih => exact (parse_succ _).1 _ _ ih

theorem objectLoop_mono {map : List (Text × QVariant)} (hle : count ≤ n)
    (h : objectLoop doubles count map json = some o) : objectLoop doubles n map json = some o := by
  induction hle with
  | refl => exact h
  | step _ ih => exact (parse_succ _).2.1 _ _ _ ih

theorem arrayLoop_mono {list : List QVariant} (hle : count ≤ n)
    (h : arrayLoop doubles count list json = some o) : arrayLoop doubles n list json = some o := by
  induction hle with
  | refl => exact h
  | step _ ih => exact (parse_succ _).2.2 _ _ _ ih

theorem exists_parseValue (doubles : Doubles) (json : Text) :
    ∃ o, parseValue doubles (2 * json.length + 2) json = some o ∧ o.Ends json :=
  (exists_parse doubles _).1 json le_rfl

/-- For every text there is one outcome, whatever the count from twice the length on: no call goes
on for ever, no character behind the end is read, and where a value was read its text is passed. -/
theorem parse_ends (json : Text) :
    ∃ o, parse doubles (some json) = some o ∧
      (∀ count, 2 * json.length + 2 ≤ count → parseValue doubles count json = some o) ∧
      o.rest <:+ json ∧ (o.success → o.rest.length < json.length) := by
  obtain ⟨o, ho, hends⟩ := exists_parseValue doubles json
  exact ⟨o, ho, fun count hcount => parseValue_mono hcount ho, hends.suffix, hends.passes⟩

end ArmOd.Json
