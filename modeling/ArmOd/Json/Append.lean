import ArmOd.Json.Parser

/-!
# Texts that go on

What stands behind a value that was read has no say in it. So an object, a list or a string that
ends with the text is not read from any text that was cut off.
-/

namespace ArmOd.Json

variable {doubles : Doubles} {json rest text : Text} {o : Outcome} {count : Nat} {c : Char}

/-- The outcome with more text behind it. -/
def Outcome.append (o : Outcome) (text : Text) : Outcome := { o with rest := o.rest ++ text }

@[simp] theorem Outcome.append_rest : (o.append text).rest = o.rest ++ text := rfl

/-! ### Tokens -/

theorem eatWhitespace_append (h : eatWhitespace json ≠ []) :
    eatWhitespace (json ++ text) = eatWhitespace json ++ text := by
  rw [eatWhitespace, List.dropWhile_append, if_neg]
  · rfl
  · rw [List.isEmpty_iff]
    exact h

theorem nextToken_append (h : lookAhead json ≠ .none) :
    nextToken (json ++ text) = ((nextToken json).1, (nextToken json).2 ++ text) := by
  have hne := eatWhitespace_ne_nil h
  obtain ⟨c, rest, heat⟩ := List.exists_cons_of_ne_nil hne
  have heat' : eatWhitespace (json ++ text) = c :: (rest ++ text) := by
    rw [eatWhitespace_append hne, heat, List.cons_append]
  obtain ⟨token, htoken, hnext⟩ | ⟨htoken, hword⟩ := nextToken_cases heat
  · rw [nextToken, heat', hnext]
    simp only [htoken]
  -- The words start differently, so what is in front of the longer text is the same one.
  · rw [nextToken, heat']
    simp only [htoken]
    obtain ⟨⟨behind, hbehind⟩, hnext⟩ | ⟨⟨behind, hbehind⟩, hnext⟩ | ⟨⟨behind, hbehind⟩, hnext⟩ |
      hnext := hword
    · rw [hnext, ← List.cons_append, ← hbehind]
      rfl
    · rw [hnext, ← List.cons_append, ← hbehind]
      rfl
    · rw [hnext, ← List.cons_append, ← hbehind]
      rfl
    · rw [lookAhead, hnext] at h
      exact absurd rfl h

theorem lookAhead_append (h : lookAhead json ≠ .none) :
    lookAhead (json ++ text) = lookAhead json := by
  rw [lookAhead, nextToken_append h]
  rfl

/-! ### Strings and numbers -/

theorem stringLoop_append (s : Text) (h : (stringLoop s json).success) :
    stringLoop s (json ++ text) = (stringLoop s json).append text := by
  fun_induction stringLoop s json with
  | case1 => exact absurd h Bool.false_ne_true
  | case2 s rest =>
      rw [List.cons_append, stringLoop_quote]
      rfl
  | case3 => exact absurd h Bool.false_ne_true
  | case4 s a b c d tail hquote ih =>
      rw [← ih h]
      rfl
  | case5 => exact absurd h Bool.false_ne_true
  | case6 s e rest hunicode _ ih =>
      rw [← ih h, List.cons_append, List.cons_append, stringLoop_escape _ _ hunicode]
  | case7 s c rest hquote hslash ih =>
      rw [← ih h, List.cons_append, stringLoop_char _ _ hquote hslash]

theorem parseString_append (hlook : lookAhead json ≠ .none) (h : parseString json = some o)
    (hsuccess : o.success) : parseString (json ++ text) = some (o.append text) := by
  have hne := eatWhitespace_ne_nil hlook
  obtain ⟨c, rest, heat⟩ := List.exists_cons_of_ne_nil hne
  rw [parseString, eatWhitespace_append hne]
  rw [parseString] at h
  simp only [heat] at h ⊢
  obtain rfl := Option.some.inj h
  exact congrArg some (stringLoop_append [] hsuccess)

theorem parseNumber_append (h : (parseNumber doubles json).rest ≠ []) :
    parseNumber doubles (json ++ text) = (parseNumber doubles json).append text := by
  have hne : eatWhitespace json ≠ [] := fun hnil => h (by rw [parseNumber, hnil]; rfl)
  have htake : ((eatWhitespace json).takeWhile isNumberChar).length ≠ (eatWhitespace json).length :=
    fun hlength => h (by
      have := List.takeWhile_append_dropWhile (p := isNumberChar) (l := eatWhitespace json)
      have hdrop := congrArg List.length this
      rw [List.length_append] at hdrop
      exact List.eq_nil_of_length_eq_zero (by rw [parseNumber]; dsimp only; omega))
  have hdrop : ¬ ((eatWhitespace json).dropWhile isNumberChar).isEmpty := by
    rw [List.isEmpty_iff]
    exact h
  rw [parseNumber, eatWhitespace_append hne]
  simp only [List.takeWhile_append, List.dropWhile_append, if_neg htake, if_neg hdrop]
  rfl

/-! ### Values -/

theorem ne_nil_of_objectLoop {map : List (Text × QVariant)}
    (h : objectLoop doubles count map json = some o) (hsuccess : o.success) : json ≠ [] := by
  rintro rfl
  cases count with
  | zero => cases h
  | succ count =>
      rw [objectLoop_none rfl] at h
      exact absurd hsuccess (not_success_of_failed h)

theorem ne_nil_of_arrayLoop {list : List QVariant}
    (h : arrayLoop doubles count list json = some o) (hsuccess : o.success) : json ≠ [] := by
  rintro rfl
  cases count with
  | zero => cases h
  | succ count =>
      rw [arrayLoop_none rfl] at h
      exact absurd hsuccess (not_success_of_failed h)

theorem objectLoop_member_of_success {map : List (Text × QVariant)}
    (hnext : (lookAhead json).IsMember) (h : objectLoop doubles (count + 1) map json = some o)
    (hsuccess : o.success) :
    ∃ name value, parseString json = some name ∧ name.success ∧
      (nextToken name.rest).1 = .colon ∧
      parseValue doubles count (nextToken name.rest).2 = some value ∧ value.success ∧
      objectLoop doubles count (setEntry name.value.toString value.value map) value.rest =
        some o := by
  rw [objectLoop_member hnext] at h
  obtain ⟨name, hname, h⟩ := Option.bind_eq_some_iff.mp h
  by_cases hnameSuccess : name.success
  case neg =>
      rw [if_pos hnameSuccess] at h
      exact absurd hsuccess (not_success_of_failed h)
  rw [if_neg (not_not_intro hnameSuccess)] at h
  by_cases hcolon : (nextToken name.rest).1 = .colon
  case neg =>
      rw [if_pos hcolon] at h
      exact absurd hsuccess (not_success_of_failed h)
  rw [if_neg (not_not_intro hcolon)] at h
  obtain ⟨value, hvalue, h⟩ := Option.bind_eq_some_iff.mp h
  by_cases hvalueSuccess : value.success
  case neg =>
      rw [if_pos hvalueSuccess] at h
      exact absurd hsuccess (not_success_of_failed h)
  rw [if_neg (not_not_intro hvalueSuccess)] at h
  exact ⟨name, value, hname, hnameSuccess, hcolon, hvalue, hvalueSuccess, h⟩

theorem objectLoop_of_member {map : List (Text × QVariant)} {name value : Outcome}
    (hnext : (lookAhead json).IsMember) (hname : parseString json = some name)
    (hnameSuccess : name.success) (hcolon : (nextToken name.rest).1 = .colon)
    (hvalue : parseValue doubles count (nextToken name.rest).2 = some value)
    (hvalueSuccess : value.success) :
    objectLoop doubles (count + 1) map json =
      objectLoop doubles count (setEntry name.value.toString value.value map) value.rest := by
  rw [objectLoop_member hnext, hname, Option.bind_some, if_neg (not_not_intro hnameSuccess),
    if_neg (not_not_intro hcolon), hvalue, Option.bind_some, if_neg (not_not_intro hvalueSuccess)]

theorem arrayLoop_item_of_success {list : List QVariant} (hnext : (lookAhead json).IsItem)
    (h : arrayLoop doubles (count + 1) list json = some o) (hsuccess : o.success) :
    ∃ value, parseValue doubles count json = some value ∧ value.success ∧
      arrayLoop doubles count (list ++ [value.value]) value.rest = some o := by
  rw [arrayLoop_item hnext] at h
  obtain ⟨value, hvalue, h⟩ := Option.bind_eq_some_iff.mp h
  by_cases hvalueSuccess : value.success
  case neg =>
      rw [if_pos hvalueSuccess] at h
      exact absurd hsuccess (not_success_of_failed h)
  rw [if_neg (not_not_intro hvalueSuccess)] at h
  exact ⟨value, hvalue, hvalueSuccess, h⟩

theorem arrayLoop_of_item {list : List QVariant} {value : Outcome}
    (hnext : (lookAhead json).IsItem) (hvalue : parseValue doubles count json = some value)
    (hsuccess : value.success) :
    arrayLoop doubles (count + 1) list json =
      arrayLoop doubles count (list ++ [value.value]) value.rest := by
  rw [arrayLoop_item hnext, hvalue, Option.bind_some, if_neg (not_not_intro hsuccess)]

/-- What was read with success is read in front of every other text. A number must have ended. -/
theorem read_append (text : Text) (count : Nat) :
    (∀ json o, parseValue doubles count json = some o → o.success →
      (lookAhead json = .number → o.rest ≠ []) →
      parseValue doubles count (json ++ text) = some (o.append text)) ∧
    (∀ map json o, objectLoop doubles count map json = some o → o.success →
      objectLoop doubles count map (json ++ text) = some (o.append text)) ∧
    (∀ list json o, arrayLoop doubles count list json = some o → o.success →
      arrayLoop doubles count list (json ++ text) = some (o.append text)) := by
  induction count with
  | zero =>
      exact ⟨fun _ _ h => (by cases h), fun _ _ _ h => (by cases h), fun _ _ _ h => (by cases h)⟩
  | succ count ih =>
      obtain ⟨ihValue, ihObject, ihArray⟩ := ih
      refine ⟨fun json o h hsuccess hnumber => ?_, fun map json o h hsuccess => ?_,
        fun list json o h hsuccess => ?_⟩
      · have hlook : lookAhead json ≠ .none := fun hnone => by
          rw [parseValue] at h
          simp only [hnone] at h
          exact absurd hsuccess (not_success_of_failed h)
        rw [parseValue] at h ⊢
        rw [lookAhead_append hlook, nextToken_append hlook]
        cases hnext : lookAhead json <;> simp only [hnext] at h ⊢
        case string => exact parseString_append hlook h hsuccess
        case number =>
            obtain rfl := Option.some.inj h
            rw [parseNumber_append (hnumber hnext)]
        case curlyOpen => exact ihObject _ _ _ h hsuccess
        case squaredOpen => exact ihArray _ _ _ h hsuccess
        all_goals
          rw [← Option.some.inj h] at hsuccess ⊢
          rfl
      · obtain hnext | hnext | hnext | hnext := (lookAhead json).member_cases
        · rw [objectLoop_none hnext] at h
          exact absurd hsuccess (not_success_of_failed h)
        · have hlook : lookAhead json ≠ .none := by rw [hnext]; decide
          rw [objectLoop_comma hnext] at h
          rw [objectLoop_comma ((lookAhead_append hlook).trans hnext), nextToken_append hlook]
          exact ihObject _ _ _ h hsuccess
        · have hlook : lookAhead json ≠ .none := by rw [hnext]; decide
          rw [objectLoop_close hnext] at h
          obtain rfl := Option.some.inj h
          rw [objectLoop_close ((lookAhead_append hlook).trans hnext), nextToken_append hlook]
          rfl
        · obtain ⟨name, value, hname, hnameSuccess, hcolon, hvalue, hvalueSuccess, hloop⟩ :=
            objectLoop_member_of_success hnext h hsuccess
          have hlook : lookAhead name.rest ≠ .none := by rw [lookAhead, hcolon]; decide
          have hbehind : nextToken (name.append text).rest =
              (.colon, (nextToken name.rest).2 ++ text) := by
            rw [Outcome.append_rest, nextToken_append hlook, hcolon]
          have hvalue' : parseValue doubles count (nextToken (name.append text).rest).2 =
              some (value.append text) := by
            rw [hbehind]
            exact ihValue _ _ hvalue hvalueSuccess fun _ => ne_nil_of_objectLoop hloop hsuccess
          have hname' : parseString (json ++ text) = some (name.append text) :=
            parseString_append hnext.1 hname hnameSuccess
          refine (objectLoop_of_member (by rwa [lookAhead_append hnext.1]) hname' hnameSuccess
            (by rw [hbehind]) hvalue' hvalueSuccess).trans ?_
          exact ihObject _ _ _ hloop hsuccess
      · obtain hnext | hnext | hnext | hnext := (lookAhead json).item_cases
        · rw [arrayLoop_none hnext] at h
          exact absurd hsuccess (not_success_of_failed h)
        · have hlook : lookAhead json ≠ .none := by rw [hnext]; decide
          rw [arrayLoop_comma hnext] at h
          rw [arrayLoop_comma ((lookAhead_append hlook).trans hnext), nextToken_append hlook]
          exact ihArray _ _ _ h hsuccess
        · have hlook : lookAhead json ≠ .none := by rw [hnext]; decide
          rw [arrayLoop_close hnext] at h
          obtain rfl := Option.some.inj h
          rw [arrayLoop_close ((lookAhead_append hlook).trans hnext), nextToken_append hlook]
          rfl
        · obtain ⟨value, hvalue, hvalueSuccess, hloop⟩ :=
            arrayLoop_item_of_success hnext h hsuccess
          have hvalue' := ihValue _ _ hvalue hvalueSuccess
            fun _ => ne_nil_of_arrayLoop hloop hsuccess
          rw [arrayLoop_of_item (by rwa [lookAhead_append hnext.1]) hvalue' hvalueSuccess]
          exact ihArray _ _ _ hloop hsuccess

end ArmOd.Json
