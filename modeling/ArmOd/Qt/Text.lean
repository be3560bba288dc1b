import ArmOd.Qt.Values

/-!
# The texts the coders take apart

A `QString` as the list of its characters, with the functions the coders call on it. A negative
length or a position past the end means what it means to Qt: `left` and `right` return the whole
text, `mid` cuts to what there is. `Numerics` stands for `double` arithmetic with its rounding,
`Conversions` for the texts of numbers and dates; the results on coders hold for all of them.
-/

namespace ArmOd

abbrev Text := List Char

structure Numerics where
  /-- The `double` nearest to a number. -/
  ofRat : ℚ → Double
  add : Double → Double → Double
  mul : Double → Double → Double
  div : Double → Double → Double
  /-- `QString::toDouble`. -/
  toDouble : Text → Double

structure Conversions where
  /-- `QString::number` of a `double`. -/
  number : Double → Text
  /-- `QDate::fromString`. -/
  toDate : Text → Text → Int
  /-- `QTime::fromString`. -/
  toTime : Text → Text → QTime

namespace Text

/-- The pieces between the separators; `skip` characters of a separator are still to be passed. -/
def splitGo (sep : Text) : Nat → Text → Text → List Text
  | _, piece, [] => [piece.reverse]
  | skip + 1, piece, _ :: text => splitGo sep skip piece text
  | 0, piece, c :: text =>
    if sep.isPrefixOf (c :: text) then piece.reverse :: splitGo sep (sep.length - 1) [] text
      else splitGo sep 0 (c :: piece) text

def split (sep text : Text) : List Text := splitGo sep 0 [] text

theorem splitGo_ne_nil (sep : Text) (skip : Nat) (piece text : Text) :
    splitGo sep skip piece text ≠ [] := by
  fun_induction splitGo sep skip piece text with
  | case1 | case3 => exact List.cons_ne_nil _ _
  | case2 _ _ _ _ ih | case4 _ _ _ _ ih => exact ih

theorem exists_getElem?_zero_split (sep text : Text) : ∃ piece, (split sep text)[0]? = some piece := by
  rw [← List.head?_eq_getElem?]
  exact Option.isSome_iff_exists.mp (List.isSome_head?.mpr (splitGo_ne_nil sep 0 [] text))

theorem split_of_not_infix {sep text : Text} (h : ¬ sep <:+: text) : split sep text = [text] := by
  have hgo : ∀ piece, splitGo sep 0 piece text = [piece.reverse ++ text] := by
    induction text with
    | nil => intro piece; rw [splitGo, List.append_nil]
    | cons c text ih =>
        intro piece
        have hfront : ¬ sep.isPrefixOf (c :: text) := fun hp =>
          h (List.isPrefixOf_iff_prefix.mp hp).isInfix
        rw [splitGo, if_neg hfront, ih fun hinner => h (List.infix_cons hinner)]
        rw [List.reverse_cons, List.append_assoc, List.singleton_append]
  rw [split, hgo, List.reverse_nil, List.nil_append]

theorem splitGo_singleton (c : Char) (piece text : Text) :
    splitGo [c] 0 piece text = List.splitOnPPrepend (· == c) text piece := by
  induction text generalizing piece with
  | nil => rfl
  | cons x text ih =>
      have hfront : [c].isPrefixOf (x :: text) = (x == c) := by
        simp [List.isPrefixOf, Bool.beq_comm]
      rw [splitGo, List.splitOnPPrepend, hfront, List.length_singleton, ih, ih]

theorem split_singleton (c : Char) (text : Text) : split [c] text = text.splitOn c :=
  splitGo_singleton c [] text

theorem splitGo_skip (sep piece passed text : Text) :
    splitGo sep passed.length piece (passed ++ text) = splitGo sep 0 piece text := by
  induction passed with
  | nil => rfl
  | cons c passed ih => rw [List.length_cons, List.cons_append, splitGo, ih]

theorem split_append {c : Char} {sep front : Text} (h : c ∉ front) (back : Text) :
    split (c :: sep) (front ++ (c :: sep ++ back)) = front :: split (c :: sep) back := by
  have hgo : ∀ piece, splitGo (c :: sep) 0 piece (front ++ (c :: sep ++ back)) =
      (piece.reverse ++ front) :: splitGo (c :: sep) 0 [] back := by
    induction front with
    | nil =>
        intro piece
        have hfront : (c :: sep).isPrefixOf (c :: (sep ++ back)) = true :=
          List.isPrefixOf_iff_prefix.mpr (List.prefix_append (c :: sep) back)
        rw [List.nil_append, List.cons_append, splitGo, if_pos hfront, List.length_cons,
          Nat.add_sub_cancel, splitGo_skip, List.append_nil]
    | cons x front ih =>
        intro piece
        obtain ⟨hne, hfront⟩ := not_or.mp (mt List.mem_cons.mpr h)
        have hnot : ¬(c :: sep).isPrefixOf (x :: (front ++ (c :: sep ++ back))) = true := by
          rw [List.isPrefixOf_iff_prefix, List.cons_prefix_cons]
          exact fun heq => hne heq.1
        rw [List.cons_append, splitGo, if_neg hnot, ih hfront, List.reverse_cons,
          List.append_assoc, List.singleton_append]
  exact hgo []

theorem split_of_notMem {c : Char} {sep text : Text} (h : c ∉ text) :
    split (c :: sep) text = [text] :=
  split_of_not_infix fun hinner => h (hinner.subset List.mem_cons_self)

theorem isSome_getElem?_one_split {c : Char} {text : Text} :
    (split [c] text)[1]?.isSome ↔ c ∈ text := by
  rw [split_singleton]
  by_cases hc : c ∈ text
  · obtain ⟨front, back, rfl⟩ := List.append_of_mem hc
    have hfront := List.length_pos_iff.mpr (List.splitOn_ne_nil c front)
    have hback := List.length_pos_iff.mpr (List.splitOn_ne_nil c back)
    rw [List.splitOn_append_cons_self, isSome_getElem?, List.length_append]
    simp only [hc, iff_true]
    omega
  · rw [List.splitOn_eq_singleton hc]
    simp [hc]

theorem exists_of_one_lt_length_splitOn {c : Char} {text : Text}
    (h : 1 < (text.splitOn c).length) :
    ∃ piece rest, text = piece ++ c :: rest ∧ piece.splitOn c = [piece] ∧
      text.splitOn c = piece :: rest.splitOn c := by
  have hc : c ∈ text := by
    by_contra hc
    rw [List.splitOn_eq_singleton hc, List.length_singleton] at h
    omega
  obtain ⟨piece, rest, rfl, hpiece⟩ := List.eq_append_cons_of_mem hc
  exact ⟨piece, rest, rfl, List.splitOn_eq_singleton hpiece,
    List.splitOn_append_cons_self_of_not_mem hpiece rest⟩

/-- In front of a later separator there are the first pieces. -/
theorem exists_of_lt_length_splitOn {c : Char} {text : Text} {n : Nat}
    (h : n + 1 < (text.splitOn c).length) :
    ∃ front back, text = front ++ c :: back ∧ front.splitOn c = (text.splitOn c).take (n + 1) ∧
      n ≤ front.length := by
  induction n generalizing text with
  | zero =>
      obtain ⟨piece, rest, rfl, hpiece, hsplit⟩ := exists_of_one_lt_length_splitOn h
      exact ⟨piece, rest, rfl, by rw [hsplit, hpiece]; rfl, Nat.zero_le _⟩
  | succ n ih =>
      have hone : 1 < (text.splitOn c).length := by omega
      obtain ⟨piece, rest, rfl, hpiece, hsplit⟩ := exists_of_one_lt_length_splitOn hone
      rw [hsplit, List.length_cons] at h
      have hrest : n + 1 < (rest.splitOn c).length := by omega
      obtain ⟨front, back, rfl, hfront, hlength⟩ := ih hrest
      refine ⟨piece ++ c :: front, back, by rw [List.append_assoc, List.cons_append], ?_, ?_⟩
      · rw [List.splitOn_append_cons_self, hpiece, hfront, hsplit]
        rfl
      · rw [List.length_append, List.length_cons]
        omega

def contains (sub text : Text) : Bool := text.tails.any sub.isPrefixOf

/-- `remove`, of every occurrence of a text. -/
def remove (sub text : Text) : Text := (split sub text).flatten

def left (text : Text) (n : Int) : Text := if n < 0 then text else text.take n.toNat

def right (text : Text) (n : Int) : Text :=
  if n < 0 then text else text.drop (text.length - n.toNat)

def mid (text : Text) (position n : Int) : Text :=
  if position ≥ text.length then []
  else
    let n := if n < 0 then text.length - position else n
    let n := if position < 0 then n + position else n
    (text.drop position.toNat).take n.toNat

/-- `lastIndexOf` of a character. -/
def lastIndexOf (c : Char) : Text → Int
  | [] => -1
  | x :: text =>
    let i := lastIndexOf c text
    if 0 ≤ i then i + 1 else if x = c then 0 else -1

theorem le_lastIndexOf (c : Char) (front back : Text) :
    (front.length : Int) ≤ lastIndexOf c (front ++ c :: back) := by
  induction front with
  | nil =>
      rw [List.nil_append, lastIndexOf]
      split
      · rw [List.length_nil]
        omega
      · rw [if_pos rfl, List.length_nil, Nat.cast_zero]
  | cons x front ih =>
      rw [List.cons_append, lastIndexOf, List.length_cons]
      rw [if_pos (by omega)]
      omega

/-- What is left of a text that is cut behind the last separator keeps what is in front of any. -/
theorem exists_mid_lastIndexOf (c : Char) (front back : Text) :
    ∃ rest, mid (front ++ c :: back) 0 (lastIndexOf c (front ++ c :: back) + 2) =
      front ++ c :: rest := by
  have hle := le_lastIndexOf c front back
  obtain ⟨n, hn⟩ : ∃ n : Nat, lastIndexOf c (front ++ c :: back) = front.length + n :=
    ⟨(lastIndexOf c (front ++ c :: back) - front.length).toNat, by omega⟩
  refine ⟨back.take (n + 1), ?_⟩
  have hlength : ¬ (0 : Int) ≥ (front ++ c :: back).length := by
    rw [List.length_append, List.length_cons]
    omega
  rw [mid, if_neg hlength, hn]
  dsimp only
  rw [if_neg (by omega), if_neg (by omega), Int.toNat_zero, List.drop_zero]
  have htoNat : ((front.length : Int) + n + 2).toNat = front.length + (n + 2) := by omega
  rw [htoNat, List.take_length_add_append, List.take_succ_cons]

/-- `QChar::isSpace`. -/
def isSpace (c : Char) : Bool :=
  let n := c.toNat
  decide (9 ≤ n ∧ n ≤ 13 ∨ 0x2000 ≤ n ∧ n ≤ 0x200a) ||
    [0x20, 0xa0, 0x1680, 0x180e, 0x2028, 0x2029, 0x202f, 0x205f, 0x3000].contains n

/-- `toInt`: the value of a decimal text with an optional sign, blanks around it left out, otherwise
zero. -/
def toInt (text : Text) : Int :=
  let text := (text.dropWhile isSpace).rdropWhile isSpace
  let digits := match text with
    | '+' :: digits | '-' :: digits => digits
    | digits => digits
  let value : Int := if text.head? = some '-' then -Nat.ofDigitChars 10 digits 0
    else Nat.ofDigitChars 10 digits 0
  if digits ≠ [] ∧ digits.all Char.isDigit ∧ -2 ^ 31 ≤ value ∧ value < 2 ^ 31 then value else 0

/-- `toInt( &ok )`: nothing where `ok` is false. -/
def toInt? (text : Text) : Option Int :=
  let text := (text.dropWhile isSpace).rdropWhile isSpace
  let digits := match text with
    | '+' :: digits | '-' :: digits => digits
    | digits => digits
  let value : Int := if text.head? = some '-' then -Nat.ofDigitChars 10 digits 0
    else Nat.ofDigitChars 10 digits 0
  if digits ≠ [] ∧ digits.all Char.isDigit ∧ -2 ^ 31 ≤ value ∧ value < 2 ^ 31 then some value
    else none

theorem toInt_eq_getD (text : Text) : toInt text = (toInt? text).getD 0 := by
  simp only [toInt, toInt?, apply_ite (fun value : Option Int => value.getD 0), Option.getD_some,
    Option.getD_none]

theorem isSpace_of_isDigit {c : Char} (h : c.isDigit) : isSpace c = false := by
  rw [Char.isDigit, Bool.and_eq_true, decide_eq_true_eq, decide_eq_true_eq] at h
  have hlow : 48 ≤ c.toNat := h.1
  have hhigh : c.toNat ≤ 57 := h.2
  have hspaces : ∀ n ∈ [0x20, 0xa0, 0x1680, 0x180e, 0x2028, 0x2029, 0x202f, 0x205f, 0x3000],
    n < 48 ∨ 57 < n := by decide
  rw [isSpace, Bool.or_eq_false_iff, decide_eq_false_iff_not, Bool.eq_false_iff, ne_eq,
    List.contains_iff_mem]
  exact ⟨by omega, fun hmem => absurd (hspaces _ hmem) (by omega)⟩

theorem toInt?_of_isDigit {text : Text} (hne : text ≠ []) (h : ∀ c ∈ text, c.isDigit) :
    toInt? text = if Nat.ofDigitChars 10 text 0 < 2 ^ 31 then
      some (Nat.ofDigitChars 10 text 0 : Int) else none := by
  obtain ⟨c, rest, rfl⟩ := List.exists_cons_of_ne_nil hne
  have hspace : ∀ x ∈ c :: rest, ¬ isSpace x := fun x hx => by rw [isSpace_of_isDigit (h x hx)]; decide
  have hfront : (c :: rest).dropWhile isSpace = c :: rest :=
    List.dropWhile_cons_of_neg (hspace c List.mem_cons_self)
  have hback : (c :: rest).rdropWhile isSpace = c :: rest :=
    List.rdropWhile_eq_self_iff.mpr fun hne => hspace _ (List.getLast_mem hne)
  have hplus : c ≠ '+' := fun heq => absurd (h c List.mem_cons_self) (by rw [heq]; decide)
  have hminus : c ≠ '-' := fun heq => absurd (h c List.mem_cons_self) (by rw [heq]; decide)
  have hall : (c :: rest).all Char.isDigit := List.all_eq_true.mpr h
  rw [toInt?, hfront, hback]
  split
  · rename_i heq
    exact absurd (List.cons.inj heq).1 hplus
  · rename_i heq
    exact absurd (List.cons.inj heq).1 hminus
  · have hhead : ¬ (c :: rest).head? = some '-' := fun heq => hminus (Option.some.inj heq)
    simp only [if_neg hhead]
    by_cases hlt : Nat.ofDigitChars 10 (c :: rest) 0 < 2 ^ 31
    · rw [if_pos hlt, if_pos ⟨hne, hall, by omega, by omega⟩]
    · rw [if_neg hlt, if_neg fun hvalid => hlt (by omega)]

theorem toInt_of_isDigit {text : Text} (hne : text ≠ []) (h : ∀ c ∈ text, c.isDigit) :
    toInt text =
      if Nat.ofDigitChars 10 text 0 < 2 ^ 31 then (Nat.ofDigitChars 10 text 0 : Int) else 0 := by
  rw [toInt_eq_getD, toInt?_of_isDigit hne h]
  split <;> rfl

/-- The value of a decimal text without a sign and without an exponent; no other text is meant. -/
def decimal (text : Text) : Double :=
  match split ['.'] text with
  | [whole] => if whole ≠ [] ∧ whole.all Char.isDigit then .fin (Nat.ofDigitChars 10 whole 0) else 0
  | [whole, frac] =>
    if whole ++ frac ≠ [] ∧ (whole ++ frac).all Char.isDigit then
      .fin (Nat.ofDigitChars 10 (whole ++ frac) 0 / 10 ^ frac.length) else 0
  | _ => 0

end Text

/-- Arithmetic without rounding. -/
def Numerics.exact : Numerics where
  ofRat := .fin
  add := fun | .fin a, .fin b => .fin (a + b) | _, _ => .nan
  mul := fun | .fin a, .fin b => .fin (a * b) | _, _ => .nan
  div := fun | .fin a, .fin b => if b = 0 then (if a = 0 then .nan else .inf (decide (a < 0)))
    else .fin (a / b) | _, _ => .nan
  toDouble := Text.decimal

example : Text.split ",".toList "a,,b".toList = ["a".toList, [], "b".toList] := by decide +kernel

end ArmOd
