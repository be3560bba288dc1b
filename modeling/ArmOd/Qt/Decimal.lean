import ArmOd.Qt.Text

/-!
# Decimal texts

Numbers written with `QString::number` and read back with `toInt` and `toDouble`: the digits of a
number, the digits with zeros in front of them, and the text with a fixed number of places behind
the point. Everything is told by the digits and their value.
-/

namespace ArmOd.Text

/-- `QString::number` of an `int`. -/
def number (i : Int) : Text :=
  if i < 0 then '-' :: Nat.toDigits 10 i.natAbs else Nat.toDigits 10 i.natAbs

/-- The digits of a number, with zeros in front up to the width. -/
def padded (width n : Nat) : Text := List.leftpad width '0' (Nat.toDigits 10 n)

/-- The text of `k / 10 ^ places` with so many places behind the point. -/
def fixed (places k : Nat) : Text :=
  Nat.toDigits 10 (k / 10 ^ places) ++ '.' :: padded places (k % 10 ^ places)

variable {text whole frac : Text} {c : Char} {n k width places : Nat}

/-! ### Digits -/

theorem isDigit_of_mem_toDigits : ∀ c ∈ Nat.toDigits 10 n, c.isDigit :=
  fun _ hc => Nat.isDigit_of_mem_toDigits (by decide) (by decide) hc

theorem notMem_of_isDigit (h : ∀ c ∈ text, c.isDigit) (hc : ¬c.isDigit) : c ∉ text :=
  fun hmem => hc (h c hmem)

theorem number_natCast (n : Nat) : number n = Nat.toDigits 10 n := by
  rw [number, if_neg (by omega), Int.natAbs_natCast]

theorem toInt_toDigits (n : Nat) :
    toInt (Nat.toDigits 10 n) = if n < 2 ^ 31 then (n : Int) else 0 := by
  rw [toInt_of_isDigit Nat.toDigits_ne_nil isDigit_of_mem_toDigits, Nat.ofDigitChars_ten_toDigits]

/-! ### Texts that are an `int` -/

theorem mem_dropWhile {p : Char → Bool} (hc : c ∈ text) (hp : ¬p c) : c ∈ text.dropWhile p := by
  rw [← List.takeWhile_append_dropWhile (p := p) (l := text)] at hc
  exact (List.mem_append.mp hc).resolve_left fun htake => hp (List.mem_takeWhile_imp htake)

theorem toInt?_eq_none (hc : c ∈ text) (hspace : ¬isSpace c) (hplus : c ≠ '+') (hminus : c ≠ '-')
    (hdigit : ¬c.isDigit) : toInt? text = none := by
  have hfront : c ∈ text.dropWhile isSpace := mem_dropWhile hc hspace
  have htrim : c ∈ (text.dropWhile isSpace).rdropWhile isSpace :=
    List.mem_reverse.mpr (mem_dropWhile (List.mem_reverse.mpr hfront) hspace)
  rw [toInt?]
  refine if_neg fun hvalid => hdigit (List.all_eq_true.mp hvalid.2.1 c ?_)
  split
  · rename_i heq
    rw [heq] at htrim
    exact (List.mem_cons.mp htrim).resolve_left hplus
  · rename_i heq
    rw [heq] at htrim
    exact (List.mem_cons.mp htrim).resolve_left hminus
  · exact htrim

/-! ### Zeros in front -/

theorem padded_eq (width n : Nat) : padded width n =
    List.replicate (width - (Nat.toDigits 10 n).length) '0' ++ Nat.toDigits 10 n := rfl

theorem isDigit_of_mem_padded : ∀ c ∈ padded width n, c.isDigit := by
  intro c hc
  rw [padded_eq] at hc
  rcases List.mem_append.mp hc with hzero | hdigit
  · rw [List.eq_of_mem_replicate hzero]
    decide
  · exact isDigit_of_mem_toDigits c hdigit

theorem padded_ne_nil : padded width n ≠ [] := by
  rw [padded_eq]
  exact List.append_ne_nil_of_right_ne_nil _ Nat.toDigits_ne_nil

theorem ofDigitChars_padded : Nat.ofDigitChars 10 (padded width n) 0 = n := by
  rw [padded_eq, Nat.ofDigitChars_append, Nat.ofDigitChars_replicate_zero, Nat.mul_zero,
    Nat.ofDigitChars_ten_toDigits]

theorem length_padded (hwidth : 0 < width) (h : n < 10 ^ width) :
    (padded width n).length = width := by
  have hle : (Nat.toDigits 10 n).length ≤ width :=
    (Nat.length_toDigits_le_iff (by decide) hwidth).mpr h
  rw [padded_eq, List.length_append, List.length_replicate]
  omega

theorem toInt_padded (h : n < 2 ^ 31) : toInt (padded width n) = n := by
  rw [toInt_of_isDigit padded_ne_nil isDigit_of_mem_padded, ofDigitChars_padded, if_pos h]

/-! ### Columns -/

theorem right_append {front back : Text} (h : back.length = n) : right (front ++ back) n = back := by
  rw [right, if_neg (by omega), Int.toNat_natCast, List.length_append]
  exact List.drop_left' (by omega)

theorem left_append {front back : Text} (h : front.length = n) : left (front ++ back) n = front := by
  rw [left, if_neg (by omega), Int.toNat_natCast]
  exact List.take_left' h

/-! ### Places behind the point -/

theorem split_point (hwhole : ∀ c ∈ whole, c.isDigit) (hfrac : ∀ c ∈ frac, c.isDigit) :
    split ['.'] (whole ++ '.' :: frac) = [whole, frac] := by
  rw [split_singleton, List.splitOn_append_cons_self_of_not_mem (notMem_of_isDigit hwhole (by decide)),
    List.splitOn_eq_singleton (notMem_of_isDigit hfrac (by decide))]

theorem decimal_of_isDigit (hne : text ≠ []) (h : ∀ c ∈ text, c.isDigit) :
    decimal text = .fin (Nat.ofDigitChars 10 text 0) := by
  have hsplit : split ['.'] text = [text] := by
    rw [split_singleton, List.splitOn_eq_singleton (notMem_of_isDigit h (by decide))]
  simp only [decimal, hsplit, if_pos (And.intro hne (List.all_eq_true.mpr h))]

theorem decimal_point (hne : whole ++ frac ≠ []) (hwhole : ∀ c ∈ whole, c.isDigit)
    (hfrac : ∀ c ∈ frac, c.isDigit) :
    decimal (whole ++ '.' :: frac) =
      .fin (Nat.ofDigitChars 10 (whole ++ frac) 0 / 10 ^ frac.length) := by
  have hall : (whole ++ frac).all Char.isDigit = true := by
    refine List.all_eq_true.mpr fun c hc => ?_
    exact (List.mem_append.mp hc).elim (hwhole c) (hfrac c)
  simp only [decimal, split_point hwhole hfrac, if_pos (And.intro hne hall)]

theorem decimal_toDigits (n : Nat) : decimal (Nat.toDigits 10 n) = .fin n := by
  rw [decimal_of_isDigit Nat.toDigits_ne_nil isDigit_of_mem_toDigits, Nat.ofDigitChars_ten_toDigits]

theorem split_fixed (places k : Nat) : split ['.'] (fixed places k) =
    [Nat.toDigits 10 (k / 10 ^ places), padded places (k % 10 ^ places)] :=
  split_point isDigit_of_mem_toDigits isDigit_of_mem_padded

theorem decimal_fixed (hplaces : 0 < places) (k : Nat) :
    decimal (fixed places k) = .fin (k / 10 ^ places) := by
  have hpos : 0 < 10 ^ places := Nat.pow_pos (by decide)
  have hlength := length_padded hplaces (Nat.mod_lt k hpos)
  have hvalue : Nat.ofDigitChars 10
      (Nat.toDigits 10 (k / 10 ^ places) ++ padded places (k % 10 ^ places)) 0 = k := by
    rw [Nat.ofDigitChars_append, Nat.ofDigitChars_ten_toDigits,
      Nat.ofDigitChars_eq_ofDigitChars_zero, hlength, ofDigitChars_padded, Nat.div_add_mod]
  have hne : Nat.toDigits 10 (k / 10 ^ places) ++ padded places (k % 10 ^ places) ≠ [] :=
    List.append_ne_nil_of_left_ne_nil Nat.toDigits_ne_nil _
  rw [fixed, decimal_point hne isDigit_of_mem_toDigits isDigit_of_mem_padded, hvalue, hlength]

end ArmOd.Text

namespace ArmOd.Double

theorem toInt_div (a b : Nat) : toInt (.fin (a / b)) = (a / b : Nat) := by
  have hnum : 0 ≤ ((a : ℚ) / b).num := Rat.num_nonneg.mpr (by positivity)
  rw [toInt, Int.tdiv_eq_ediv_of_nonneg hnum, ← Rat.floor_def]
  exact Rat.floor_natCast_div_natCast a b

end ArmOd.Double
