import ArmOd.Qt.Values

/-!
# Comparing and adding doubles

The comparisons are the ones of IEEE; the sums are without rounding.
-/

namespace ArmOd

/-- `==` of two doubles. -/
def Double.eq (a b : Double) : Bool := decide (a = b) && !a.isNaN

/-- `x <= y`. -/
def Double.le (x y : Double) : Bool := x.lt y || (x == y && !x.isNaN)

/-- Conversion to `int`: what is not in the range becomes the least one, as on x86. -/
def Double.toInt32 (d : Double) : Int :=
  if -2 ^ 31 ≤ d.toInt ∧ d.toInt < 2 ^ 31 then d.toInt else -2 ^ 31

namespace Double

theorem eq_of_eq {a b : Double} (h : a.eq b = true) : a = b :=
  of_decide_eq_true (Bool.and_eq_true_iff.mp h).1

theorem not_le_of_pos {d : Double} (h : Double.lt 0 d = true) : ¬d.le 0 = true := by
  cases d with
  | fin q =>
      have hpos : (0 : ℚ) < q := by simpa using of_decide_eq_true h
      intro hle
      rcases Bool.or_eq_true_iff.mp hle with hlt | heq
      · have hneg : q < 0 := by simpa using of_decide_eq_true hlt
        exact lt_asymm hpos hneg
      · have hzero : Double.fin q = .fin ((0 : ℕ) : ℚ) := eq_of_eq heq
        rw [Double.fin.inj hzero, Nat.cast_zero] at hpos
        exact lt_irrefl _ hpos
  | inf negative =>
      cases negative with
      | true => cases h
      | false => decide
  | nan => cases h

theorem toInt_fin (i : Int) : (Double.fin i).toInt = i := by
  rw [toInt]
  simp

theorem toInt32_fin {i : Int} (h : -2 ^ 31 ≤ i) (h' : i < 2 ^ 31) : (Double.fin i).toInt32 = i := by
  rw [toInt32, toInt_fin, if_pos ⟨h, h'⟩]

theorem toInt32_toInt32 (d : Double) : (Double.fin d.toInt32).toInt32 = d.toInt32 := by
  have hrange : -2 ^ 31 ≤ d.toInt32 ∧ d.toInt32 < 2 ^ 31 := by
    rw [toInt32]
    split
    · assumption
    · decide
  exact toInt32_fin hrange.1 hrange.2

instance : Neg Double where
  neg
    | .fin q => .fin (-q)
    | .inf negative => .inf !negative
    | .nan => .nan

instance : Add Double where
  add
    | .fin a, .fin b => .fin (a + b)
    | .fin _, .inf negative => .inf negative
    | .inf negative, .fin _ => .inf negative
    | .inf a, .inf b => if a = b then .inf a else .nan
    | _, _ => .nan

instance : Sub Double where
  sub a b := a + -b

theorem neg_add (d : Double) (q : ℚ) : -d + .fin q = .fin q - d := by
  cases d with
  | fin a =>
      change Double.fin (-a + q) = .fin (q + -a)
      rw [add_comm]
  | inf negative => rfl
  | nan => rfl

theorem sub_add_fin (d : Double) (p q : ℚ) : .fin p - d + .fin q = .fin (p + q) - d := by
  cases d with
  | fin a =>
      change Double.fin (p + -a + q) = .fin (p + q + -a)
      rw [add_right_comm]
  | inf negative => rfl
  | nan => rfl

end Double

end ArmOd
