import Mathlib

/-!
# The recent part of a list

The last elements of a list, so many as there is room for. A log that is cut back to them whenever
it grows is at every time the recent part of the log that never was.
-/

namespace ArmOd

variable {α : Type}

/-- The last `n` elements. -/
def recent (n : Nat) (as : List α) : List α := as.drop (as.length - n)

variable {n : Nat} {as : List α}

theorem recent_of_length_le (h : as.length ≤ n) : recent n as = as := by
  rw [recent, Nat.sub_eq_zero_of_le h, List.drop_zero]

/-- What was cut off is not missed later. -/
theorem recent_recent_append (n : Nat) (as more : List α) :
    recent n (recent n as ++ more) = recent n (as ++ more) := by
  have hle : as.length - n ≤ as.length := Nat.sub_le _ _
  have hdrop : recent n as ++ more = (as ++ more).drop (as.length - n) := by
    rw [recent, List.drop_append_of_le_length hle]
  rw [hdrop, recent, recent, List.drop_drop, List.length_drop, List.length_append]
  congr 1
  omega

end ArmOd
