import Mathlib

/-!
# Records of one size

A table whose records all take the same number of cells: where the cell of a record stands, and that
every cell belongs to a record.
-/

namespace ArmOd

namespace Records

variable {α β : Type} {record : α → List β} {size : Nat}

theorem getElem?_table (hsize : ∀ a, (record a).length = size) {r : Nat} (hr : r < size)
    (as : List α) (i : Nat) :
    (as.flatMap record)[i * size + r]? = as[i]?.bind fun a => (record a)[r]? := by
  induction as generalizing i with
  | nil => rfl
  | cons a as ih =>
      rw [List.flatMap_cons]
      cases i with
      | zero =>
          rw [Nat.zero_mul, Nat.zero_add, List.getElem?_append_left (by rw [hsize]; exact hr)]
          rfl
      | succ i =>
          have hskip : (i + 1) * size + r - (record a).length = i * size + r := by
            rw [hsize, Nat.succ_mul]
            omega
          rw [List.getElem?_append_right (by rw [hsize, Nat.succ_mul]; omega), hskip, ih,
            List.getElem?_cons_succ]

end Records

end ArmOd
