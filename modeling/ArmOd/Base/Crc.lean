import Mathlib

/-!
# Cyclic redundancy checks

The register of a checksum, the most significant bit first. A bit is a shift to the left, and the
polynomial is added where a one has left the register. The step is linear in exclusive or, so what
the bits of a byte do to a register is what they do to its top byte, which can be taken from a table
of 256 entries, and to the rest, which only moves up.
-/

namespace ArmOd

namespace Crc

variable {w : Nat}

/-- One bit. -/
def bitStep (poly r : BitVec w) : BitVec w := if r.msb then (r <<< 1) ^^^ poly else r <<< 1

def bitSteps (poly : BitVec w) : Nat → BitVec w → BitVec w
  | 0, r => r
  | n + 1, r => bitSteps poly n (bitStep poly r)

/-- A byte is added to the top of the register, and its bits are taken. -/
def byteStep (poly r : BitVec w) (byte : BitVec 8) : BitVec w :=
  bitSteps poly 8 (r ^^^ byte.setWidth w <<< (w - 8))

/-- **The bit-serial checksum.** -/
def bitSerial (poly init : BitVec w) (data : List (BitVec 8)) : BitVec w :=
  data.foldl (byteStep poly) init

/-- What the bits of a byte leave in an empty register. -/
def tableEntry (poly : BitVec w) (index : BitVec 8) : BitVec w :=
  bitSteps poly 8 (index.setWidth w <<< (w - 8))

variable {poly r r' : BitVec w} {byte : BitVec 8} {n : Nat}

theorem bitStep_xor : bitStep poly (r ^^^ r') = bitStep poly r ^^^ bitStep poly r' := by
  rw [bitStep, bitStep, bitStep, BitVec.msb_xor, BitVec.shiftLeft_xor_distrib]
  cases r.msb <;> cases r'.msb
  · rfl
  · exact BitVec.xor_assoc _ _ _
  · rw [Bool.xor_false, if_pos rfl, if_pos rfl, if_neg Bool.false_ne_true]
    rw [BitVec.xor_assoc, BitVec.xor_comm (r' <<< 1), ← BitVec.xor_assoc]
  · rw [Bool.xor_self, if_neg Bool.false_ne_true, if_pos rfl, if_pos rfl]
    rw [BitVec.xor_assoc, ← BitVec.xor_assoc poly, BitVec.xor_comm poly, BitVec.xor_assoc,
      BitVec.xor_self, BitVec.xor_zero]

theorem bitSteps_xor :
    bitSteps poly n (r ^^^ r') = bitSteps poly n r ^^^ bitSteps poly n r' := by
  induction n generalizing r r' with
  | zero => rfl
  | succ n ih => rw [bitSteps, bitStep_xor, ih, ← bitSteps, ← bitSteps]

/-- A register whose top bits are clear only moves up. -/
theorem bitSteps_of_clear (h : ∀ i < n, r.getMsbD i = false) : bitSteps poly n r = r <<< n := by
  induction n generalizing r with
  | zero => exact (BitVec.shiftLeft_zero r).symm
  | succ n ih =>
      have hmsb : r.msb = false := h 0 (Nat.succ_pos n)
      rw [bitSteps, bitStep, hmsb, if_neg Bool.false_ne_true, ih, ← BitVec.shiftLeft_add,
        Nat.add_comm]
      intro i hi
      rw [BitVec.getMsbD_shiftLeft]
      exact h (i + 1) (Nat.succ_lt_succ hi)

/-- The top byte of the register. -/
def topByte (r : BitVec w) : BitVec 8 := (r >>> (w - 8)).setWidth 8

theorem top_xor_rest (hw : 8 ≤ w) (r : BitVec w) :
    (topByte r).setWidth w <<< (w - 8) ^^^ (r <<< 8) >>> 8 = r := by
  apply BitVec.eq_of_getLsbD_eq
  intro i hi
  rw [BitVec.getLsbD_xor, BitVec.getLsbD_shiftLeft, BitVec.getLsbD_ushiftRight,
    BitVec.getLsbD_shiftLeft, BitVec.getLsbD_setWidth, topByte, BitVec.getLsbD_setWidth,
    BitVec.getLsbD_ushiftRight]
  by_cases htop : i < w - 8
  · have hin : 8 + i < w := by omega
    have hsub : 8 + i - 8 = i := by omega
    simp [htop, hin, hsub]
  · have hout : ¬8 + i < w := by omega
    have hin : i - (w - 8) < w := by omega
    have hbyte : i - (w - 8) < 8 := by omega
    have hsum : w - 8 + (i - (w - 8)) = i := by omega
    simp [htop, hout, hin, hbyte, hsum, hi]

/-- **A byte from the table.** -/
theorem byteStep_eq (hw : 8 ≤ w) (poly r : BitVec w) (byte : BitVec 8) :
    byteStep poly r byte = (r <<< 8) ^^^ tableEntry poly (topByte r ^^^ byte) := by
  have hindex : (topByte r ^^^ byte).setWidth w <<< (w - 8) =
      (topByte r).setWidth w <<< (w - 8) ^^^ byte.setWidth w <<< (w - 8) := by
    rw [BitVec.setWidth_xor, BitVec.shiftLeft_xor_distrib]
  have hsplit : r ^^^ byte.setWidth w <<< (w - 8) =
      (r <<< 8) >>> 8 ^^^ (topByte r ^^^ byte).setWidth w <<< (w - 8) := by
    rw [hindex, ← BitVec.xor_assoc, BitVec.xor_comm ((r <<< 8) >>> 8), top_xor_rest hw]
  have hclear : ∀ i < 8, ((r <<< 8) >>> 8).getMsbD i = false := by
    intro i hi
    rw [BitVec.getMsbD_ushiftRight]
    simp [hi]
  have hrest : (r <<< 8) >>> 8 <<< 8 = r <<< 8 := by
    apply BitVec.eq_of_getLsbD_eq
    intro i hi
    rw [BitVec.getLsbD_shiftLeft, BitVec.getLsbD_ushiftRight, BitVec.getLsbD_shiftLeft,
      BitVec.getLsbD_shiftLeft]
    by_cases hlow : i < 8
    · simp [hlow]
    · have hsum : 8 + (i - 8) = i := by omega
      simp [hlow, hsum, hi]
  rw [byteStep, hsplit, bitSteps_xor, bitSteps_of_clear hclear, hrest, tableEntry]

end Crc

end ArmOd
