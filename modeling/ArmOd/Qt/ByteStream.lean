import Mathlib

/-!
# The bytes of a QDataStream

What the stream operators of `quint32` and `QString` put on the wire, and what they make of bytes
that another operator wrote. Reading does not stop at an error: a number that is cut off is zero, a
text that is cut off or of an odd size is null, and the next operator goes on with what is left.
-/

namespace ArmOd

/-- A `QString`: null, or its UTF-16 code units. -/
structure QText where
  units : Option (List UInt16)
  size_lt : (units.getD []).length < 2 ^ 31

namespace QText

def null : QText := ⟨none, by decide⟩

/-- A text of the source, whose characters are one code unit each. -/
def latin1 (text : String) (h : text.toList.length < 2 ^ 31) : QText :=
  ⟨some (text.toList.map fun c => UInt16.ofNat c.toNat), by simpa using h⟩

/-- The code units; the null string has none. -/
def chars (s : QText) : List UInt16 := s.units.getD []

def isEmpty (s : QText) : Prop := s.chars = []

/-- `QString::operator==`, for which the null string is an empty one. -/
def same (a b : QText) : Prop := a.chars = b.chars

end QText

def bigEndian (n : UInt32) : List UInt8 :=
  [UInt8.ofNat (n.toNat / 2 ^ 24), UInt8.ofNat (n.toNat / 2 ^ 16), UInt8.ofNat (n.toNat / 2 ^ 8),
    UInt8.ofNat n.toNat]

def utf16 (units : List UInt16) : List UInt8 :=
  units.flatMap fun u => [UInt8.ofNat (u.toNat / 2 ^ 8), UInt8.ofNat u.toNat]

/-- The size in front of a text: its bytes, or the mark of the null string. -/
def QText.header (s : QText) : UInt32 :=
  match s.units with
  | none => 0xffffffff
  | some units => UInt32.ofNat (2 * units.length)

/-- `operator<<` of a `QString`. -/
def QText.put (s : QText) : List UInt8 := bigEndian s.header ++ utf16 s.chars

/-- A reader that goes on after an error. -/
abbrev ByteReader := StateM (List UInt8)

namespace ByteReader

def readQuint32 : ByteReader UInt32 := fun
  | a :: b :: c :: d :: rest =>
      (UInt32.ofNat (((a.toNat * 256 + b.toNat) * 256 + c.toNat) * 256 + d.toNat), rest)
  | _ => (0, [])

def readUnits : List UInt8 → List UInt16
  | a :: b :: rest => UInt16.ofNat (a.toNat * 256 + b.toNat) :: readUnits rest
  | _ => []

theorem length_readUnits (bytes : List UInt8) : (readUnits bytes).length = bytes.length / 2 := by
  fun_induction readUnits bytes with
  | case1 a b rest ih =>
      simp only [List.length_cons, ih]
      omega
  | case2 bytes h =>
      match bytes with
      | [] => rfl
      | [a] => simp
      | a :: b :: rest => exact absurd rfl (h a b rest)

/-- The text of so many bytes. -/
def readText (bytes : UInt32) : ByteReader QText := fun data =>
  if data.length < bytes.toNat then (.null, [])
  else
    (⟨some (readUnits (data.take bytes.toNat)), by
      have hlt := bytes.toNat_lt
      rw [Option.getD_some, length_readUnits, List.length_take]
      omega⟩, data.drop bytes.toNat)

/-- `operator>>` of a `QString`. -/
def readQString : ByteReader QText := do
  let bytes ← readQuint32
  if bytes = 0xffffffff ∨ bytes.toNat % 2 = 1 then return .null
  readText bytes

/-! ### Reading back -/

variable {rest : List UInt8}

@[simp] theorem length_bigEndian (n : UInt32) : (bigEndian n).length = 4 := rfl

@[simp] theorem readQuint32_bigEndian (n : UInt32) : readQuint32 (bigEndian n ++ rest) = (n, rest) := by
  have hlt := n.toNat_lt
  refine Prod.ext (UInt32.toNat_inj.mp ?_) rfl
  simp only [bigEndian, List.cons_append, List.nil_append, readQuint32, UInt8.toNat_ofNat',
    UInt32.toNat_ofNat']
  omega

theorem exists_bigEndian (a b c d : UInt8) : ∃ n, [a, b, c, d] = bigEndian n := by
  have ha := a.toNat_lt
  have hb := b.toNat_lt
  have hc := c.toNat_lt
  have hd := d.toNat_lt
  refine ⟨UInt32.ofNat (((a.toNat * 256 + b.toNat) * 256 + c.toNat) * 256 + d.toNat), ?_⟩
  simp only [bigEndian, List.cons.injEq, ← UInt8.toNat_inj, UInt8.toNat_ofNat', UInt32.toNat_ofNat',
    and_true]
  omega

theorem bigEndian_injective : Function.Injective bigEndian := by
  intro a b h
  have hread : readQuint32 (bigEndian a ++ []) = (a, []) := readQuint32_bigEndian a
  rw [h, readQuint32_bigEndian] at hread
  exact (Prod.mk.inj hread).1.symm

@[simp] theorem length_utf16 (units : List UInt16) : (utf16 units).length = 2 * units.length := by
  simp [utf16, mul_comm]

theorem readUnits_utf16 (units : List UInt16) : readUnits (utf16 units) = units := by
  induction units with
  | nil => rfl
  | cons u units ih =>
      have hlt := u.toNat_lt
      have hunit : UInt16.ofNat ((UInt8.ofNat (u.toNat / 2 ^ 8)).toNat * 256 +
          (UInt8.ofNat u.toNat).toNat) = u := by
        refine UInt16.toNat_inj.mp ?_
        simp only [UInt8.toNat_ofNat', UInt16.toNat_ofNat']
        omega
      change UInt16.ofNat _ :: readUnits (utf16 units) = _
      rw [hunit, ih]

theorem utf16_readUnits {bytes : List UInt8} (h : bytes.length % 2 = 0) :
    utf16 (readUnits bytes) = bytes := by
  fun_induction readUnits bytes with
  | case1 a b rest ih =>
      have ha := a.toNat_lt
      have hb := b.toNat_lt
      have hhigh : UInt8.ofNat ((UInt16.ofNat (a.toNat * 256 + b.toNat)).toNat / 2 ^ 8) = a := by
        refine UInt8.toNat_inj.mp ?_
        simp only [UInt8.toNat_ofNat', UInt16.toNat_ofNat']
        omega
      have hlow : UInt8.ofNat (UInt16.ofNat (a.toNat * 256 + b.toNat)).toNat = b := by
        refine UInt8.toNat_inj.mp ?_
        simp only [UInt8.toNat_ofNat', UInt16.toNat_ofNat']
        omega
      change _ :: _ :: utf16 (readUnits rest) = _
      rw [hhigh, hlow, ih (by simp only [List.length_cons] at h; omega)]
  | case2 bytes hshort =>
      match bytes with
      | [] => rfl
      | [a] => cases h
      | a :: b :: rest => exact absurd rfl (hshort a b rest)

theorem readQString_bigEndian (n : UInt32) :
    readQString (bigEndian n ++ rest) =
      if n = 0xffffffff ∨ n.toNat % 2 = 1 then (.null, rest) else readText n rest := by
  have hread : readQString (bigEndian n ++ rest) = (fun p : UInt32 × List UInt8 =>
      (if p.1 = 0xffffffff ∨ p.1.toNat % 2 = 1 then pure .null
        else readText p.1 : ByteReader QText) p.2) (readQuint32 (bigEndian n ++ rest)) := rfl
  rw [hread, readQuint32_bigEndian]
  dsimp only
  split <;> rfl

theorem readQString_of_ne_nil {units : List UInt16} (hlt : units.length < 2 ^ 31) (hne : units ≠ []) :
    readQString (bigEndian (UInt32.ofNat (2 * units.length)) ++ (utf16 units ++ rest))
      = (⟨some units, hlt⟩, rest) := by
  have hpos := List.length_pos_iff.mpr hne
  have hsize : (UInt32.ofNat (2 * units.length)).toNat = 2 * units.length := by
    rw [UInt32.toNat_ofNat']
    omega
  have hvalid : ¬ (UInt32.ofNat (2 * units.length) = 0xffffffff ∨
      (UInt32.ofNat (2 * units.length)).toNat % 2 = 1) := by
    rintro (hmark | hodd)
    · rw [hmark] at hsize
      have hmax : (0xffffffff : UInt32).toNat = 4294967295 := rfl
      omega
    · omega
  have hlong : ¬ (utf16 units ++ rest).length < 2 * units.length := by simp
  rw [readQString_bigEndian, if_neg hvalid]
  simp only [readText, hsize, if_neg hlong]
  rw [List.drop_left' (length_utf16 units)]
  congr 2
  rw [List.take_left' (length_utf16 units), readUnits_utf16]

/-- **The round trip of a text**, up to the difference between a null and an empty one. -/
theorem readQString_put (t : QText) (rest : List UInt8) :
    (readQString (t.put ++ rest)).1.same t ∧ (readQString (t.put ++ rest)).2 = rest := by
  rcases t with ⟨_ | units, hlt⟩
  · have hput : QText.put ⟨none, hlt⟩ ++ rest = bigEndian 0xffffffff ++ rest := rfl
    rw [hput, readQString_bigEndian, if_pos (Or.inl rfl)]
    exact ⟨rfl, rfl⟩
  · rw [QText.put, List.append_assoc]
    change (readQString (bigEndian (UInt32.ofNat (2 * units.length)) ++ (utf16 units ++ rest))).1.same
      _ ∧ (readQString (bigEndian (UInt32.ofNat (2 * units.length)) ++ (utf16 units ++ rest))).2 = _
    by_cases hne : units = []
    · subst hne
      rw [readQString_bigEndian]
      exact ⟨rfl, rfl⟩
    · have hlt' : units.length < 2 ^ 31 := hlt
      rw [readQString_of_ne_nil hlt' hne]
      exact ⟨rfl, rfl⟩

/-- A text that was read and is not empty stood at the front, behind its size. -/
theorem eq_of_readQString {data : List UInt8} (hne : (readQString data).1.chars ≠ []) :
    data = bigEndian (UInt32.ofNat (2 * (readQString data).1.chars.length)) ++
      (utf16 (readQString data).1.chars ++ (readQString data).2) := by
  match data with
  | [] | [_] | [_, _] | [_, _, _] => exact absurd rfl hne
  | a :: b :: c :: d :: rest =>
      obtain ⟨n, hn⟩ := exists_bigEndian a b c d
      have hdata : a :: b :: c :: d :: rest = bigEndian n ++ rest := by rw [← hn]; rfl
      rw [hdata, readQString_bigEndian] at hne ⊢
      split at hne
      · exact absurd rfl hne
      · rename_i hvalid
        rw [not_or] at hvalid
        rw [if_neg (not_or.mpr hvalid)]
        by_cases hlong : rest.length < n.toNat
        · rw [readText, if_pos hlong] at hne
          exact absurd rfl hne
        · have hlength : (rest.take n.toNat).length = n.toNat := by
            rw [List.length_take]
            omega
          have hread : ∃ h, readText n rest =
              (⟨some (readUnits (rest.take n.toNat)), h⟩, rest.drop n.toNat) := by
            rw [readText, if_neg hlong]
            exact ⟨_, rfl⟩
          obtain ⟨hlt, hread⟩ := hread
          rw [hread]
          change _ = bigEndian (UInt32.ofNat (2 * (readUnits (rest.take n.toNat)).length)) ++
            (utf16 (readUnits (rest.take n.toNat)) ++ rest.drop n.toNat)
          have heven : 2 * (n.toNat / 2) = n.toNat := by omega
          rw [length_readUnits, hlength, heven, UInt32.ofNat_toNat,
            utf16_readUnits (by rw [hlength]; omega), List.take_append_drop]

end ByteReader

end ArmOd
