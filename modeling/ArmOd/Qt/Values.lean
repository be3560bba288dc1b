import Mathlib

/-!
# The values the program computes with

The standard types behind the sources: `double`, `uint` conversions, `QPointF`, `QTime`,
`QDateTime`, `QMap` and the decimal texts of `QString::number` and `QString::toUInt`. Comparisons of
doubles are the IEEE ones, so that a NaN takes the branch it takes in the code.
-/

namespace ArmOd

/-- A C++ `double`: a finite value, an infinity or a NaN. -/
inductive Double where
  | fin (q : ℚ)
  | inf (negative : Bool)
  | nan
  deriving DecidableEq, Repr

namespace Double

instance (n : Nat) : OfNat Double n := ⟨.fin n⟩

/-- `x < y`; no comparison with a NaN holds. -/
def lt : Double → Double → Bool
  | .fin a, .fin b => decide (a < b)
  | .inf true, .fin _ => true
  | .inf true, .inf false => true
  | .fin _, .inf false => true
  | _, _ => false

/-- `x != x`, the code's test for a NaN. -/
def isNaN : Double → Bool
  | .nan => true
  | _ => false

/-- Conversion to an integer by truncation. The conversion of a value that is not finite is
undefined in C++; the value here is the one x86 gives. -/
def toInt : Double → Int
  | .fin q => q.num.tdiv q.den
  | _ => -2 ^ 31

end Double

/-- Conversion to `quint16`, modulo `2 ^ 16`. -/
def quint16 (i : Int) : Nat := (i % 2 ^ 16).toNat

/-- Conversion to `uint`, modulo `2 ^ 32`. -/
def uint (i : Int) : Nat := (i % 2 ^ 32).toNat

theorem uint_of_lt {n : Nat} (h : n < 2 ^ 32) : uint n = n := by
  simp only [uint]
  omega

theorem uint_lt (i : Int) : uint i < 2 ^ 32 := by
  simp only [uint]
  omega

structure QPointF where
  x : Double
  y : Double
  deriving DecidableEq, Repr

/-- Milliseconds since midnight. -/
abbrev QTime := Nat

/-- A day number and a time of that day. -/
structure QDateTime where
  date : Int
  time : QTime
  deriving DecidableEq, Repr

namespace QDateTime

def lt (a b : QDateTime) : Bool :=
  decide (a.date < b.date) || (decide (a.date = b.date) && decide (a.time < b.time))

def setTime (d : QDateTime) (time : QTime) : QDateTime := { d with time }

/-- `setTime( time().addMSecs( - time().msec() ) )`: the milliseconds zeroed. -/
def dropMsecs (d : QDateTime) : QDateTime := d.setTime (d.time - d.time % 1000)

def msecsTo (a b : QDateTime) : Int := (b.date - a.date) * 86400000 + ((b.time : Int) - a.time)

end QDateTime

structure QTimer where
  running : Bool := false
  interval : Nat := 0
  deriving DecidableEq, Repr

/-- A `QMap`: an ordered map, iterated in key order. -/
abbrev QMap (κ ν : Type) [Ord κ] := Std.TreeMap κ ν compare

namespace QMap

variable {κ ν : Type} [Ord κ] [Std.TransOrd κ] {m : QMap κ ν} {k a : κ} {v : ν}

theorem mem_iff : a ∈ m ↔ ∃ v, m[a]? = some v := by
  rw [Std.TreeMap.mem_iff_isSome_getElem?, Option.isSome_iff_exists]

theorem mem_of_getElem? (h : m[a]? = some v) : a ∈ m := mem_iff.mpr ⟨v, h⟩

variable [Std.LawfulEqOrd κ]

theorem mem_insert : a ∈ m.insert k v ↔ k = a ∨ a ∈ m := by
  rw [Std.TreeMap.mem_insert, Std.compare_eq_iff_eq]

theorem mem_erase : a ∈ m.erase k ↔ k ≠ a ∧ a ∈ m := by
  rw [Std.TreeMap.mem_erase, ne_eq, Std.compare_eq_iff_eq]

theorem getElem?_insert [DecidableEq κ] : (m.insert k v)[a]? = if k = a then some v else m[a]? := by
  simp only [Std.TreeMap.getElem?_insert, Std.compare_eq_iff_eq]

theorem getElem?_erase [DecidableEq κ] : (m.erase k)[a]? = if k = a then none else m[a]? := by
  simp only [Std.TreeMap.getElem?_erase, Std.compare_eq_iff_eq]

theorem getElem?_erase_eq_some [DecidableEq κ] :
    (m.erase k)[a]? = some v ↔ k ≠ a ∧ m[a]? = some v := by
  rw [getElem?_erase]
  split
  · rename_i hkey
    exact iff_of_false nofun fun h => h.1 hkey
  · rename_i hkey
    exact (and_iff_right hkey).symm

/-- The values, in key order. -/
def values (m : QMap κ ν) : List ν := m.toList.map Prod.snd

/-- `values().contains( v )`. -/
def hasValue [BEq ν] (m : QMap κ ν) (v : ν) : Bool := m.toList.any fun p => p.2 == v

/-- `key( v )`: the first key with that value. -/
def key? [BEq ν] (m : QMap κ ν) (v : ν) : Option κ :=
  (m.toList.find? fun p => p.2 == v).map Prod.fst

/-- `remove( key( v ) )`, where there is such a value. -/
def eraseValue [BEq ν] (m : QMap κ ν) (v : ν) : QMap κ ν :=
  match key? m v with
  | some k => m.erase k
  | none => m

theorem mem_values_iff : v ∈ values m ↔ ∃ k : κ, m[k]? = some v := by
  simp only [values, List.mem_map, Prod.exists, Std.TreeMap.mem_toList_iff_getElem?_eq_some,
    exists_eq_right]

theorem mem_values_of_getElem? (h : m[k]? = some v) : v ∈ values m := mem_values_iff.mpr ⟨k, h⟩

theorem nodup_map_values {β : Type} (f : ν → β) (h : ∀ (k k' : κ) (v v' : ν), m[k]? = some v →
    m[k']? = some v' → f v = f v' → k = k') : ((values m).map f).Nodup := by
  have hkeys : (m.toList.map Prod.fst).Nodup := by
    rw [Std.TreeMap.map_fst_toList_eq_keys]
    exact Std.TreeMap.nodup_keys
  rw [values, List.map_map]
  refine List.Nodup.map_on ?_ hkeys.of_map
  rintro ⟨k, v⟩ hv ⟨k', v'⟩ hv' (heq : f v = f v')
  rw [Std.TreeMap.mem_toList_iff_getElem?_eq_some] at hv hv'
  obtain rfl := h k k' v v' hv hv' heq
  rw [Option.some.inj (hv.symm.trans hv')]

theorem hasValue_iff [BEq ν] [LawfulBEq ν] : hasValue m v = true ↔ ∃ k : κ, m[k]? = some v := by
  simp only [hasValue, List.any_eq_true, Prod.exists, beq_iff_eq,
    Std.TreeMap.mem_toList_iff_getElem?_eq_some]
  exact ⟨fun ⟨k, _, hget, heq⟩ => ⟨k, heq ▸ hget⟩, fun ⟨k, hget⟩ => ⟨k, v, hget, rfl⟩⟩

theorem key?_eq_some [BEq ν] [LawfulBEq ν] (h : key? m v = some k) : m[k]? = some v := by
  obtain ⟨p, hfind, rfl⟩ := Option.map_eq_some_iff.mp h
  have hget : m[p.1]? = some p.2 :=
    Std.TreeMap.mem_toList_iff_getElem?_eq_some.mp (List.mem_of_find?_eq_some hfind)
  have hvalue := List.find?_some hfind
  rw [hget, beq_iff_eq.mp hvalue]

theorem key?_eq_none [BEq ν] [LawfulBEq ν] (h : key? m v = none) (k : κ) : m[k]? ≠ some v := by
  intro hget
  have hnone := List.find?_eq_none.mp (Option.map_eq_none_iff.mp h) (k, v)
    (Std.TreeMap.mem_toList_iff_getElem?_eq_some.mpr hget)
  exact hnone (beq_self_eq_true v)

theorem contains_insert_self : (m.insert k v).contains k = true := mem_insert.mpr (Or.inl rfl)

theorem contains_insert_of_ne (h : a ≠ k) : (m.insert k v).contains a = m.contains a := by
  rw [Bool.eq_iff_iff]
  exact mem_insert.trans (or_iff_right fun heq => h heq.symm)

theorem contains_erase_self : (m.erase k).contains k = false := by
  rw [Bool.eq_false_iff]
  exact fun hk => (mem_erase.mp hk).1 rfl

theorem contains_erase_of_ne (h : a ≠ k) : (m.erase k).contains a = m.contains a := by
  rw [Bool.eq_iff_iff]
  exact mem_erase.trans (and_iff_right fun heq => h heq.symm)

end QMap

namespace QString

/-- `QString::number`. -/
def number (n : Nat) : String := toString n

/-- `QString::toUInt`: the value of a decimal text that fits, otherwise zero. -/
def toUInt (s : String) : Nat :=
  if s.toList.all Char.isDigit && decide (Nat.ofDigitChars 10 s.toList 0 < 2 ^ 32) then
    Nat.ofDigitChars 10 s.toList 0 else 0

theorem toList_number (n : Nat) : (number n).toList = Nat.toDigits 10 n := by
  exact Nat.toList_repr

theorem toUInt_number {n : Nat} (h : n < 2 ^ 32) : toUInt (number n) = n := by
  have hdigits : (Nat.toDigits 10 n).all Char.isDigit = true :=
    List.all_eq_true.mpr fun c hc => Nat.isDigit_of_mem_toDigits (by decide) (by decide) hc
  rw [toUInt, toList_number, hdigits, Nat.ofDigitChars_ten_toDigits, if_pos (by simpa using h)]

theorem number_injective : Function.Injective number := by
  intro a b h
  have hdigits := congrArg String.toList h
  rw [toList_number, toList_number] at hdigits
  rw [← Nat.ofDigitChars_ten_toDigits (n := a), hdigits, Nat.ofDigitChars_ten_toDigits]

end QString

end ArmOd
