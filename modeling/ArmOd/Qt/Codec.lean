import ArmOd.Qt.Text

/-!
# The texts of bytes

The server sets the codec of its `QString` constructors to UTF-8, and what is no character becomes a
replacement character; the simulators set none, and every byte is a character. The texts the
programs look for are ASCII: wherever a decoded text holds one, the bytes hold it too.
-/

namespace ArmOd

def replacementCharacter : Char := '\uFFFD'

/-- The bytes that belong behind the first byte of a character. -/
def continuations (lead : UInt8) : Nat :=
  if lead < 0xc0 then 0 else if lead < 0xe0 then 1 else if lead < 0xf0 then 2
  else if lead < 0xf8 then 3 else 0

def isContinuation (b : UInt8) : Bool := decide (0x80 ≤ b ∧ b < 0xc0)

/-- The smallest code point of a character with so many bytes behind its first. -/
def leastCodePoint : Nat → Nat
  | 0 => 0
  | 1 => 0x80
  | 2 => 0x800
  | _ => 0x10000

def isNonCharacter (n : Nat) : Bool :=
  decide (0xfdd0 ≤ n ∧ n ≤ 0xfdef ∨ n % 0x10000 = 0xfffe ∨ n % 0x10000 = 0xffff)

/-- The two surrogates of a character that takes two units are not told apart. -/
def ofCodePoint (least n : Nat) : Text :=
  if n < least ∨ 0x110000 ≤ n ∨ (0xd800 ≤ n ∧ n < 0xe000) ∨ isNonCharacter n then
    [replacementCharacter]
  else if 0x10000 ≤ n then [replacementCharacter, replacementCharacter]
  else [Char.ofNat n]

/-- The characters of the bytes; `skip` bytes of a character are still to be passed. -/
def decodeUtf8 : Nat → List UInt8 → Text
  | _, [] => []
  | skip + 1, _ :: rest => decodeUtf8 skip rest
  | 0, lead :: rest =>
    let further := continuations lead
    let behind := rest.take further
    if lead < 0x80 then Char.ofNat lead.toNat :: decodeUtf8 0 rest
    else if further ≠ 0 ∧ behind.length = further ∧ behind.all isContinuation then
      ofCodePoint (leastCodePoint further)
          (behind.foldl (fun n b => n * 64 + b.toNat % 64) (lead.toNat % 2 ^ (6 - further))) ++
        decodeUtf8 further rest
    else replacementCharacter :: decodeUtf8 0 rest

def byteOrderMark : List UInt8 := [0xef, 0xbb, 0xbf]

/-- `QString( data.constData() )`: the text of the bytes before the first zero byte. -/
def textOfBytes (data : List UInt8) : Text :=
  let bytes := data.takeWhile fun b => b ≠ 0
  decodeUtf8 0 (if byteOrderMark.isPrefixOf bytes then bytes.drop 3 else bytes)

/-- The text of the bytes before the first zero byte where no codec is set. -/
def latin1OfBytes (data : List UInt8) : Text :=
  (data.takeWhile fun b => b ≠ 0).map fun b => Char.ofNat b.toNat

/-! ### ASCII texts -/

/-- `toAscii`, of a text of ASCII characters. -/
def toAscii (text : Text) : List UInt8 := text.map fun c => UInt8.ofNat c.toNat

def IsAscii (text : Text) : Prop := ∀ c ∈ text, c.toNat < 0x80

instance : DecidablePred IsAscii := fun text =>
  decidable_of_iff (text.all fun c => c.toNat < 0x80) (by simp [IsAscii])

variable {text sub : Text} {bytes : List UInt8} {c : Char}

theorem toNat_ofNat {n : Nat} (h : n.isValidChar) : (Char.ofNat n).toNat = n := by
  rw [Char.ofNat, dif_pos h]
  rfl

theorem toNat_ofNat_uint8 (b : UInt8) : (Char.ofNat b.toNat).toNat = b.toNat := by
  have hlt := b.toNat_lt
  exact toNat_ofNat (Or.inl (by omega))

theorem not_ascii_replacementCharacter : ¬ replacementCharacter.toNat < 0x80 := by decide

theorem not_ascii_ofCodePoint {least n : Nat} (hleast : 0x80 ≤ least) :
    ∀ c ∈ ofCodePoint least n, ¬ c.toNat < 0x80 := by
  intro c hc
  rw [ofCodePoint] at hc
  split at hc
  · rw [List.mem_singleton.mp hc]
    exact not_ascii_replacementCharacter
  · rename_i hvalid
    simp only [not_or, not_lt, not_le, not_and] at hvalid
    split at hc
    · simp only [List.mem_cons, List.not_mem_nil, or_false, or_self] at hc
      rw [hc]
      exact not_ascii_replacementCharacter
    · have hchar : n.isValidChar := by
        rw [Nat.isValidChar]
        omega
      rw [List.mem_singleton.mp hc, toNat_ofNat hchar]
      omega

theorem leastCodePoint_pos {further : Nat} (h : further ≠ 0) : 0x80 ≤ leastCodePoint further := by
  match further with
  | 1 | 2 | n + 3 => simp [leastCodePoint]

theorem ofCodePoint_ne_nil (least n : Nat) : ofCodePoint least n ≠ [] := by
  rw [ofCodePoint]
  split
  · exact List.cons_ne_nil _ _
  · split <;> exact List.cons_ne_nil _ _

theorem exists_decodeUtf8_cons {lead : UInt8} (h : ¬ lead < 0x80) (rest : List UInt8) :
    ∃ chars skip, chars ≠ [] ∧ (∀ c ∈ chars, ¬ c.toNat < 0x80) ∧
      decodeUtf8 0 (lead :: rest) = chars ++ decodeUtf8 skip rest := by
  rw [decodeUtf8, if_neg h]
  split
  case isTrue hwhole =>
      exact ⟨_, _, ofCodePoint_ne_nil _ _, not_ascii_ofCodePoint (leastCodePoint_pos hwhole.1), rfl⟩
  case isFalse =>
      refine ⟨[replacementCharacter], 0, List.cons_ne_nil _ _, fun c hc => ?_, rfl⟩
      rw [List.mem_singleton.mp hc]
      exact not_ascii_replacementCharacter

/-- An ASCII text in front of a decoded one is in front of the bytes. -/
theorem prefix_of_prefix_decodeUtf8 (hsub : IsAscii sub) (h : sub <+: decodeUtf8 0 bytes) :
    toAscii sub <+: bytes := by
  induction sub generalizing bytes with
  | nil => exact List.nil_prefix
  | cons c sub ih =>
      match bytes with
      | [] => cases List.prefix_nil.mp h
      | lead :: rest =>
          by_cases hlead : lead < 0x80
          · rw [decodeUtf8, if_pos hlead, List.cons_prefix_cons] at h
            obtain ⟨rfl, htail⟩ := h
            have hrest := ih (fun c hc => hsub c (List.mem_cons_of_mem _ hc)) htail
            rw [toAscii, List.map_cons, toNat_ofNat_uint8, UInt8.ofNat_toNat]
            exact List.cons_prefix_cons.mpr ⟨rfl, hrest⟩
          · obtain ⟨chars, skip, hne, hchars, hdecode⟩ := exists_decodeUtf8_cons hlead rest
            obtain ⟨x, chars, rfl⟩ := List.exists_cons_of_ne_nil hne
            rw [hdecode, List.cons_append, List.cons_prefix_cons] at h
            exact absurd (hsub c List.mem_cons_self) (h.1 ▸ hchars x List.mem_cons_self)

theorem infix_of_infix_append {chars : Text} (hsub : IsAscii sub) (hne : sub ≠ [])
    (hchars : ∀ c ∈ chars, ¬ c.toNat < 0x80) (h : sub <:+: chars ++ text) : sub <:+: text := by
  induction chars with
  | nil => exact h
  | cons x chars ih =>
      rcases List.infix_cons_iff.mp h with hfront | hinner
      · obtain ⟨c, sub, rfl⟩ := List.exists_cons_of_ne_nil hne
        have hc := hsub c List.mem_cons_self
        rw [(List.cons_prefix_cons.mp hfront).1] at hc
        exact absurd hc (hchars x List.mem_cons_self)
      · exact ih (fun c hc => hchars c (List.mem_cons_of_mem _ hc)) hinner

/-- **Where a decoded text holds an ASCII text, the bytes hold it.** -/
theorem infix_of_infix_decodeUtf8 (hsub : IsAscii sub) (hne : sub ≠ []) (skip : Nat)
    (h : sub <:+: decodeUtf8 skip bytes) : toAscii sub <:+: bytes := by
  induction bytes generalizing skip with
  | nil =>
      rw [decodeUtf8] at h
      exact absurd (List.infix_nil.mp h) hne
  | cons lead rest ih =>
      refine List.infix_cons_iff.mpr ?_
      cases skip with
      | succ skip => exact Or.inr (ih skip h)
      | zero =>
          by_cases hlead : lead < 0x80
          · rw [decodeUtf8, if_pos hlead] at h
            rcases List.infix_cons_iff.mp h with hfront | hinner
            · refine Or.inl (prefix_of_prefix_decodeUtf8 hsub ?_)
              rwa [decodeUtf8, if_pos hlead]
            · exact Or.inr (ih 0 hinner)
          · obtain ⟨chars, skip, -, hchars, hdecode⟩ := exists_decodeUtf8_cons hlead rest
            rw [hdecode] at h
            exact Or.inr (ih skip (infix_of_infix_append hsub hne hchars h))

theorem infix_of_infix_textOfBytes (hsub : IsAscii sub) (hne : sub ≠ [])
    (h : sub <:+: textOfBytes bytes) : toAscii sub <:+: bytes := by
  have htake : bytes.takeWhile (fun b => b ≠ 0) <:+: bytes :=
    (List.takeWhile_prefix _).isInfix
  rw [textOfBytes] at h
  have hbytes := infix_of_infix_decodeUtf8 hsub hne 0 h
  split at hbytes
  · exact hbytes.trans ((List.drop_suffix 3 _).isInfix.trans htake)
  · exact hbytes.trans htake

/-! ### Where no codec is set -/

/-- A text of ASCII characters but the zero. -/
def IsPlain (text : Text) : Prop := ∀ c ∈ text, 0 < c.toNat ∧ c.toNat < 0x80

instance : DecidablePred IsPlain := fun text =>
  decidable_of_iff (text.all fun c => 0 < c.toNat ∧ c.toNat < 0x80) (by simp [IsPlain])

theorem decodeUtf8_toAscii (h : IsPlain text) : decodeUtf8 0 (toAscii text) = text := by
  induction text with
  | nil => rfl
  | cons c text ih =>
      have hchar := h c List.mem_cons_self
      have hnat : (UInt8.ofNat c.toNat).toNat = c.toNat := by
        rw [UInt8.toNat_ofNat']
        omega
      have hlt : UInt8.ofNat c.toNat < 0x80 := by
        rw [UInt8.lt_iff_toNat_lt, hnat]
        exact hchar.2
      change decodeUtf8 0 (UInt8.ofNat c.toNat :: toAscii text) = _
      rw [decodeUtf8, if_pos hlt, hnat, Char.ofNat_toNat, ih fun x hx => h x (List.mem_cons_of_mem c hx)]

theorem ne_zero_of_mem_toAscii (h : IsPlain text) : ∀ b ∈ toAscii text, b ≠ 0 := by
  intro b hb
  obtain ⟨c, hc, rfl⟩ := List.mem_map.mp hb
  have hchar := h c hc
  rw [ne_eq, ← UInt8.toNat_inj, UInt8.toNat_ofNat']
  change ¬ c.toNat % 2 ^ 8 = 0
  omega

theorem textOfBytes_toAscii (h : IsPlain text) : textOfBytes (toAscii text) = text := by
  have hbytes : (toAscii text).takeWhile (fun b => b ≠ 0) = toAscii text :=
    List.takeWhile_eq_self_iff.mpr fun b hb => decide_eq_true (ne_zero_of_mem_toAscii h b hb)
  have hmark : ¬byteOrderMark.isPrefixOf (toAscii text) = true := by
    intro hprefix
    have hmem : (0xef : UInt8) ∈ toAscii text :=
      (List.isPrefixOf_iff_prefix.mp hprefix).subset List.mem_cons_self
    obtain ⟨c, hc, heq⟩ := List.mem_map.mp hmem
    have hchar := h c hc
    have hnat := congrArg UInt8.toNat heq
    rw [UInt8.toNat_ofNat'] at hnat
    change c.toNat % 2 ^ 8 = 239 at hnat
    omega
  rw [textOfBytes, hbytes, if_neg hmark, decodeUtf8_toAscii h]

theorem latin1OfBytes_append_of_ne_zero {front : List UInt8} (h : ∀ b ∈ front, b ≠ 0)
    (rest : List UInt8) : latin1OfBytes (front ++ rest) = latin1OfBytes front ++ latin1OfBytes rest := by
  have hpos : ∀ b ∈ front, decide (b ≠ 0) = true := fun b hb => decide_eq_true (h b hb)
  have hfront : front.takeWhile (fun b => b ≠ 0) = front := List.takeWhile_eq_self_iff.mpr hpos
  simp only [latin1OfBytes, List.takeWhile_append_of_pos hpos, List.map_append, hfront]

theorem latin1OfBytes_append (h : IsPlain text) (rest : List UInt8) :
    latin1OfBytes (toAscii text ++ rest) = text ++ latin1OfBytes rest := by
  have hne := ne_zero_of_mem_toAscii h
  have hback : (toAscii text).map (fun b => Char.ofNat b.toNat) = text := by
    rw [toAscii, List.map_map]
    refine (List.map_congr_left fun c hc => ?_).trans (List.map_id text)
    have hlt : c.toNat < 256 := (h c hc).2.trans (by decide)
    rw [Function.comp_apply, UInt8.toNat_ofNat', Nat.mod_eq_of_lt hlt, Char.ofNat_toNat]
    rfl
  rw [latin1OfBytes_append_of_ne_zero hne, latin1OfBytes, List.takeWhile_eq_self_iff.mpr
    fun b hb => decide_eq_true (hne b hb), hback]

theorem prefix_of_prefix_latin1 (h : text <+: latin1OfBytes bytes) : toAscii text <+: bytes := by
  have hmap := h.map fun c => UInt8.ofNat c.toNat
  have hback : (latin1OfBytes bytes).map (fun c => UInt8.ofNat c.toNat) =
      bytes.takeWhile fun b => b ≠ 0 := by
    rw [latin1OfBytes, List.map_map]
    refine List.map_id'' (fun b => ?_) _
    rw [Function.comp_apply, toNat_ofNat_uint8, UInt8.ofNat_toNat]
  rw [hback] at hmap
  exact hmap.trans (List.takeWhile_prefix _)

end ArmOd
