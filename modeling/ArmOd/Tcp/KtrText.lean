import ArmOd.Qt.Decimal
import ArmOd.Tcp.TcpKTRCoder

/-!
# The position texts of KTR

A position text is a line of fields: the id of the object, the number of points and the points, each
a pair of angles in braces. Its parts are structures here that hold their digits with the proof that
they are digits, and what `parseLocationFromKTR` makes of a text is told part by part. The count is
trusted up to two; a greater one stands for one point.
-/

namespace ArmOd

/-- A text of digits. -/
structure Digits where
  text : Text
  ne_nil : text ≠ []
  isDigit : ∀ c ∈ text, c.isDigit

/-- A decimal number, with or without a point. -/
structure DecimalNumber where
  whole : Text
  frac : Option Text
  ne_nil : whole ++ frac.getD [] ≠ []
  isDigit : ∀ c ∈ whole ++ frac.getD [], c.isDigit

/-- An angle `deg*min'sec"`. -/
structure KtrAngle where
  deg : Digits
  min : Digits
  sec : DecimalNumber

structure KtrPoint where
  latitude : KtrAngle
  longitude : KtrAngle

namespace Digits

def value (d : Digits) : Nat := Nat.ofDigitChars 10 d.text 0

theorem decimal_text (d : Digits) : Text.decimal d.text = .fin d.value :=
  Text.decimal_of_isDigit d.ne_nil d.isDigit

end Digits

namespace DecimalNumber

def text (d : DecimalNumber) : Text :=
  match d.frac with
  | none => d.whole
  | some frac => d.whole ++ '.' :: frac

def value (d : DecimalNumber) : ℚ :=
  Nat.ofDigitChars 10 (d.whole ++ d.frac.getD []) 0 / 10 ^ (d.frac.getD []).length

theorem decimal_text (d : DecimalNumber) : Text.decimal d.text = .fin d.value := by
  obtain ⟨whole, frac, hne, hdigit⟩ := d
  cases frac with
  | none =>
      rw [Option.getD_none, List.append_nil] at hne hdigit
      simp [text, value, Text.decimal_of_isDigit hne hdigit]
  | some frac =>
      exact Text.decimal_point hne (fun c hc => hdigit c (List.mem_append_left _ hc))
        fun c hc => hdigit c (List.mem_append_right _ hc)

theorem mem_text {d : DecimalNumber} {c : Char} (hc : c ∈ d.text) : c.isDigit ∨ c = '.' := by
  obtain ⟨whole, frac, hne, hdigit⟩ := d
  cases frac with
  | none => exact Or.inl (hdigit c (List.mem_append_left _ hc))
  | some frac =>
      rcases List.mem_append.mp hc with hwhole | hrest
      · exact Or.inl (hdigit c (List.mem_append_left _ hwhole))
      · rcases List.mem_cons.mp hrest with rfl | hfrac
        · exact Or.inr rfl
        · exact Or.inl (hdigit c (List.mem_append_right _ hfrac))

end DecimalNumber

namespace KtrAngle

def text (a : KtrAngle) : Text :=
  a.deg.text ++ '*' :: (a.min.text ++ '\'' :: (a.sec.text ++ ['"']))

def value (a : KtrAngle) : ℚ := a.deg.value + (a.min.value + a.sec.value / 60) / 60

end KtrAngle

namespace KtrPoint

/-- The pair of angles between the braces. -/
def inner (p : KtrPoint) : Text := p.latitude.text ++ '|' :: p.longitude.text

/-- The `i`th field of points. -/
def field (i : Nat) (p : KtrPoint) : Text :=
  'P' :: (Nat.toDigits 10 i ++ '=' :: '{' :: (p.inner ++ ['}']))

end KtrPoint

namespace TcpKTRCoder

/-- The fields of a position text. -/
def ktrFields (id count : Digits) (points : List KtrPoint) : List Text :=
  ("OBJ_ID=".toList ++ id.text) :: (count.text ++ ['X']) :: points.mapIdx KtrPoint.field

/-- `$KTPGA,OBJ_ID=<id>,<count>X,P0=...,END`. -/
def ktrText (id count : Digits) (points : List KtrPoint) : Text :=
  KTPGA ++ ((ktrFields id count points).flatMap (fun field => field ++ [',']) ++ "END".toList)

/-! ### The characters of a text -/

/-- The characters of a field that are no digits. -/
def marks : Text :=
  ['O', 'B', 'J', '_', 'I', 'D', '=', 'X', 'P', '{', '|', '}', '*', '\'', '"', '.']

/-- The marks inside of an angle. -/
def angleMarks : Text := ['*', '\'', '"', '.']

variable {id count : Digits} {points : List KtrPoint} {c : Char}

theorem mem_angle {a : KtrAngle} (hc : c ∈ a.text) : c.isDigit ∨ c ∈ angleMarks := by
  simp only [KtrAngle.text, List.mem_append, List.mem_cons, List.not_mem_nil, or_false] at hc
  rcases hc with h | rfl | h | rfl | h | rfl
  · exact Or.inl (a.deg.isDigit c h)
  · exact Or.inr (by decide)
  · exact Or.inl (a.min.isDigit c h)
  · exact Or.inr (by decide)
  · rcases DecimalNumber.mem_text h with h | rfl
    · exact Or.inl h
    · exact Or.inr (by decide)
  · exact Or.inr (by decide)

theorem notMem_angle {a : KtrAngle} (hdigit : ¬c.isDigit) (hmark : c ∉ angleMarks) :
    c ∉ a.text :=
  fun hc => (mem_angle hc).elim hdigit hmark

theorem mem_field {i : Nat} {p : KtrPoint} (hc : c ∈ p.field i) : c.isDigit ∨ c ∈ marks := by
  have hmarks : ∀ c ∈ angleMarks, c ∈ marks := by simp [angleMarks, marks]
  have hangle : c.isDigit ∨ c ∈ angleMarks → c.isDigit ∨ c ∈ marks := Or.imp_right (hmarks c)
  simp only [KtrPoint.field, KtrPoint.inner, List.mem_append, List.mem_cons, List.not_mem_nil,
    or_false] at hc
  rcases hc with rfl | h | rfl | rfl | (h | rfl | h) | rfl
  · exact Or.inr (by decide)
  · exact Or.inl (Text.isDigit_of_mem_toDigits c h)
  · exact Or.inr (by decide)
  · exact Or.inr (by decide)
  · exact hangle (mem_angle h)
  · exact Or.inr (by decide)
  · exact hangle (mem_angle h)
  · exact Or.inr (by decide)

theorem mem_ktrFields {f : Text} (hf : f ∈ ktrFields id count points) (hc : c ∈ f) :
    c.isDigit ∨ c ∈ marks := by
  have hname : "OBJ_ID=".toList = ['O', 'B', 'J', '_', 'I', 'D', '='] := by decide +kernel
  have hmarks : ∀ c ∈ "OBJ_ID=".toList, c ∈ marks := by simp [hname, marks]
  rcases List.mem_cons.mp hf with rfl | hf
  · rcases List.mem_append.mp hc with h | h
    · exact Or.inr (hmarks c h)
    · exact Or.inl (id.isDigit c h)
  · rcases List.mem_cons.mp hf with rfl | hf
    · rcases List.mem_append.mp hc with h | h
      · exact Or.inl (count.isDigit c h)
      · rw [List.mem_singleton.mp h]
        exact Or.inr (by decide)
    · obtain ⟨i, hi, rfl⟩ := List.mem_mapIdx.mp hf
      exact mem_field hc

theorem notMem_ktrFields {f : Text} (hf : f ∈ ktrFields id count points) (hdigit : ¬c.isDigit)
    (hmark : c ∉ marks) : c ∉ f :=
  fun hc => (mem_ktrFields hf hc).elim hdigit hmark

theorem mem_body (hc : c ∈ (ktrFields id count points).flatMap (fun field => field ++ [','])) :
    c.isDigit ∨ c ∈ ',' :: marks := by
  obtain ⟨f, hf, hc⟩ := List.mem_flatMap.mp hc
  rcases List.mem_append.mp hc with h | h
  · exact (mem_ktrFields hf h).imp_right (List.mem_cons_of_mem _)
  · rw [List.mem_singleton.mp h]
    exact Or.inr List.mem_cons_self

theorem isPlain_ktrText : IsPlain (ktrText id count points) := by
  have hfront : IsPlain KTPGA := by decide +kernel
  have hend : IsPlain "END".toList := by decide +kernel
  have hmarks : IsPlain (',' :: marks) := by decide +kernel
  intro c hc
  rcases List.mem_append.mp hc with h | h
  · exact hfront c h
  · rcases List.mem_append.mp h with h | h
    · rcases mem_body h with hdigit | hmark
      · rw [Char.isDigit, Bool.and_eq_true, decide_eq_true_eq, decide_eq_true_eq] at hdigit
        have hlow : 48 ≤ c.toNat := hdigit.1
        have hhigh : c.toNat ≤ 57 := hdigit.2
        exact ⟨by omega, by omega⟩
      · exact hmarks c hmark
    · exact hend c h

/-! ### Taking a text apart -/

theorem split_fields {fields : List Text} (h : ∀ f ∈ fields, ',' ∉ f) :
    Text.split [','] (fields.flatMap fun field => field ++ [',']) = fields ++ [[]] := by
  induction fields with
  | nil => rfl
  | cons f fields ih =>
      rw [List.flatMap_cons, List.append_assoc, Text.split_append (h f List.mem_cons_self),
        ih fun f' hf' => h f' (List.mem_cons_of_mem f hf'), List.cons_append]

theorem split_KTPGA : Text.split KTPGA (ktrText id count points) =
    [[], (ktrFields id count points).flatMap (fun field => field ++ [',']) ++ "END".toList] := by
  have hbody : '$' ∉
      (ktrFields id count points).flatMap (fun field => field ++ [',']) ++ "END".toList := by
    intro hc
    rcases List.mem_append.mp hc with h | h
    · exact (mem_body h).elim (by decide) (by decide)
    · exact absurd h (by decide +kernel)
  have hmark : KTPGA = '$' :: "KTPGA,".toList := by decide +kernel
  have hrest : Text.split ('$' :: "KTPGA,".toList) _ = [_] := Text.split_of_notMem hbody
  rw [ktrText, hmark, ← hrest]
  exact Text.split_append List.not_mem_nil _

theorem split_END : Text.split "END".toList
    ((ktrFields id count points).flatMap (fun field => field ++ [',']) ++ "END".toList) =
      [(ktrFields id count points).flatMap (fun field => field ++ [',']), []] := by
  have hbody : 'E' ∉ (ktrFields id count points).flatMap (fun field => field ++ [',']) :=
    fun hc => (mem_body hc).elim (by decide) (by decide)
  have hmark : "END".toList = 'E' :: "ND".toList := by decide +kernel
  rw [hmark]
  exact Text.split_append hbody []

theorem textAngle_text (a : KtrAngle) {seconds : Text → Text}
    (hseconds : seconds (a.sec.text ++ ['"']) = a.sec.text) :
    textAngle .exact seconds a.text = some (.fin a.value) := by
  have hquote : '\'' ∉ a.sec.text ++ ['"'] := by
    intro hc
    rcases List.mem_append.mp hc with h | h
    · exact (DecimalNumber.mem_text h).elim (by decide) (by decide)
    · exact absurd h (by decide)
  have hstar : '*' ∉ a.min.text ++ '\'' :: (a.sec.text ++ ['"']) := by
    intro hc
    simp only [List.mem_append, List.mem_cons, List.not_mem_nil, or_false] at hc
    rcases hc with h | h | h | h
    · exact Text.notMem_of_isDigit a.min.isDigit (by decide) h
    · exact absurd h (by decide)
    · exact (DecimalNumber.mem_text h).elim (by decide) (by decide)
    · exact absurd h (by decide)
  have hdeg : Text.split ['*'] a.text =
      [a.deg.text, a.min.text ++ '\'' :: (a.sec.text ++ ['"'])] := by
    rw [KtrAngle.text, ← Text.split_of_notMem hstar]
    exact Text.split_append (Text.notMem_of_isDigit a.deg.isDigit (by decide)) _
  have hrest : Text.split ['\''] (a.sec.text ++ ['"']) = [a.sec.text ++ ['"']] :=
    Text.split_of_notMem hquote
  have hmin : Text.split ['\''] (a.min.text ++ '\'' :: (a.sec.text ++ ['"'])) =
      [a.min.text, a.sec.text ++ ['"']] := by
    rw [← hrest]
    exact Text.split_append (Text.notMem_of_isDigit a.min.isDigit (by decide)) _
  have hdouble : ∀ text, Numerics.exact.toDouble text = Text.decimal text := fun _ => rfl
  have hdiv : ∀ q : ℚ, Numerics.exact.div (.fin q) (Numerics.exact.ofRat 60) = .fin (q / 60) := by
    intro q
    have hsixty : (60 : ℚ) ≠ 0 := by norm_num
    simp only [Numerics.exact, if_neg hsixty]
  simp only [textAngle, hdeg, hmin, hrest, hseconds, List.getElem?_cons_zero,
    List.getElem?_cons_succ, Option.bind_eq_bind, Option.bind_some, hdouble, Digits.decimal_text,
    DecimalNumber.decimal_text, hdiv]
  change some (Double.fin ((a.sec.value / 60 + a.min.value) / 60 + a.deg.value)) = _
  rw [KtrAngle.value, add_comm (a.sec.value / 60), add_comm _ (a.deg.value : ℚ)]

theorem remove_last {text : Text} (h : c ∉ text) : Text.remove [c] (text ++ [c]) = text := by
  have hsplit : Text.split [c] (text ++ [c]) = [text, []] := Text.split_append h []
  rw [Text.remove, hsplit, List.flatten_cons, List.flatten_cons, List.flatten_nil,
    List.append_nil, List.append_nil]

/-- The record of a point. -/
def located (fresh : Fresh) (p : KtrPoint) : UAVPositionData :=
  { UAVPositionData.new fresh with
    latitude := .fin p.latitude.value, longitude := .fin p.longitude.value
    sourceType := UAV_SLICES_SOURCE }

theorem textPosition_field (fresh : Fresh) (i : Nat) (p : KtrPoint) :
    textPosition .exact fresh (p.field i) = some (located fresh p) := by
  have hopen : '{' ∉ 'P' :: (Nat.toDigits 10 i ++ ['=']) := by
    intro hc
    simp only [List.mem_cons, List.mem_append, List.not_mem_nil, or_false] at hc
    rcases hc with h | h | h
    · exact absurd h (by decide)
    · exact Text.notMem_of_isDigit Text.isDigit_of_mem_toDigits (by decide) h
    · exact absurd h (by decide)
  have hinner : ∀ {c : Char}, ¬c.isDigit → c ∉ angleMarks → c ≠ '|' → c ∉ p.inner := by
    intro c hdigit hmark hbar hc
    rcases List.mem_append.mp hc with h | h
    · exact notMem_angle hdigit hmark h
    · exact (List.mem_cons.mp h).elim hbar (notMem_angle hdigit hmark)
  have hbrace : '{' ∉ p.inner ++ ['}'] := by
    intro hc
    rcases List.mem_append.mp hc with h | h
    · exact hinner (by decide) (by decide) (by decide) h
    · exact absurd h (by decide)
  have hfield : p.field i = ('P' :: (Nat.toDigits 10 i ++ ['='])) ++ ('{' :: (p.inner ++ ['}'])) := by
    simp [KtrPoint.field]
  have hsplit : Text.split ['{'] (p.field i) =
      ['P' :: (Nat.toDigits 10 i ++ ['=']), p.inner ++ ['}']] := by
    rw [hfield, ← Text.split_of_notMem hbrace]
    exact Text.split_append hopen _
  have hremove : Text.remove ['}'] (p.inner ++ ['}']) = p.inner :=
    remove_last (hinner (by decide) (by decide) (by decide))
  have hmark : ∀ d : DecimalNumber, '"' ∉ d.text := fun d hc =>
    (DecimalNumber.mem_text hc).elim (by decide) (by decide)
  have hbars : Text.split ['|'] p.inner = [p.latitude.text, p.longitude.text] := by
    rw [← Text.split_of_notMem (notMem_angle (by decide) (by decide) : '|' ∉ p.longitude.text)]
    exact Text.split_append (notMem_angle (by decide) (by decide)) _
  simp only [textPosition, hsplit, hremove, hbars, List.getElem?_cons_zero,
    List.getElem?_cons_succ, Option.bind_eq_bind, Option.bind_some,
    textAngle_text p.latitude (remove_last (hmark p.latitude.sec)),
    textAngle_text p.longitude List.dropLast_concat]
  rfl

/-! ### Whole texts -/

/-- The number of points that are read for a count. -/
def pointsRead (n : Nat) : Nat := if n ≤ 2 then n else 1

/-- A record is where the point of the text is, and comes from the slices. -/
structure IsAt (record : UAVPositionData) (p : KtrPoint) : Prop where
  latitude : record.latitude = .fin p.latitude.value
  longitude : record.longitude = .fin p.longitude.value
  sourceType : record.sourceType = UAV_SLICES_SOURCE

theorem count_points {n : Nat} (hn : n < 2 ^ 31) (hvalue : count.value = n) :
    Text.toInt (Text.left (count.text ++ ['X']) ((count.text ++ ['X']).length - 1)) = n := by
  have hlength : ((count.text ++ ['X']).length : Int) - 1 = count.text.length := by
    rw [List.length_append, List.length_singleton]
    omega
  rw [hlength, Text.left_append rfl, Text.toInt_of_isDigit count.ne_nil count.isDigit]
  rw [Digits.value] at hvalue
  rw [hvalue, if_pos hn]

theorem toNat_pointsRead (n : Nat) :
    (if (n : Int) > 2 then 1 else (n : Int)).toNat = pointsRead n := by
  rw [pointsRead]
  split
  · rw [if_neg (by omega)]
    rfl
  · rw [if_pos (by omega), Int.toNat_natCast]

/-- The records of the points that are read, as they are in the vector. -/
def records (fresh copied : Nat → Fresh) (n : Nat) (points : List KtrPoint) :
    List UAVPositionData :=
  (points.take (pointsRead n)).mapIdx fun i p => (located (fresh i) p).copy (copied i)

variable {n : Nat}

theorem isAt_records (fresh copied : Nat → Fresh) : List.Forall₂ IsAt (records fresh copied n points)
    (points.take (pointsRead n)) := by
  refine List.forall₂_iff_get.mpr ⟨List.length_mapIdx, fun i hi hi' => ?_⟩
  rw [List.get_eq_getElem, List.get_eq_getElem]
  simp only [records, List.getElem_mapIdx]
  exact ⟨rfl, rfl, rfl⟩

theorem length_records (fresh copied : Nat → Fresh) (hpoints : pointsRead n ≤ points.length) :
    (records fresh copied n points).length = pointsRead n := by
  rw [records, List.length_mapIdx, List.length_take, min_eq_left hpoints]

/-- The field two places behind an index is the point of the index. -/
theorem getElem?_records (fresh copied : Nat → Fresh) (id count : Digits)
    (hpoints : pointsRead n ≤ points.length) {i : Nat} (hi : i < pointsRead n) :
    ((ktrFields id count points ++ [[]])[i + 2]?.bind fun f =>
      (textPosition .exact (fresh i) f).bind fun position => pure (position.copy (copied i))) =
      (records fresh copied n points)[i]? := by
  have hlt : i < points.length := by omega
  have hget : (ktrFields id count points ++ [[]])[i + 2]? = some (points[i].field i) := by
    rw [ktrFields, List.cons_append, List.cons_append, List.getElem?_cons_succ,
      List.getElem?_cons_succ, List.getElem?_append_left (by rwa [List.length_mapIdx]),
      List.getElem?_mapIdx, List.getElem?_eq_getElem hlt, Option.map_some]
  rw [hget, Option.bind_some, textPosition_field, Option.bind_some, records, List.getElem?_mapIdx,
    List.getElem?_take, if_pos hi, List.getElem?_eq_getElem hlt]
  rfl

/-- **Position texts.** A text of one or two points is read as these points, in order; a text that
announces more is read as its first point. -/
theorem parseLocationFromKTR_ktrText (fresh copied : Nat → Fresh) (id count : Digits)
    (points : List KtrPoint) (hlt : count.value < 2 ^ 31)
    (hpoints : pointsRead count.value ≤ points.length) :
    ∃ records, parseLocationFromKTR .exact fresh copied (toAscii (ktrText id count points)) =
        some { type := TCP_KTR_ANSWER_BPLA, data := UAVPositionData.putVector records } ∧
      List.Forall₂ IsAt records (points.take (pointsRead count.value)) := by
  have hfields : Text.split [','] ((ktrFields id count points).flatMap fun field => field ++ [',']) =
      ktrFields id count points ++ [[]] :=
    split_fields fun f hf => notMem_ktrFields hf (by decide) (by decide)
  have hcount : (ktrFields id count points ++ [[]])[1]? = some (count.text ++ ['X']) := rfl
  have hlength := length_records fresh copied hpoints
  have hrecords := mapM_range_of_getElem? fun i hi =>
    getElem?_records fresh copied id count hpoints (hlength ▸ hi)
  rw [hlength] at hrecords
  refine ⟨records fresh copied count.value points, ?_, isAt_records fresh copied⟩
  simp only [parseLocationFromKTR, textOfBytes_toAscii isPlain_ktrText, split_KTPGA, split_END,
    hfields, List.getElem?_cons_zero, List.getElem?_cons_succ, Option.bind_eq_bind,
    Option.bind_some, hcount, count_points hlt rfl, toNat_pointsRead]
  rw [hrecords]
  rfl

/-- A number of seconds with two places. -/
def hundredths (n : Nat) : DecimalNumber where
  whole := Nat.toDigits 10 (n / 100)
  frac := some (Text.padded 2 (n % 100))
  ne_nil := List.append_ne_nil_of_left_ne_nil Nat.toDigits_ne_nil _
  isDigit := fun c hc => (List.mem_append.mp hc).elim (Text.isDigit_of_mem_toDigits c)
    (Text.isDigit_of_mem_padded c)

def digits (n : Nat) : Digits := ⟨Nat.toDigits 10 n, Nat.toDigits_ne_nil, Text.isDigit_of_mem_toDigits⟩

theorem value_digits (n : Nat) : (digits n).value = n := Nat.ofDigitChars_ten_toDigits

/-- The points of `{42*28'51.19"|41*33'45.65"}` and of `{43*28'51.19"|42*33'45.65"}`. -/
def twoPoints : List KtrPoint :=
  [⟨⟨digits 42, digits 28, hundredths 5119⟩, ⟨digits 41, digits 33, hundredths 4565⟩⟩,
    ⟨⟨digits 43, digits 28, hundredths 5119⟩, ⟨digits 42, digits 33, hundredths 4565⟩⟩]

/-- Zeros in memory. -/
def zeroMemory : Nat → Fresh := fun _ => ⟨⟨0, 0⟩, 0, 0⟩

theorem parseLocationFromKTR_twoPoints :
    ∃ records, parseLocationFromKTR .exact zeroMemory zeroMemory
        (toAscii (ktrText (digits 10187) (digits 2) twoPoints)) =
        some { type := TCP_KTR_ANSWER_BPLA, data := UAVPositionData.putVector records } ∧
      List.Forall₂ IsAt records twoPoints := by
  have hcount : pointsRead (digits 2).value = 2 := by
    rw [value_digits]
    rfl
  have hread := parseLocationFromKTR_ktrText zeroMemory zeroMemory (digits 10187) (digits 2)
    twoPoints (by rw [value_digits]; decide) (by rw [hcount]; decide)
  rwa [hcount] at hread

end TcpKTRCoder

end ArmOd
