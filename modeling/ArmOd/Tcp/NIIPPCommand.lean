import ArmOd.Qt.Decimal
import ArmOd.Tcp.TcpNIIPPCoder

/-!
# The angles of a NIIPP command

`TcpNIIPPCoder::decode` writes a command as one line of fields. Four of them are angles, in whole
degrees followed by two digits of minutes and two of seconds; `angle`, the reader of the answers,
takes such a text apart from its end. Whatever is cut off, minutes or seconds, is cut off towards
zero, so that the text names the last whole second that is not past the angle.
-/

namespace ArmOd

/-- The arithmetic of the coder, with the operations that only the commands need. -/
structure CommandNumerics extends Numerics where
  sub : Double → Double → Double
  /-- `QString::number( x, 'f', 6 )`. -/
  numberFixed : Double → Text

/-- `QDate::toString( "ddMMyy" )`, `QTime::toString( "HHmmss" )` and `QString::toLocal8Bit`. -/
structure CommandTexts where
  dateText : Int → Text
  timeText : QTime → Text
  toLocal8Bit : Text → List UInt8

def TCP_NIIPP_REQUEST_PBLA : String := "tcpNiippRequestBpla"

namespace TcpNIIPPCoder

/-- `QString::number`, with a zero in front of a single character. -/
def twoDigits (n : Int) : Text :=
  let text := Text.number n
  if text.length < 2 then '0' :: text else text

/-- The text of one of the four angles. -/
def angleText (fp : CommandNumerics) (x : Double) : Option Text :=
  if x = 0 then some "000000".toList
  else do
    let lat := fp.numberFixed x
    let lat_deg ← (Text.split ['.'] lat)[0]?
    let lat_min1 := fp.sub (fp.toDouble lat) (fp.toDouble lat_deg)
    let lat_min_final := fp.mul lat_min1 (fp.ofRat 60)
    let lat_min_final1 := lat_min_final.toInt
    let lat_sec1 := fp.mul (fp.sub lat_min_final (fp.ofRat lat_min_final1)) (fp.ofRat 60)
    let lat_sec2 := lat_sec1.toInt
    return lat_deg ++ twoDigits lat_min_final1 ++ twoDigits lat_sec2

/-- The list that `decode` fills. -/
def commandFields (fp : CommandNumerics) (texts : CommandTexts) (r : Request) :
    Option (List Text) := do
  let lat1 ← angleText fp r.point.x
  let lon1 ← angleText fp r.point.y
  let lat1_point2 ← angleText fp r.point2.x
  let lon1_point2 ← angleText fp r.point2.y
  return [texts.dateText r.date, texts.timeText r.time, r.comm.toList, lat1, r.NS.toList, lon1,
    r.EW.toList, Text.number r.alt, Text.number r.velocity_direction, Text.number r.zone,
    lat1_point2, r.NS2.toList, lon1_point2, r.EW2.toList]

def crc (data : List UInt8) : UInt8 := data.foldl (fun crc b => crc ^^^ b) 0

def prepareDataToSend (texts : CommandTexts) (list : List Text) : List UInt8 :=
  let str := [','].intercalate list
  let crc := crc (texts.toLocal8Bit str)
  texts.toLocal8Bit (str ++ ",*".toList ++ Text.number crc.toNat ++ "\\r\\n".toList)

/-- `decode`; the command is one that was written whole. -/
def decode (fp : CommandNumerics) (texts : CommandTexts) (message : Message) :
    Option (List UInt8) :=
  if message.type ≠ TCP_NIIPP_REQUEST_PBLA then some []
  else do
    let (request, _) ← readRequest.run message.data
    return prepareDataToSend texts (← commandFields fp texts request)

end TcpNIIPPCoder

/-- Arithmetic without rounding; a text with six places rounds the number to the nearest one. -/
def CommandNumerics.exact : CommandNumerics where
  toNumerics := .exact
  sub := fun | .fin a, .fin b => .fin (a - b) | _, _ => .nan
  numberFixed := fun
    | .fin q => (if q < 0 then ['-'] else []) ++ Text.fixed 6 ⌊|q| * 10 ^ 6 + 1 / 2⌋₊
    | .inf negative => if negative then "-inf".toList else "inf".toList
    | .nan => "nan".toList

namespace TcpNIIPPCoder

/-! ### Reading an angle back -/

variable {deg : Text} {d m s k : Nat}

theorem twoDigits_natCast (hm : m < 100) : twoDigits m = Text.padded 2 m := by
  rw [twoDigits, Text.number_natCast, Text.padded_eq]
  have hpos : 0 < (Nat.toDigits 10 m).length := Nat.length_toDigits_pos
  have hle : (Nat.toDigits 10 m).length ≤ 2 :=
    (Nat.length_toDigits_le_iff (by decide) (by decide)).mpr hm
  split
  · have hone : (Nat.toDigits 10 m).length = 1 := by omega
    rw [hone]
    rfl
  · have htwo : (Nat.toDigits 10 m).length = 2 := by omega
    rw [htwo]
    rfl

theorem angle_padded (hne : deg ≠ []) (hdeg : ∀ c ∈ deg, c.isDigit)
    (hd : Nat.ofDigitChars 10 deg 0 = d) (hlt : d < 2 ^ 31) (hm : m < 60) (hs : s < 60) :
    angle .exact (deg ++ Text.padded 2 m ++ Text.padded 2 s) =
      .fin (d + m / 60 + s / 3600) := by
  have hlm : (Text.padded 2 m).length = 2 := Text.length_padded (by decide) (by omega)
  have hls : (Text.padded 2 s).length = 2 := Text.length_padded (by decide) (by omega)
  have hseconds : Text.right (deg ++ Text.padded 2 m ++ Text.padded 2 s) 2 = Text.padded 2 s :=
    Text.right_append hls
  have hlast : Text.right (deg ++ Text.padded 2 m ++ Text.padded 2 s) 4 =
      Text.padded 2 m ++ Text.padded 2 s := by
    rw [List.append_assoc]
    exact Text.right_append (n := 4) (by rw [List.length_append, hlm, hls])
  have hminutes : Text.left (Text.padded 2 m ++ Text.padded 2 s) 2 = Text.padded 2 m :=
    Text.left_append hlm
  have hfront : Text.left (deg ++ Text.padded 2 m ++ Text.padded 2 s)
      ((deg ++ Text.padded 2 m ++ Text.padded 2 s).length - 4) = deg := by
    have hlength : ((deg ++ Text.padded 2 m ++ Text.padded 2 s).length : Int) - 4 = deg.length := by
      rw [List.length_append, List.length_append, hlm, hls]
      omega
    rw [hlength, List.append_assoc]
    exact Text.left_append rfl
  have hgrad : Text.toInt deg = d := by
    rw [Text.toInt_of_isDigit hne hdeg, hd, if_pos hlt]
  have hm31 : m < 2 ^ 31 := by omega
  have hs31 : s < 2 ^ 31 := by omega
  simp only [angle, hseconds, hlast, hminutes, hfront, hgrad, Text.toInt_padded hm31,
    Text.toInt_padded hs31]
  simp [Numerics.exact]

/-- The text has two digits of minutes and two of seconds, and it reads back as the last whole
second that is not past the angle. -/
structure ReadsBack (x : ℚ) (text : Text) : Prop where
  columns : ∃ deg m s, text = deg ++ Text.padded 2 m ++ Text.padded 2 s ∧
    (Text.padded 2 m).length = 2 ∧ (Text.padded 2 s).length = 2 ∧ m < 60 ∧ s < 60
  value : ∃ v, angle .exact text = .fin v ∧ x - 1 / 3600 < v ∧ v ≤ x

theorem readsBack {x : ℚ} (hne : deg ≠ []) (hdeg : ∀ c ∈ deg, c.isDigit)
    (hd : Nat.ofDigitChars 10 deg 0 = d) (hlt : d < 2 ^ 31) (hm : m < 60) (hs : s < 60)
    (hlow : x - 1 / 3600 < d + m / 60 + s / 3600) (hhigh : (d + m / 60 + s / 3600 : ℚ) ≤ x) :
    ReadsBack x (deg ++ Text.padded 2 m ++ Text.padded 2 s) where
  columns := ⟨deg, m, s, rfl, Text.length_padded (by decide) (by omega),
    Text.length_padded (by decide) (by omega), hm, hs⟩
  value := ⟨_, angle_padded hne hdeg hd hlt hm hs, hlow, hhigh⟩

/-! ### Writing an angle -/

theorem numberFixed_exact (k : Nat) :
    CommandNumerics.exact.numberFixed (.fin (k / 10 ^ 6)) = Text.fixed 6 k := by
  have hneg : ¬(k / 10 ^ 6 : ℚ) < 0 := not_lt.mpr (by positivity)
  have habs : |(k / 10 ^ 6 : ℚ)| * 10 ^ 6 + 1 / 2 = k + 1 / 2 := by
    rw [abs_of_nonneg (by positivity)]
    field_simp
  have hround : ⌊(k + 1 / 2 : ℚ)⌋₊ = k := by
    rw [Nat.floor_eq_iff (by positivity)]
    constructor
    · linarith
    · linarith
  change (if (k / 10 ^ 6 : ℚ) < 0 then ['-'] else []) ++
    Text.fixed 6 ⌊|(k / 10 ^ 6 : ℚ)| * 10 ^ 6 + 1 / 2⌋₊ = Text.fixed 6 k
  rw [if_neg hneg, habs, hround, List.nil_append]

theorem div_sub_natDiv (a : Nat) {b : Nat} (hb : 0 < b) :
    (a / b : ℚ) - (a / b : Nat) = (a % b : Nat) / b := by
  have hsplit : (b * (a / b : Nat) + (a % b : Nat) : ℚ) = a := by
    exact_mod_cast Nat.div_add_mod a b
  have hne : (b : ℚ) ≠ 0 := by
    exact_mod_cast hb.ne'
  rw [sub_eq_iff_eq_add, div_eq_iff hne, add_mul, div_mul_cancel₀ _ hne, ← hsplit]
  ring

/-- One sixtieth after the other: sixty times what is left behind the whole part. -/
theorem sixtieth_exact (a : Nat) {b : Nat} (hb : 0 < b) :
    CommandNumerics.exact.mul
      (CommandNumerics.exact.sub (.fin (a / b)) (CommandNumerics.exact.ofRat ((a / b : Nat) : Int)))
      (CommandNumerics.exact.ofRat 60) = .fin ((a % b * 60 : Nat) / b) := by
  change Double.fin (((a : ℚ) / b - (a / b : Nat)) * 60) = _
  rw [div_sub_natDiv a hb, Nat.cast_mul, Nat.cast_ofNat, div_mul_eq_mul_div]

/-- The angle `k / b`, where its text reads back as it and shows its whole part. -/
theorem angleText_div {b : Nat} {lat frac : Text} (hk : 0 < k) (hb : 0 < b)
    (hlat : CommandNumerics.exact.numberFixed (.fin (k / b)) = lat)
    (hsplit : Text.split ['.'] lat = [Nat.toDigits 10 (k / b), frac])
    (hdouble : Text.decimal lat = .fin (k / b)) :
    angleText .exact (.fin (k / b)) = some (Nat.toDigits 10 (k / b) ++
      twoDigits (k % b * 60 / b : Nat) ++ twoDigits (k % b * 60 % b * 60 / b : Nat)) := by
  have hne : Double.fin (k / b) ≠ 0 := by
    intro heq
    have hzero : (k / b : ℚ) = ((0 : Nat) : ℚ) := Double.fin.inj heq
    have hpos : (0 : ℚ) < k / b := by positivity
    rw [hzero, Nat.cast_zero] at hpos
    exact lt_irrefl _ hpos
  have hdeg : CommandNumerics.exact.toDouble (Nat.toDigits 10 (k / b)) =
      CommandNumerics.exact.ofRat ((k / b : Nat) : Int) := Text.decimal_toDigits _
  have htoDouble : CommandNumerics.exact.toDouble lat = .fin (k / b) := hdouble
  rw [angleText, if_neg hne]
  simp only [hlat, hsplit, List.getElem?_cons_zero, Option.bind_eq_bind, Option.bind_some, hdeg,
    htoDouble, sixtieth_exact _ hb, Double.toInt_div]
  rfl

theorem angleText_exact (hk : 0 < k) :
    angleText .exact (.fin (k / (10 ^ 6 : Nat))) = some (Nat.toDigits 10 (k / 10 ^ 6) ++
      Text.padded 2 (k % 10 ^ 6 * 60 / 10 ^ 6) ++
      Text.padded 2 (k % 10 ^ 6 * 60 % 10 ^ 6 * 60 / 10 ^ 6)) := by
  have hcast : ((10 ^ 6 : Nat) : ℚ) = 10 ^ 6 := Nat.cast_pow 10 6
  have hlat := numberFixed_exact k
  have hdouble : Text.decimal (Text.fixed 6 k) = .fin (k / 10 ^ 6) :=
    Text.decimal_fixed (by decide) k
  rw [← hcast] at hlat hdouble
  rw [angleText_div hk (by decide) hlat (Text.split_fixed 6 k) hdouble, twoDigits_natCast (by omega),
    twoDigits_natCast (by omega)]

/-- The seconds that the text names are the last whole ones: `t` is what they leave. -/
theorem seconds_le (k : Nat) {b : Nat} (hb : 0 < b) :
    (k / b : ℚ) - 1 / 3600 < (k / b : Nat) + (k % b * 60 / b : Nat) / 60 +
        (k % b * 60 % b * 60 / b : Nat) / 3600 ∧
      ((k / b : Nat) + (k % b * 60 / b : Nat) / 60 + (k % b * 60 % b * 60 / b : Nat) / 3600 : ℚ) ≤
        k / b := by
  have hdeg := div_sub_natDiv k hb
  have hmin := div_sub_natDiv (k % b * 60) hb
  have hsec := div_sub_natDiv (k % b * 60 % b * 60) hb
  have hpos : (0 : ℚ) < b := by exact_mod_cast hb
  have hrest : (0 : ℚ) ≤ (k % b * 60 % b * 60 % b : Nat) / b := by positivity
  have hlt : ((k % b * 60 % b * 60 % b : Nat) / b : ℚ) < 1 := by
    rw [div_lt_one hpos]
    exact_mod_cast Nat.mod_lt _ hb
  rw [Nat.cast_mul, Nat.cast_ofNat, mul_div_right_comm] at hmin hsec
  constructor
  · linarith
  · linarith

theorem readsBack_zero : ReadsBack 0 "000000".toList := by
  have htext : "000000".toList = ['0', '0'] ++ Text.padded 2 0 ++ Text.padded 2 0 := by
    decide +kernel
  have hzero : ∀ c ∈ ['0', '0'], c.isDigit := by
    simp
  have hvalue : Nat.ofDigitChars 10 ['0', '0'] 0 = 0 := rfl
  rw [htext]
  apply readsBack (by decide) hzero hvalue
  · omega
  · omega
  · omega
  · norm_num
  · norm_num

theorem exists_angleText (hk : k / 10 ^ 6 < 2 ^ 31) :
    ∃ text, angleText .exact (.fin (k / (10 ^ 6 : Nat))) = some text ∧
      ReadsBack (k / (10 ^ 6 : Nat)) text := by
  rcases Nat.eq_zero_or_pos k with rfl | hpos
  · rw [Nat.cast_zero, zero_div]
    exact ⟨"000000".toList, rfl, readsBack_zero⟩
  · obtain ⟨hlow, hhigh⟩ := seconds_le k (b := 10 ^ 6) (by decide)
    refine ⟨_, angleText_exact hpos, ?_⟩
    apply readsBack Nat.toDigits_ne_nil Text.isDigit_of_mem_toDigits Nat.ofDigitChars_ten_toDigits hk
    · omega
    · omega
    · exact hlow
    · exact hhigh

/-! ### The angles of a command -/

/-- The angles of a command, each with its place in the line. -/
def commandAngles (r : Request) : List (Nat × Double) :=
  [(3, r.point.x), (5, r.point.y), (10, r.point2.x), (12, r.point2.y)]

theorem exists_angleText_eq_some (fp : CommandNumerics) (x : Double) :
    ∃ text, angleText fp x = some text := by
  obtain ⟨deg, hdeg⟩ := Text.exists_getElem?_zero_split ['.'] (fp.numberFixed x)
  rw [angleText]
  split
  · exact ⟨_, rfl⟩
  · simp only [hdeg, Option.bind_eq_bind, Option.bind_some]
    exact ⟨_, rfl⟩

theorem exists_commandFields (fp : CommandNumerics) (texts : CommandTexts) (r : Request) :
    ∃ fields, commandFields fp texts r = some fields ∧
      ∀ place x, (place, x) ∈ commandAngles r → fields[place]? = angleText fp x := by
  obtain ⟨lat1, hlat1⟩ := exists_angleText_eq_some fp r.point.x
  obtain ⟨lon1, hlon1⟩ := exists_angleText_eq_some fp r.point.y
  obtain ⟨lat1_point2, hlat1_point2⟩ := exists_angleText_eq_some fp r.point2.x
  obtain ⟨lon1_point2, hlon1_point2⟩ := exists_angleText_eq_some fp r.point2.y
  simp only [commandFields, hlat1, hlon1, hlat1_point2, hlon1_point2, Option.bind_eq_bind,
    Option.bind_some]
  refine ⟨_, rfl, fun place x hmem => ?_⟩
  simp only [commandAngles, List.mem_cons, Prod.mk.injEq, List.not_mem_nil, or_false] at hmem
  rcases hmem with ⟨rfl, rfl⟩ | ⟨rfl, rfl⟩ | ⟨rfl, rfl⟩ | ⟨rfl, rfl⟩
  · exact hlat1.symm
  · exact hlon1.symm
  · exact hlat1_point2.symm
  · exact hlon1_point2.symm

theorem readsBack_angleText {x : ℚ} (hnonneg : 0 ≤ x) (hlt : x < 2 ^ 31)
    (hk : ∃ k : Int, x = k / 10 ^ 6) :
    ∃ text, angleText .exact (.fin x) = some text ∧ ReadsBack x text := by
  obtain ⟨k, rfl⟩ := hk
  have hmillion : (0 : ℚ) < 10 ^ 6 := by positivity
  have hknonneg : 0 ≤ k := by
    have h := (le_div_iff₀ hmillion).mp hnonneg
    rw [zero_mul] at h
    exact_mod_cast h
  obtain ⟨n, rfl⟩ := Int.eq_ofNat_of_zero_le hknonneg
  have hn : n < 2 ^ 31 * 10 ^ 6 := by
    have h := (div_lt_iff₀ hmillion).mp hlt
    exact_mod_cast h
  have htext := exists_angleText (k := n) (Nat.div_lt_of_lt_mul (by omega))
  rwa [Nat.cast_pow, Nat.cast_ofNat] at htext

/-- **The angles of a command.** The line that is sent for a command has the four angles in its
fields; the text of an angle from zero up, below `2 ^ 31` and in whole millionths, has two digits of
minutes and of seconds and reads back as the last whole second not past the angle. -/
theorem decode_angles (texts : CommandTexts) (message : Message) (r : Request)
    (rest : QByteArray) (htype : message.type = TCP_NIIPP_REQUEST_PBLA)
    (hread : readRequest.run message.data = some (r, rest)) :
    ∃ fields, commandFields .exact texts r = some fields ∧
      decode .exact texts message = some (prepareDataToSend texts fields) ∧
      ∀ (place : Nat) (x : ℚ), (place, .fin x) ∈ commandAngles r → 0 ≤ x → x < 2 ^ 31 →
        (∃ k : Int, x = k / 10 ^ 6) → ∃ text, fields[place]? = some text ∧ ReadsBack x text := by
  obtain ⟨fields, hfields, hplaces⟩ := exists_commandFields .exact texts r
  refine ⟨fields, hfields, ?_, fun place x hmem hnonneg hlt hk => ?_⟩
  · rw [decode, if_neg (not_not.mpr htype), hread]
    simp only [Option.bind_eq_bind, Option.bind_some, hfields]
    rfl
  · rw [hplaces place _ hmem]
    exact readsBack_angleText hnonneg hlt hk

/-- A command for the points 53.9, 27.566667 and 0, 30.000001. -/
def command : Message where
  type := TCP_NIIPP_REQUEST_PBLA
  data := [.int 1, .qDate 2460000, .qTime 43200000, .qString "1",
    .qPointF ⟨.fin (539 / 10), .fin (27566667 / 1000000)⟩, .qString "N", .qString "E", .int 300,
    .int 90, .int 1, .qPointF ⟨0, .fin (30000001 / 1000000)⟩, .qString "N", .qString "E"]

def plainTexts : CommandTexts where
  dateText := Text.number
  timeText := fun time => Text.number time
  toLocal8Bit := toAscii

theorem decode_angles_command : ∃ fields text,
    decode .exact plainTexts command = some (prepareDataToSend plainTexts fields) ∧
      fields[5]? = some text ∧ ReadsBack (27566667 / 1000000) text := by
  obtain ⟨fields, -, hdecode, hangles⟩ := decode_angles plainTexts command _ [] rfl rfl
  obtain ⟨text, htext, hreads⟩ := hangles 5 (27566667 / 1000000)
    (List.mem_cons_of_mem _ List.mem_cons_self) (by norm_num) (by norm_num) ⟨27566667, by norm_num⟩
  exact ⟨fields, text, hdecode, htext, hreads⟩

end TcpNIIPPCoder

end ArmOd
