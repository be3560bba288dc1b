import ArmOd.Qt.Codec
import ArmOd.Qt.QDataStream

/-!
# PlanesClient

The client of the aircraft messages. It parses what it has read at once as one message: up to ten
thousand bytes, which it copies into an array on the stack and measures with `strlen`, cut one
character behind their last comma.
-/

namespace ArmOd

/-- What the client relies on: `toDouble` with its flag, and whether a date and a time are valid. -/
structure SbsConversions where
  fp : Numerics
  isDouble : Text → Bool
  isValid : Text → Text → Bool

structure PlaneInfo where
  id_ : Text
  lat_ : Double
  lon_ : Double
  alt_ : Double
  speed_ : Double
  deriving DecidableEq, Repr

/-- The planes under their ids. -/
structure PlanesClient where
  planesInfo_ : QMap Text PlaneInfo
  keyed : ∀ (id : Text) (info : PlaneInfo), planesInfo_[id]? = some info → info.id_ = id

namespace PlanesClient

def max_len : Nat := 10000
def min_len : Nat := 10

/-- A new client. -/
def new : PlanesClient where
  planesInfo_ := ∅
  keyed id info h := by simp at h

def insert (client : PlanesClient) (info : PlaneInfo) : PlanesClient where
  planesInfo_ := client.planesInfo_.insert info.id_ info
  keyed id info' h := by
    rw [QMap.getElem?_insert] at h
    split at h
    case isTrue heq =>
        cases h
        exact heq
    case isFalse => exact client.keyed id info' h

variable (lib : SbsConversions)

/-- What is sent of a plane. -/
def dataToSend (info : PlaneInfo) : QByteArray :=
  [.qString (String.ofList info.id_), .double info.lon_, .double info.lat_, .double info.alt_,
    .double info.speed_]

/-- `toDouble( &ok )` with what is done to the value, or not a number. -/
def value (unit : Double → Double) (text : Text) : Double :=
  if lib.isDouble text then unit (lib.fp.toDouble text) else .nan

def count_of_feets_in_one_meter : Double := lib.fp.ofRat (32808399 / 10000000)
def count_kilometers_in_nautical_mile : Double := lib.fp.ofRat (1852 / 1000)

/-- `ParseMessage`: the payload of its signal, if any, and its result. -/
def ParseMessage (client : PlanesClient) (msg : Text) : PlanesClient × Option QByteArray × Bool :=
  let list := Text.split [','] msg
  let siz_list := list.length
  if siz_list < 16 then (client, none, false)
  else
    let msg_type := list.getD 0 []
    if msg_type ≠ "MSG".toList then (client, none, true)
    else
      let id := list.getD 4 []
      let id_ := match client.planesInfo_[id]? with
        | some current_info => current_info.id_
        | none => id
      if !lib.isValid (list.getD 8 []) (list.getD 9 []) then (client, none, false)
      else
        let alt :=
          value lib (fun x => lib.fp.div x (count_of_feets_in_one_meter lib)) (list.getD 11 [])
        let lat := value lib (fun x => x) (list.getD 14 [])
        let lon := value lib (fun x => x) (list.getD 15 [])
        let speed :=
          value lib (fun x => lib.fp.mul x (count_kilometers_in_nautical_mile lib))
            (list.getD 12 [])
        if lib.isDouble (list.getD 11 []) || lib.isDouble (list.getD 14 []) ||
            lib.isDouble (list.getD 15 []) || lib.isDouble (list.getD 12 []) then
          let current_info : PlaneInfo :=
            { id_, lat_ := lat, lon_ := lon, alt_ := alt, speed_ := speed }
          (client.insert current_info, some (dataToSend current_info), true)
        else (client, none, false)

/-- The array `buf`, with what the stack holds. -/
structure Buffer where
  bytes : List UInt8
  length_bytes : bytes.length = max_len

namespace Buffer

/-- `readRawData`, of no more bytes than there is room for. -/
def read (buf : Buffer) (data : List UInt8) : Buffer where
  bytes := data.take max_len ++ buf.bytes.drop (data.take max_len).length
  length_bytes := by
    have hlength := buf.length_bytes
    simp only [List.length_append, List.length_take, List.length_drop]
    omega

@[simp] theorem bytes_read (buf : Buffer) (data : List UInt8) :
    (buf.read data).bytes = data.take max_len ++ buf.bytes.drop (data.take max_len).length := rfl

/-- `QString::fromLatin1( buf, strlen( buf ) )`, or `none` where `strlen` leaves the array. -/
def text (buf : Buffer) : Option Text :=
  if 0 ∈ buf.bytes then some (latin1OfBytes buf.bytes) else none

end Buffer

/-- The loop of `slot_ReadyRead` for at most `fuel` rounds: the payloads of its signals, and what is
left in the socket. -/
def readBlocks : Nat → PlanesClient → Buffer → List UInt8 →
    Option (PlanesClient × List QByteArray × List UInt8)
  | 0, _, _, _ => none
  | fuel + 1, client, buf, socket =>
    if socket.length < min_len then some (client, [], socket)
    else do
      let buf := buf.read socket
      let socket := socket.drop max_len
      let str ← buf.text
      if str.length < min_len then return (client, [], socket)
      let (client, emitted, _) :=
        client.ParseMessage lib (Text.mid str 0 (Text.lastIndexOf ',' str + 2))
      let (client, more, socket) ← readBlocks fuel client buf socket
      return (client, emitted.toList ++ more, socket)

/-- `slot_ReadyRead`; every round but the last takes ten bytes at least. -/
def slot_ReadyRead (client : PlanesClient) (buf : Buffer) (socket : List UInt8) :
    Option (PlanesClient × List QByteArray × List UInt8) :=
  readBlocks lib (socket.length + 1) client buf socket

/-- Bytes that arrive, and what the stack holds in the call that is made for them. -/
structure Arrival where
  buf : Buffer
  data : List UInt8

/-- What is emitted over the calls, from what the socket holds. -/
def receive : PlanesClient → List UInt8 → List Arrival → Option (List QByteArray)
  | _, _, [] => some []
  | client, socket, arrival :: arrivals => do
    let (client, emitted, socket) ←
      client.slot_ReadyRead lib arrival.buf (socket ++ arrival.data)
    let more ← receive client socket arrivals
    return emitted ++ more

/-! ### Lines -/

/-- A message line of the SBS format, without its newline. -/
structure SbsLine where
  text : List UInt8
  front : toAscii "MSG,".toList <+: text
  plain : ∀ b ∈ text, b ≠ 0 ∧ b ≠ 10
  sixteen : 16 ≤ (Text.split [','] (latin1OfBytes text)).length

theorem plain_of_all {text : List UInt8} (h : text.all fun b => b != 0 && b != 10) :
    ∀ b ∈ text, b ≠ 0 ∧ b ≠ 10 := by
  simpa using h

namespace SbsLine

def bytes (line : SbsLine) : List UInt8 := line.text ++ [10]

def fields (line : SbsLine) : List Text := Text.split [','] (latin1OfBytes line.text)

end SbsLine

/-- What fields report of a plane: the payload with its id and its values. -/
def report (lib : SbsConversions) (fields : List Text) : Option QByteArray :=
  if lib.isValid (fields.getD 8 []) (fields.getD 9 []) &&
      [11, 14, 15, 12].any (fun i => lib.isDouble (fields.getD i [])) then
    some (dataToSend {
      id_ := fields.getD 4 []
      lat_ := value lib (fun x => x) (fields.getD 14 [])
      lon_ := value lib (fun x => x) (fields.getD 15 [])
      alt_ := value lib (fun x => lib.fp.div x (count_of_feets_in_one_meter lib))
        (fields.getD 11 [])
      speed_ := value lib (fun x => lib.fp.mul x (count_kilometers_in_nautical_mile lib))
        (fields.getD 12 []) })
  else none

/-- Over the arrivals the reports of the lines are emitted, and nothing else. -/
def ReportsLines (lines : List SbsLine) (arrivals : List Arrival) : Prop :=
  receive lib new [] arrivals = some (lines.filterMap fun line => report lib line.fields)

/-- The line is alone in the socket, it has a field behind the longitude, and there is a zero byte
behind it in the array. -/
def ArrivesAlone (line : SbsLine) (buf : Buffer) (socket : List UInt8) : Prop :=
  socket = line.bytes ∧ 17 ≤ line.fields.length ∧ 0 ∈ buf.bytes.drop line.bytes.length

/-- Every call finds less than it reads in the socket, and leaves it there, or one line alone. -/
inductive LineByLine : List UInt8 → List SbsLine → List Arrival → Prop
  | nil (socket : List UInt8) : LineByLine socket [] []
  | wait {socket : List UInt8} {lines : List SbsLine} {arrival : Arrival}
      {arrivals : List Arrival} (hshort : (socket ++ arrival.data).length < min_len)
      (hrest : LineByLine (socket ++ arrival.data) lines arrivals) :
      LineByLine socket lines (arrival :: arrivals)
  | line {socket : List UInt8} {line : SbsLine} {lines : List SbsLine} {arrival : Arrival}
      {arrivals : List Arrival}
      (halone : ArrivesAlone line arrival.buf (socket ++ arrival.data))
      (hrest : LineByLine [] lines arrivals) :
      LineByLine socket (line :: lines) (arrival :: arrivals)

variable {lib : SbsConversions} {client : PlanesClient} {line : SbsLine} {arrival : Arrival}
  {lines : List SbsLine} {arrivals : List Arrival} {buf : Buffer} {socket : List UInt8}

/-! ### One message -/

theorem known_id (client : PlanesClient) (id : Text) :
    (match client.planesInfo_[id]? with
      | some current_info => current_info.id_
      | none => id) = id := by
  cases hinfo : client.planesInfo_[id]? with
  | none => rfl
  | some info => exact client.keyed id info hinfo

theorem emitted_ParseMessage (client : PlanesClient) {msg : Text}
    (hsize : 16 ≤ (Text.split [','] msg).length)
    (htype : (Text.split [','] msg).getD 0 [] = "MSG".toList) :
    (client.ParseMessage lib msg).2.1 = report lib (Text.split [','] msg) := by
  generalize hlist : Text.split [','] msg = list at hsize htype
  have hsize' : ¬ list.length < 16 := not_lt.mpr hsize
  simp only [ParseMessage, hlist, if_neg hsize', htype, ne_eq, not_true, if_false, known_id, report]
  cases lib.isValid (list.getD 8 []) (list.getD 9 []) with
  | false => rfl
  | true =>
      simp only [Bool.not_true, Bool.false_eq_true, if_false, Bool.true_and, List.any_cons,
        List.any_nil, Bool.or_false]
      rw [Bool.or_assoc, Bool.or_assoc]
      split <;> rfl

theorem report_take (fields : List Text) : report lib (fields.take 16) = report lib fields := by
  have hget : ∀ i < 16, (fields.take 16).getD i [] = fields.getD i [] := by
    intro i hi
    simp only [List.getD_eq_getElem?_getD, List.getElem?_take_of_lt hi]
  have hany : ([11, 14, 15, 12].any fun i => lib.isDouble ((fields.take 16).getD i [])) =
      [11, 14, 15, 12].any fun i => lib.isDouble (fields.getD i []) := by
    simp (disch := decide) only [List.any_cons, List.any_nil, hget]
  rw [report, report, hany, hget 4 (by decide), hget 8 (by decide), hget 9 (by decide),
    hget 11 (by decide), hget 12 (by decide), hget 14 (by decide), hget 15 (by decide)]

/-! ### One line in one read -/

theorem type_of_line (line : SbsLine) : line.fields.getD 0 [] = "MSG".toList := by
  obtain ⟨rest, hrest⟩ := line.front
  have htext : latin1OfBytes line.text = "MSG".toList ++ ',' :: latin1OfBytes rest := by
    rw [← hrest, latin1OfBytes_append (by decide)]
    rfl
  rw [SbsLine.fields, htext, Text.split_singleton,
    List.splitOn_append_cons_self_of_not_mem (by decide)]
  rfl

/-- However a line with a field behind the longitude is cut at a later comma, its first fields are
there. -/
theorem exists_fields_of_cut (h : 17 ≤ line.fields.length) (behind : Text) :
    ∃ more, Text.split [','] (Text.mid (latin1OfBytes line.text ++ behind) 0
      (Text.lastIndexOf ',' (latin1OfBytes line.text ++ behind) + 2)) =
        line.fields.take 16 ++ more ∧ 15 ≤ (latin1OfBytes line.text).length := by
  have hfields : line.fields = (latin1OfBytes line.text).splitOn ',' := Text.split_singleton _ _
  rw [hfields] at h
  obtain ⟨front, back, htext, hfront, hlength⟩ := Text.exists_of_lt_length_splitOn (n := 15) h
  obtain ⟨rest, hrest⟩ := Text.exists_mid_lastIndexOf ',' front (back ++ behind)
  refine ⟨rest.splitOn ',', ?_, ?_⟩
  · rw [hfields, ← hfront, ← List.splitOn_append_cons_self, ← Text.split_singleton, ← hrest, htext,
      List.append_assoc, List.cons_append]
  · rw [htext, List.length_append]
    omega

theorem emitted_of_cut (client : PlanesClient) (h : 17 ≤ line.fields.length) (behind : Text) :
    (client.ParseMessage lib (Text.mid (latin1OfBytes line.text ++ behind) 0
      (Text.lastIndexOf ',' (latin1OfBytes line.text ++ behind) + 2))).2.1 =
        report lib line.fields := by
  obtain ⟨more, hmore, -⟩ := exists_fields_of_cut h behind
  have hlength : (line.fields.take 16).length = 16 := by
    rw [List.length_take]
    omega
  rw [emitted_ParseMessage, hmore, ← report_take, List.take_left' hlength, report_take]
  · rw [hmore, List.length_append]
    omega
  · rw [hmore, ← type_of_line line, List.getD_append _ _ _ _ (by omega)]
    simp only [List.getD_eq_getElem?_getD, List.getElem?_take_of_lt (by decide : 0 < 16)]

theorem text_of_arrivesAlone (h : ArrivesAlone line buf socket) :
    line.bytes.length ≤ max_len ∧ ∃ behind,
      (buf.read line.bytes).text = some (latin1OfBytes line.text ++ behind) := by
  obtain ⟨-, -, hzero⟩ := h
  have hroom : line.bytes.length ≤ max_len := by
    by_contra hlong
    have hlength := buf.length_bytes
    rw [List.drop_of_length_le (by omega)] at hzero
    exact absurd hzero List.not_mem_nil
  have hbytes : (buf.read line.bytes).bytes =
      line.bytes ++ buf.bytes.drop line.bytes.length := by
    rw [Buffer.bytes_read, List.take_of_length_le hroom]
  refine ⟨hroom, latin1OfBytes ([10] ++ buf.bytes.drop line.bytes.length), ?_⟩
  rw [Buffer.text, hbytes, if_pos (List.mem_append_right _ hzero), SbsLine.bytes, List.append_assoc,
    latin1OfBytes_append_of_ne_zero fun b hb => (line.plain b hb).1]

theorem readBlocks_of_short {fuel : Nat} (h : socket.length < min_len) :
    readBlocks lib (fuel + 1) client buf socket = some (client, [], socket) := by
  rw [readBlocks, if_pos h]

theorem slot_ReadyRead_of_arrivesAlone (client : PlanesClient) (h : ArrivesAlone line buf socket) :
    ∃ client', client.slot_ReadyRead lib buf socket =
      some (client', (report lib line.fields).toList, []) := by
  obtain ⟨hroom, behind, htext⟩ := text_of_arrivesAlone h
  obtain ⟨hdata, hfields, -⟩ := h
  obtain ⟨-, -, hlatin1⟩ := exists_fields_of_cut hfields behind
  have hlong : ¬ (latin1OfBytes line.text ++ behind).length < min_len := by
    rw [List.length_append, min_len]
    omega
  have hbytes : ¬ line.bytes.length < min_len := by
    have hlength : (latin1OfBytes line.text).length ≤ line.text.length := by
      rw [latin1OfBytes, List.length_map]
      exact (List.takeWhile_prefix _).length_le
    rw [SbsLine.bytes, List.length_append, min_len]
    omega
  obtain ⟨n, hn⟩ : ∃ n, line.bytes.length = n + 1 :=
    Nat.exists_eq_add_of_le' (by rw [min_len] at hbytes; omega)
  have hempty : line.bytes.drop max_len = [] := List.drop_of_length_le hroom
  rw [slot_ReadyRead, hdata, hn, readBlocks, if_neg hbytes]
  simp only [htext, Option.bind_eq_bind, Option.bind_some, if_neg hlong, hempty,
    readBlocks_of_short (show ([] : List UInt8).length < min_len by decide), Option.pure_def,
    emitted_of_cut client hfields behind, List.append_nil]
  exact ⟨_, rfl⟩

/-- The run: what waits in the socket is taken with the bytes that come to it. -/
theorem receive_of_lineByLine (h : LineByLine socket lines arrivals) (client : PlanesClient) :
    receive lib client socket arrivals =
      some (lines.filterMap fun line => report lib line.fields) := by
  induction h generalizing client with
  | nil socket => rfl
  | wait hshort hrest ih =>
      rw [receive, slot_ReadyRead, readBlocks_of_short hshort]
      simp only [Option.bind_eq_bind, Option.bind_some, ih, List.nil_append, Option.pure_def]
  | @line socket line lines arrival arrivals halone hrest ih =>
      obtain ⟨client', hslot⟩ := @slot_ReadyRead_of_arrivesAlone lib _ _ _ client halone
      simp only [receive, hslot, Option.bind_eq_bind, Option.bind_some, ih, Option.pure_def,
        List.filterMap_cons]
      cases report lib line.fields <;> rfl

/-! ### One report a read -/

theorem length_emitted_slot_ReadyRead {client' : PlanesClient} {socket' : List UInt8}
    {emitted : List QByteArray} (hroom : socket.length ≤ max_len)
    (h : client.slot_ReadyRead lib buf socket = some (client', emitted, socket')) :
    emitted.length ≤ 1 ∧ socket'.length < min_len := by
  by_cases hshort : socket.length < min_len
  · rw [slot_ReadyRead, readBlocks_of_short hshort] at h
    cases h
    exact ⟨Nat.zero_le _, hshort⟩
  have hempty : socket.drop max_len = [] := List.drop_of_length_le hroom
  have hnil : ([] : List UInt8).length < min_len := by decide
  obtain ⟨n, hn⟩ : ∃ n, socket.length = n + 1 :=
    Nat.exists_eq_add_of_le' (by rw [min_len] at hshort; omega)
  rw [slot_ReadyRead, hn, readBlocks, if_neg hshort] at h
  simp only [Option.bind_eq_bind, Option.bind_eq_some_iff, hempty, readBlocks_of_short hnil] at h
  obtain ⟨str, -, h⟩ := h
  split at h
  · cases h
    exact ⟨Nat.zero_le _, hnil⟩
  · cases h
    rw [List.append_nil]
    exact ⟨Option.length_toList_le, hnil⟩

theorem length_receive {emitted : List QByteArray}
    (hroom : ∀ arrival ∈ arrivals, arrival.data.length + min_len ≤ max_len)
    (hsocket : socket.length < min_len)
    (h : receive lib client socket arrivals = some emitted) :
    emitted.length ≤ arrivals.length := by
  induction arrivals generalizing client socket emitted with
  | nil =>
      cases h
      exact Nat.le_refl 0
  | cons arrival arrivals ih =>
      obtain ⟨harrival, hrest⟩ := List.forall_mem_cons.mp hroom
      simp only [receive, Option.bind_eq_bind, Option.bind_eq_some_iff] at h
      obtain ⟨⟨client', now, socket'⟩, hslot, more, hmore, heq⟩ := h
      cases heq
      obtain ⟨hone, hsocket'⟩ := length_emitted_slot_ReadyRead (by
        rw [List.length_append]
        omega) hslot
      have hlength := ih hrest hsocket' hmore
      change (now ++ more).length ≤ _
      rw [List.length_append, List.length_cons]
      omega

/-- **Lines and reads.** The lines are reported where every call finds less than it reads or one line
alone, with a field behind its longitude and a zero byte behind it in the array; of reads with room
to spare in the array there have to be as many as there are lines with a report. -/
theorem reportsLines (lines : List SbsLine) (arrivals : List Arrival) :
    (LineByLine [] lines arrivals → ReportsLines lib lines arrivals) ∧
    (ReportsLines lib lines arrivals →
      (∀ arrival ∈ arrivals, arrival.data.length + min_len ≤ max_len) →
      (lines.filterMap fun line => report lib line.fields).length ≤ arrivals.length) :=
  ⟨fun h => receive_of_lineByLine h new, fun hreports hroom =>
    length_receive hroom (by decide) hreports⟩

/-- Decimal numbers, and dates and times of the usual lengths. -/
def decimals : SbsConversions where
  fp := .exact
  isDouble := fun text => text ≠ [] && text.all fun c => c.isDigit || c == '.'
  isValid := fun date time => date.length == 10 && time.length == 12

def aircraft : SbsLine where
  text := toAscii ("MSG,3,1,1,4CA2D6,1,2014/03/05,10:11:12.000,2014/03/05,10:11:12.000,," ++
    "37000,450,,41.5,42.25,,0,,0,0,0").toList
  front := by decide +kernel
  plain := plain_of_all (by decide +kernel)
  sixteen := by decide +kernel

/-- A line that ends with the longitude. -/
def shortLine : SbsLine where
  text := toAscii ("MSG,3,1,1,4CA2D6,1,2014/03/05,10:11:12.000,2014/03/05,10:11:12.000,," ++
    "37000,450,,41.5,42.25").toList
  front := by decide +kernel
  plain := plain_of_all (by decide +kernel)
  sixteen := by decide +kernel

def zeros : Buffer where
  bytes := List.replicate max_len 0
  length_bytes := List.length_replicate

/-- A line that comes as five bytes and the rest. -/
theorem reportsLines_aircraft : ReportsLines decimals [aircraft]
    [⟨zeros, aircraft.bytes.take 5⟩, ⟨zeros, aircraft.bytes.drop 5⟩] := by
  have hzero : 0 ∈ zeros.bytes.drop aircraft.bytes.length := by
    rw [zeros, List.drop_replicate]
    exact List.mem_replicate.mpr ⟨by decide +kernel, rfl⟩
  exact (reportsLines _ _).1 (.wait (by decide +kernel)
    (.line ⟨List.take_append_drop 5 aircraft.bytes, by decide +kernel, hzero⟩ (.nil [])))

/-- Of two lines in one read one is lost, and of a longitude at the end of its line there is only
the first digit left. -/
theorem not_reportsLines :
    ¬ ReportsLines decimals [aircraft, aircraft] [⟨zeros, aircraft.bytes ++ aircraft.bytes⟩] ∧
    ¬ ReportsLines decimals [shortLine] [⟨zeros, shortLine.bytes⟩] := by
  constructor
  · intro hreports
    have hroom : ∀ arrival ∈ ([⟨zeros, aircraft.bytes ++ aircraft.bytes⟩] : List Arrival),
        arrival.data.length + min_len ≤ max_len := by
      intro arrival harrival
      rw [List.mem_singleton.mp harrival]
      decide +kernel
    have htwo : ([aircraft, aircraft].filterMap fun line =>
        report decimals line.fields).length = 2 := by
      decide +kernel
    have hone := length_receive hroom (by decide) hreports
    rw [htwo] at hone
    exact absurd hone (by decide)
  · rw [ReportsLines]
    decide +kernel

end PlanesClient

end ArmOd
