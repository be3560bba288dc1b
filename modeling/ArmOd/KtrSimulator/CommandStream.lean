import ArmOd.KtrSimulator.Commands
import ArmOd.Qt.Decimal

/-!
# The commands of the coder at the simulator

A stream of commands as `TcpKTRCoder::decode` writes them, in any chunks. `pending` is the number of
bytes that have arrived of the command a read ends in. While it is less than 22 the simulator waits
for the rest; from there on it either hangs or registers a number that is cut.
-/

namespace ArmOd

/-- A command to a KTR host. -/
inductive KtrCommand where
  | getBoardList
  | commandToBpla (id : UInt16) (dev : UInt32)
  deriving DecidableEq

namespace KtrCommand

open KtrSimulator

def message : KtrCommand → Message
  | getBoardList => { type := TCP_KTR_REQUEST_GET_BOARD_LIST, data := [] }
  | commandToBpla id dev =>
    { type := TCP_KTR_REQUEST_COMMAND_TO_BPLA
      data := [.quint16 id.toNat, .quint32 dev.toNat] }

def bytes (c : KtrCommand) : List UInt8 := TcpKTRCoder.decode c.message

/-- The request a command stands for. -/
def request : KtrCommand → KtrRequest
  | getBoardList => .listBpla
  | commandToBpla id dev => .registerListener id.toNat dev.toNat

/-- The device is an `int`. -/
def Fits : KtrCommand → Prop
  | getBoardList => True
  | commandToBpla _ dev => dev.toNat < 2 ^ 31

/-- The request the simulator registers for a command it gets as a whole. -/
def registered : KtrCommand → KtrRequest
  | getBoardList => .listBpla
  | commandToBpla id dev => .registerListener id.toNat (if dev.toNat < 2 ^ 31 then dev.toNat else 0)

theorem registered_eq_request_iff {c : KtrCommand} : c.registered = c.request ↔ c.Fits := by
  cases c with
  | getBoardList => exact iff_of_true rfl trivial
  | commandToBpla id dev =>
      simp only [registered, request, KtrRequest.registerListener.injEq, true_and, Fits]
      split <;> omega

theorem toInt_ne_of_append {n : Nat} {device more : Text} (h : Nat.toDigits 10 n = device ++ more)
    (hdevice : device ≠ []) (hmore : more ≠ []) : Text.toInt device ≠ n := by
  have hdigits : ∀ c ∈ device, c.isDigit := fun c hc =>
    Text.isDigit_of_mem_toDigits c (h ▸ List.mem_append_left more hc)
  have hlength : 2 ≤ (Nat.toDigits 10 n).length := by
    rw [h, List.length_append]
    have hpos := List.length_pos_iff.mpr hdevice
    have hpos' := List.length_pos_iff.mpr hmore
    omega
  have hzero : n ≠ 0 := by
    intro hn
    rw [hn, Nat.toDigits_zero] at hlength
    exact absurd hlength (by decide)
  have hvalue : n = 10 ^ more.length * Nat.ofDigitChars 10 device 0 + Nat.ofDigitChars 10 more 0 := by
    rw [← Nat.ofDigitChars_eq_ofDigitChars_zero, ← Nat.ofDigitChars_append, ← h,
      Nat.ofDigitChars_ten_toDigits]
  have hten : 10 * Nat.ofDigitChars 10 device 0 ≤ 10 ^ more.length * Nat.ofDigitChars 10 device 0 :=
    Nat.mul_le_mul_right _ (Nat.le_self_pow (List.length_pos_iff.mpr hmore).ne' 10)
  rw [Text.toInt_of_isDigit hdevice hdigits]
  split <;> omega

theorem bytes_getBoardList : getBoardList.bytes = toAscii CMD_LIST_BPLA := rfl

theorem bytes_commandToBpla (id : UInt16) (dev : UInt32) : (commandToBpla id dev).bytes =
    toAscii (registration (Nat.toDigits 10 id.toNat) (Nat.toDigits 10 dev.toNat)) := by
  have hnumber : ∀ n, (QString.number n).toList = Nat.toDigits 10 n := QString.toList_number
  have htype : TCP_KTR_REQUEST_COMMAND_TO_BPLA ≠ TCP_KTR_REQUEST_GET_BOARD_LIST := by decide
  rw [bytes, message, TcpKTRCoder.decode]
  dsimp only
  rw [if_neg htype, if_pos rfl]
  change toAscii ("user link command ".toList ++ 'b' :: (QString.number id.toNat).toList ++
    'd' :: (QString.number dev.toNat).toList) = _
  have hcommand : CMD_REGISTER_LISTENER = "user link command ".toList ++ ['b'] := by decide
  rw [hnumber, hnumber, registration, hcommand, List.append_assoc]
  rfl

theorem isCommand_bytes (c : KtrCommand) : IsCommand c.bytes := by
  cases c with
  | getBoardList => exact Or.inl rfl
  | commandToBpla id dev =>
      exact Or.inr ⟨_, _, Nat.toDigits_ne_nil, Nat.toDigits_ne_nil, Text.isDigit_of_mem_toDigits,
        Text.isDigit_of_mem_toDigits, bytes_commandToBpla id dev⟩

theorem next?_bytes (c : KtrCommand) {rest : List UInt8} (h : digits (latin1OfBytes rest) = []) :
    next? (c.bytes ++ rest) = some (c.registered, rest) := by
  cases c with
  | getBoardList => exact next?_listBpla rest
  | commandToBpla id dev =>
      have hid : id.toNat < 2 ^ 31 := id.toNat_lt.trans (by decide)
      rw [bytes_commandToBpla, next?_registration Text.isDigit_of_mem_toDigits
        Text.isDigit_of_mem_toDigits Nat.toDigits_ne_nil Nat.toDigits_ne_nil, h, List.append_nil,
        Text.toInt_toDigits, Text.toInt_toDigits, if_pos hid]
      rfl

theorem eq_of_append_d {id id' tail tail' : Text} (hid : ∀ c ∈ id, c.isDigit)
    (hid' : ∀ c ∈ id', c.isDigit) (h : id ++ 'd' :: tail = id' ++ 'd' :: tail') :
    id = id' ∧ tail = tail' := by
  have hd : ¬ Char.isDigit 'd' := by decide
  have htake := congrArg (List.takeWhile Char.isDigit) h
  rw [List.takeWhile_append_of_pos hid, List.takeWhile_append_of_pos hid',
    List.takeWhile_cons_of_neg hd, List.takeWhile_cons_of_neg hd, List.append_nil,
    List.append_nil] at htake
  subst htake
  exact ⟨rfl, (List.cons.inj (List.append_cancel_left h)).2⟩

/-- In a part of a registration the device is a part of the number. -/
theorem registerListener?_cut {id dev : Nat} {front back id' device : Text}
    (htext : registration (Nat.toDigits 10 id) (Nat.toDigits 10 dev) = front ++ back)
    (h : registerListener? front = some (id', device)) :
    Nat.toDigits 10 dev = device ++ back ∧ device ≠ [] ∧ front = registration id' device := by
  obtain ⟨tail, rfl, hid, hdevice, hids, hdevices, htail⟩ := registerListener?_eq_some_iff.mp h
  rw [registration, List.append_assoc CMD_REGISTER_LISTENER, List.append_assoc id',
    List.cons_append] at htext
  obtain ⟨hid', hdev⟩ := eq_of_append_d Text.isDigit_of_mem_toDigits hids (List.append_cancel_left htext)
  -- what is behind the device is a digit of the number, or nothing
  obtain rfl : tail = [] := by
    cases tail with
    | nil => rfl
    | cons y tail =>
        have hy : y.isDigit := Text.isDigit_of_mem_toDigits y (by rw [hdev]; simp)
        rw [digits, List.takeWhile_cons_of_pos hy] at htail
        cases htail
  rw [List.append_nil] at hdev ⊢
  exact ⟨hdev, hdevice, rfl⟩

/-- Of a command that is cut behind its first 22 bytes, nothing is taken or a wrong number. -/
theorem next?_cut {c : KtrCommand} {part more : List UInt8} (h : c.bytes = part ++ more)
    (hmore : more ≠ []) (hlong : CMD_MIN_LENGTH ≤ part.length) :
    next? part = none ∨ ∃ request, next? part = some (request, []) ∧ request ≠ c.request := by
  cases c with
  | getBoardList =>
      have hlength := congrArg List.length h
      rw [bytes_getBoardList, List.length_append] at hlength
      change 22 = _ at hlength
      have hpos := List.length_pos_iff.mpr hmore
      rw [CMD_MIN_LENGTH] at hlong
      omega
  | commandToBpla id dev =>
      rw [bytes_commandToBpla, toAscii, List.map_eq_append_iff] at h
      obtain ⟨front, back, htext, rfl, rfl⟩ := h
      change next? (toAscii front) = none ∨ ∃ request, next? (toAscii front) = some (request, []) ∧ _
      have hback : back ≠ [] := fun hnil => hmore (by rw [hnil, List.map_nil])
      have hplain : IsPlain front := fun c hc =>
        isPlain_registration Text.isDigit_of_mem_toDigits Text.isDigit_of_mem_toDigits c
          (htext ▸ List.mem_append_left back hc)
      have hfront : latin1OfBytes (toAscii front) = front := by
        have happend := latin1OfBytes_append hplain []
        rwa [List.append_nil, show latin1OfBytes [] = [] from rfl, List.append_nil] at happend
      have hregister : CMD_REGISTER_LISTENER <+: front := by
        refine List.prefix_of_prefix_length_le (List.prefix_append _ _)
          (htext ▸ List.prefix_append front back) ?_
        rw [List.length_map, CMD_MIN_LENGTH] at hlong
        exact le_trans (show 19 ≤ 22 by decide) hlong
      rw [next?, hfront, if_neg (not_listBpla_of_register hregister)]
      cases hnumbers : registerListener? front with
      | none => exact Or.inl rfl
      | some numbers =>
          obtain ⟨id', device⟩ := numbers
          obtain ⟨hdev, hdevice, rfl⟩ := registerListener?_cut htext hnumbers
          refine Or.inr ⟨.registerListener (Text.toInt id') (Text.toInt device), ?_, ?_⟩
          · rw [Option.map_some]
            dsimp only
            rw [List.drop_eq_nil_of_le]
            simp only [registration, toAscii, List.length_map, List.length_append,
              List.length_cons]
            omega
          · intro heq
            exact toInt_ne_of_append hdev hdevice hback (KtrRequest.registerListener.inj heq).2

/-! ### Streams -/

open KtrClient

/-- The calls return, and `client'` is what they leave. -/
def Receives (client : KtrClient) : List (List UInt8) → KtrClient → Prop
  | [], client' => client' = client
  | data :: chunks, client' => ∃ fuel next, client.readyRead fuel data = some next ∧
      Receives next chunks client'

/-- Of so many bytes of the commands, those of the command that is not complete. -/
def pending : List KtrCommand → Nat → Nat
  | [], n => n
  | c :: cs, n => if n < c.bytes.length then n else pending cs (n - c.bytes.length)

/-- At the end of every read, fewer than 22 bytes of a command that is not complete have arrived. -/
def EndsEarly (cs : List KtrCommand) (chunks : List (List UInt8)) : Prop :=
  ∀ k, pending cs (chunks.take k).flatten.length < CMD_MIN_LENGTH

/-- All calls return, and what is registered are the requests of the commands. -/
def Arrive (cs : List KtrCommand) (chunks : List (List UInt8)) : Prop :=
  ∃ client, Receives {} chunks client ∧ client.requests = cs.map request

/-- The client with the commands registered, and a part of the next one in its buffer. -/
def waiting (client : KtrClient) (cs : List KtrCommand) (cut : List UInt8) : KtrClient where
  buffer := cut
  requests := client.requests ++ cs.map registered

variable {client client' : KtrClient} {cs whole : List KtrCommand} {chunks : List (List UInt8)}
  {part rest : List UInt8}

theorem requests_prefix_of_receives (h : Receives client chunks client') :
    client.requests <+: client'.requests := by
  induction chunks generalizing client with
  | nil => rw [show client' = client from h]
  | cons data chunks ih =>
      obtain ⟨fuel, next, hread, hreceives⟩ := h
      refine List.IsPrefix.trans ?_ (ih hreceives)
      by_cases hdata : data = []
      · rw [readyRead, if_pos hdata] at hread
        cases hread
        exact List.prefix_rfl
      · obtain ⟨rfl, -⟩ := (readyRead_iff hdata).mp ⟨fuel, hread⟩
        exact List.prefix_append _ _

theorem pending_append (n : Nat) :
    pending (whole ++ cs) ((whole.flatMap bytes).length + n) = pending cs n := by
  induction whole with
  | nil => rw [List.flatMap_nil, List.length_nil, Nat.zero_add, List.nil_append]
  | cons c whole ih =>
      rw [List.flatMap_cons, List.length_append, List.cons_append, pending, if_neg (by omega), ← ih]
      congr 1
      omega

/-- The bytes that have arrived are whole commands and a part of the next one. -/
theorem exists_cut (h : cs.flatMap bytes = part ++ rest) :
    ∃ whole more cut, cs = whole ++ more ∧ part = whole.flatMap bytes ++ cut ∧
      more.flatMap bytes = cut ++ rest ∧
      (cut = [] ∨ ∃ c tail rest, more = c :: tail ∧ c.bytes = cut ++ rest ∧ rest ≠ []) := by
  induction cs generalizing part with
  | nil =>
      obtain ⟨rfl, rfl⟩ := List.append_eq_nil_iff.mp h.symm
      exact ⟨[], [], [], rfl, rfl, rfl, Or.inl rfl⟩
  | cons c cs ih =>
      rw [List.flatMap_cons] at h
      by_cases hshort : part.length < c.bytes.length
      · have hfront : part <+: c.bytes :=
          List.prefix_of_prefix_length_le (h ▸ List.prefix_append part rest)
            (List.prefix_append _ _) hshort.le
        obtain ⟨tail, htail⟩ := hfront
        refine ⟨[], c :: cs, part, rfl, rfl, h, Or.inr ⟨c, cs, tail, rfl, htail.symm, ?_⟩⟩
        intro hnil
        rw [hnil, List.append_nil] at htail
        exact absurd (congrArg List.length htail) hshort.ne
      · have hfront : c.bytes <+: part :=
          List.prefix_of_prefix_length_le (h ▸ List.prefix_append _ _) (List.prefix_append part rest)
            (Nat.le_of_not_lt hshort)
        obtain ⟨part, rfl⟩ := hfront
        rw [List.append_assoc, List.append_cancel_left_eq] at h
        obtain ⟨whole, more, cut, rfl, rfl, hmore, hcut⟩ := ih h
        exact ⟨c :: whole, more, cut, rfl, by rw [List.flatMap_cons, List.append_assoc], hmore, hcut⟩

theorem digits_of_cut {c : KtrCommand} (h : c.bytes = part ++ rest) :
    digits (latin1OfBytes part) = [] := by
  obtain ⟨tail, htail⟩ := exists_cons_of_isCommand (isCommand_bytes c)
  match part with
  | [] => rfl
  | b :: part =>
      rw [htail, List.cons_append] at h
      rw [← (List.cons.inj h).1]
      rfl

theorem digits_of_append (cs : List KtrCommand) (h : digits (latin1OfBytes rest) = []) :
    digits (latin1OfBytes (cs.flatMap bytes ++ rest)) = [] := by
  cases cs with
  | nil => exact h
  | cons c cs =>
      rw [List.flatMap_cons, List.append_assoc]
      exact digits_of_isCommand (isCommand_bytes c) _

theorem eat_append (cs : List KtrCommand) (h : digits (latin1OfBytes rest) = []) :
    eat (cs.flatMap bytes ++ rest) = (cs.map registered ++ (eat rest).1, (eat rest).2) := by
  induction cs with
  | nil => rfl
  | cons c cs ih =>
      rw [List.flatMap_cons, List.append_assoc, eat_of_some (next?_bytes c (digits_of_append cs h)),
        ih]
      rfl

theorem readyRead_early {data cut : List UInt8} (hdata : data ≠ [])
    (hbuffer : client.buffer ++ data = whole.flatMap bytes ++ cut)
    (hdigits : digits (latin1OfBytes cut) = []) (hcut : cut.length < CMD_MIN_LENGTH) :
    (∃ fuel, client.readyRead fuel data = some client') ↔ client' = waiting client whole cut := by
  have heat : eat (client.buffer ++ data) = (whole.map registered, cut) := by
    rw [hbuffer, eat_append whole hdigits, eat_of_short hcut, List.append_nil]
  rw [readyRead_iff hdata, ← length_eat_lt_iff, heat, eaten, heat]
  exact and_iff_left hcut

/-- A read that ends late in a command does not return, or it registers another number. -/
theorem readyRead_late {data cut : List UInt8} {c : KtrCommand} {fuel : Nat} (hdata : data ≠ [])
    (hbuffer : client.buffer ++ data = whole.flatMap bytes ++ cut) (hc : c.bytes = cut ++ rest)
    (hrest : rest ≠ []) (hcut : CMD_MIN_LENGTH ≤ cut.length)
    (hread : client.readyRead fuel data = some client') :
    ∃ request, client'.requests = client.requests ++ (whole.map registered ++ [request]) ∧
      request ≠ c.request := by
  obtain ⟨rfl, hcommands⟩ := (readyRead_iff hdata).mp ⟨fuel, hread⟩
  rw [← length_eat_lt_iff, hbuffer, eat_append whole (digits_of_cut hc)] at hcommands
  rcases next?_cut hc hrest hcut with hnone | ⟨request, hnext, hne⟩
  · rw [eat_of_none hnone] at hcommands
    exact absurd hcommands (Nat.not_lt.mpr hcut)
  · refine ⟨request, ?_, hne⟩
    rw [eaten]
    dsimp only
    rw [hbuffer, eat_append whole (digits_of_cut hc), eat_of_some hnext, eat_of_short (by decide)]

theorem pending_le (cs : List KtrCommand) (n : Nat) : pending cs n ≤ n := by
  induction cs generalizing n with
  | nil => exact le_rfl
  | cons c cs ih =>
      rw [pending]
      split
      · exact le_rfl
      · exact (ih _).trans (Nat.sub_le _ _)

theorem forall_take_cons {data : List UInt8} {P : Nat → Prop} {n : Nat} (h : P n) :
    (∀ k, P (n + ((data :: chunks).take k).flatten.length)) ↔
      ∀ k, P (n + data.length + (chunks.take k).flatten.length) := by
  constructor
  · intro hall k
    have hk := hall (k + 1)
    rwa [List.take_succ_cons, List.flatten_cons, List.length_append, ← Nat.add_assoc] at hk
  · intro hall k
    cases k with
    | zero => exact h
    | succ k =>
        rw [List.take_succ_cons, List.flatten_cons, List.length_append, ← Nat.add_assoc]
        exact hall k

theorem receives_nil_cons : Receives client ([] :: chunks) client' ↔ Receives client chunks client' := by
  constructor
  · intro hcons
    obtain ⟨fuel, next, hread, hreceives⟩ := hcons
    cases hread
    exact hreceives
  · exact fun hreceives => ⟨0, client, rfl, hreceives⟩

theorem append_eq_append_map {requests found : List KtrRequest} (cs more : List KtrCommand)
    (hfront : requests ++ cs.map registered <+: found)
    (h : found = requests ++ (cs ++ more).map request) :
    (∀ c ∈ cs, c.Fits) ∧ found = requests ++ cs.map registered ++ more.map request := by
  subst h
  rw [List.map_append, List.prefix_append_right_inj] at hfront
  have hshort : cs.map registered <+: cs.map request :=
    List.prefix_of_prefix_length_le hfront (List.prefix_append _ _) (by simp)
  have heq := hshort.eq_of_length (by simp)
  refine ⟨fun c hc => registered_eq_request_iff.mp (List.map_inj_left.mp heq c hc), ?_⟩
  rw [heq, List.map_append, List.append_assoc]

theorem eq_nil_of_flatMap_bytes (h : cs.flatMap bytes = part) (hpart : part.length < CMD_MIN_LENGTH) :
    cs = [] := by
  cases cs with
  | nil => rfl
  | cons c cs =>
      have hcommand := length_of_isCommand (isCommand_bytes c)
      rw [← h, List.flatMap_cons, List.length_append] at hpart
      omega

theorem receives_early {data cut : List UInt8} (hdata : data ≠ [])
    (hbuffer : client.buffer ++ data = whole.flatMap bytes ++ cut)
    (hdigits : digits (latin1OfBytes cut) = []) (hcut : cut.length < CMD_MIN_LENGTH) :
    Receives client (data :: chunks) client' ↔ Receives (waiting client whole cut) chunks client' := by
  rw [Receives, exists_comm]
  simp only [exists_and_right, readyRead_early hdata hbuffer hdigits hcut, exists_eq_left]

/-- After a read that ends early, the whole commands are registered and the others are to come. -/
theorem requests_waiting_iff {cut : List UInt8} (whole more : List KtrCommand) :
    (∃ client', Receives (waiting client whole cut) chunks client' ∧
      client'.requests = client.requests ++ (whole ++ more).map request) ↔
    (∃ client', Receives (waiting client whole cut) chunks client' ∧
      client'.requests = (waiting client whole cut).requests ++ more.map request) ∧
      ∀ c ∈ whole, c.Fits := by
  constructor
  · intro hreceived
    obtain ⟨client', hclient', hrequests⟩ := hreceived
    obtain ⟨hwhole, hrequests⟩ := append_eq_append_map whole more
      (requests_prefix_of_receives hclient') hrequests
    exact ⟨⟨client', hclient', hrequests⟩, hwhole⟩
  · intro hall
    obtain ⟨⟨client', hclient', hrequests⟩, hwhole⟩ := hall
    refine ⟨client', hclient', ?_⟩
    rw [hrequests, waiting, List.map_append, ← List.append_assoc,
      List.map_congr_left fun c hc => registered_eq_request_iff.mpr (hwhole c hc)]

theorem not_receives_late {data cut : List UInt8} {c : KtrCommand} {tail : List KtrCommand}
    (hdata : data ≠ []) (hbuffer : client.buffer ++ data = whole.flatMap bytes ++ cut)
    (hc : c.bytes = cut ++ rest) (hrest : rest ≠ []) (hcut : CMD_MIN_LENGTH ≤ cut.length) :
    ¬ ∃ client', Receives client (data :: chunks) client' ∧
      client'.requests = client.requests ++ (whole ++ c :: tail).map request := by
  intro hreceived
  obtain ⟨client', ⟨fuel, next, hnext, hclient'⟩, hrequests⟩ := hreceived
  obtain ⟨request', hnext', hwrong⟩ := readyRead_late hdata hbuffer hc hrest hcut hnext
  obtain ⟨later, hlater⟩ := requests_prefix_of_receives hclient'
  rw [hrequests, hnext', List.append_assoc, List.append_assoc, List.map_append,
    List.append_cancel_left_eq] at hlater
  exact hwrong (List.cons.inj (List.append_inj hlater (by simp)).2).1

theorem pending_cut {c : KtrCommand} {cut : List UInt8} (hc : c.bytes = cut ++ rest)
    (hrest : rest ≠ []) : pending (c :: cs) cut.length = cut.length := by
  have hpos := List.length_pos_iff.mpr hrest
  rw [pending, hc, List.length_append, if_pos (by omega)]

/-- The commands arrive from any point of the stream where the client waits. -/
theorem receives_requests_iff (hbytes : cs.flatMap bytes = client.buffer ++ chunks.flatten)
    (hbuffer : client.buffer.length < CMD_MIN_LENGTH) :
    (∃ client', Receives client chunks client' ∧
      client'.requests = client.requests ++ cs.map request) ↔
    (∀ k, pending cs (client.buffer.length + (chunks.take k).flatten.length) < CMD_MIN_LENGTH) ∧
      ∀ c ∈ cs, c.Fits := by
  induction chunks generalizing client cs with
  | nil =>
      rw [List.flatten_nil, List.append_nil] at hbytes
      obtain rfl := eq_nil_of_flatMap_bytes hbytes hbuffer
      refine iff_of_true ⟨client, rfl, (List.append_nil _).symm⟩ ⟨fun k => ?_, nofun⟩
      rw [List.take_nil]
      exact hbuffer
  | cons data chunks ih =>
      have hstart := lt_of_le_of_lt (pending_le cs client.buffer.length) hbuffer
      rw [forall_take_cons (P := fun n => pending cs n < CMD_MIN_LENGTH) hstart]
      by_cases hdata : data = []
      · subst hdata
        simp only [receives_nil_cons]
        exact ih hbytes hbuffer
      · rw [List.flatten_cons, ← List.append_assoc] at hbytes
        obtain ⟨whole, more, cut, rfl, hread, hmore, hcut⟩ := exists_cut hbytes
        have hpending : ∀ n, pending (whole ++ more) (client.buffer.length + data.length + n) =
            pending more (cut.length + n) := by
          intro n
          rw [← List.length_append, hread, List.length_append, Nat.add_assoc, pending_append]
        simp only [hpending]
        -- either the simulator waits for the rest of the cut command, or it has taken it
        by_cases hearly : cut.length < CMD_MIN_LENGTH
        · have hdigits : digits (latin1OfBytes cut) = [] := by
            rcases hcut with rfl | ⟨c, tail, rest, -, hc, -⟩
            · rfl
            · exact digits_of_cut hc
          simp only [receives_early hdata hread hdigits hearly, List.forall_mem_append]
          rw [requests_waiting_iff, @ih (waiting client whole cut) more hmore hearly, and_assoc,
            and_comm (a := ∀ c ∈ more, c.Fits)]
          rfl
        · rcases hcut with rfl | ⟨c, tail, rest, rfl, hc, hrest⟩
          · exact absurd (show 0 < 22 by decide) hearly
          · refine iff_of_false
              (not_receives_late hdata hread hc hrest (Nat.le_of_not_lt hearly)) fun hall => ?_
            have hend := hall.1 0
            rw [List.take_zero, List.flatten_nil, List.length_nil, Nat.add_zero,
              pending_cut hc hrest] at hend
            exact hearly hend

theorem arrive_iff_endsEarly (h : chunks.flatten = cs.flatMap bytes) :
    Arrive cs chunks ↔ EndsEarly cs chunks ∧ ∀ c ∈ cs, c.Fits := by
  rw [Arrive, EndsEarly]
  refine (receives_requests_iff h.symm (by decide)).trans ?_
  simp only [List.length_nil, Nat.zero_add]

/-- **Commands of the coder.** A call returns if and only if there are only commands and fewer than
22 bytes in the buffer, and a stream of commands arrives if and only if every read ends early in a
command and every device is an `int`. -/
theorem commands_arrive_iff (h : chunks.flatten = cs.flatMap bytes) :
    (∀ client data, data ≠ [] → (Returns client data ↔ AreCommands (client.buffer ++ data))) ∧
      (Arrive cs chunks ↔ EndsEarly cs chunks ∧ ∀ c ∈ cs, c.Fits) :=
  ⟨fun _ _ hdata => returns_iff hdata, arrive_iff_endsEarly h⟩

/-- The second command is cut in its first words. -/
theorem arrive_of_early_cut : Arrive [getBoardList, commandToBpla 101 622]
    [toAscii "user link command ctrluser".toList, toAscii " link command b101d622".toList] := by
  refine (commands_arrive_iff (by decide +kernel)).2.mpr ⟨fun k => ?_, ?_⟩
  · match k with
    | 0 | 1 => decide +kernel
    | k + 2 =>
        rw [List.take_of_length_le (by simp)]
        decide +kernel
  · simp [Fits]

/-- A call does not return on 22 bytes that are no command, and a device that is cut in its number
is registered under a part of it. -/
theorem hangs_and_misreads :
    ¬ Returns {} (List.replicate 22 120) ∧
      ¬ Arrive [commandToBpla 101 622]
        [toAscii "user link command b101d6".toList, toAscii "22".toList] := by
  constructor
  · intro hreturns
    obtain ⟨fuel, client, hread⟩ := hreturns
    rw [readyRead, if_neg (by decide), execute_of_none (by decide +kernel) (by decide)] at hread
    cases hread
  · intro harrive
    rw [arrive_iff_endsEarly (by decide +kernel)] at harrive
    exact absurd (harrive.1 1) (by decide +kernel)

end KtrCommand

end ArmOd
