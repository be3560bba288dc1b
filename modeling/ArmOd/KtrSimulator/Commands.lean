import ArmOd.KtrSimulator.KtrSimulator

/-!
# The command stream of a client

`next?` is the command at the front of a buffer and `eat` takes commands from the front while there
is one. The loop of the simulator does the same, but where `eat` stops the loop only ends if fewer
than 22 bytes are left, and a number that a read has cut is taken for a whole one. So the commands
arrive if every read ends early enough in a command for the loop to leave it alone.
-/

namespace ArmOd

namespace KtrSimulator

/-! ### One command -/

variable {text id device : Text} {buffer rest : List UInt8}

/-- The digits a text starts with. -/
def digits (text : Text) : Text := text.takeWhile Char.isDigit

theorem isDigit_of_mem_digits {c : Char} (h : c ∈ digits text) : c.isDigit :=
  List.mem_takeWhile_imp h

theorem digits_append (h : ∀ c ∈ device, c.isDigit) (text : Text) :
    digits (device ++ text) = device ++ digits text :=
  List.takeWhile_append_of_pos h

theorem digits_dropWhile (text : Text) : digits (text.dropWhile Char.isDigit) = [] := by
  induction text with
  | nil => rfl
  | cons c text ih =>
      by_cases hc : c.isDigit
      · rw [List.dropWhile_cons_of_pos hc, ih]
      · rw [List.dropWhile_cons_of_neg hc, digits, List.takeWhile_cons_of_neg hc]

theorem registerListener?_eq_some_iff : registerListener? text = some (id, device) ↔
    ∃ rest, text = CMD_REGISTER_LISTENER ++ (id ++ 'd' :: (device ++ rest)) ∧ id ≠ [] ∧
      device ≠ [] ∧ (∀ c ∈ id, c.isDigit) ∧ (∀ c ∈ device, c.isDigit) ∧ digits rest = [] := by
  have hd : ¬ Char.isDigit 'd' := by decide
  constructor
  · intro h
    rw [registerListener?] at h
    split at h
    case isFalse => cases h
    case isTrue hfront =>
        obtain ⟨numbers, rfl⟩ := List.isPrefixOf_iff_prefix.mp hfront
        rw [List.drop_left] at h
        dsimp only at h
        split at h
        case h_2 => cases h
        case h_1 tail hdrop =>
            split at h
            case isFalse => cases h
            case isTrue hne =>
                cases h
                refine ⟨tail.dropWhile Char.isDigit, ?_, hne.1, hne.2,
                  fun c hc => List.mem_takeWhile_imp hc, fun c hc => List.mem_takeWhile_imp hc,
                  digits_dropWhile tail⟩
                rw [List.takeWhile_append_dropWhile, ← hdrop, List.takeWhile_append_dropWhile]
  · intro hmatch
    obtain ⟨rest, rfl, hid, hdevice, hids, hdevices, hrest⟩ := hmatch
    have hfront : CMD_REGISTER_LISTENER.isPrefixOf
        (CMD_REGISTER_LISTENER ++ (id ++ 'd' :: (device ++ rest))) :=
      List.isPrefixOf_iff_prefix.mpr (List.prefix_append _ _)
    have hdrop : (id ++ 'd' :: (device ++ rest)).dropWhile Char.isDigit = 'd' :: (device ++ rest) := by
      rw [List.dropWhile_append_of_pos hids, List.dropWhile_cons_of_neg hd]
    have htake : (id ++ 'd' :: (device ++ rest)).takeWhile Char.isDigit = id := by
      rw [List.takeWhile_append_of_pos hids, List.takeWhile_cons_of_neg hd, List.append_nil]
    have htake' : (device ++ rest).takeWhile Char.isDigit = device := by
      have happend := digits_append hdevices rest
      rwa [hrest, List.append_nil] at happend
    rw [registerListener?, if_pos hfront, List.drop_left]
    dsimp only
    rw [hdrop]
    simp only [htake, htake']
    rw [if_pos ⟨hid, hdevice⟩]

/-- The command at the front of a buffer, and what is behind it. -/
def next? (buffer : List UInt8) : Option (KtrRequest × List UInt8) :=
  if CMD_LIST_BPLA.isPrefixOf (latin1OfBytes buffer) then
    some (.listBpla, buffer.drop CMD_LIST_BPLA.length)
  else (registerListener? (latin1OfBytes buffer)).map fun (id, device) =>
    (.registerListener (Text.toInt id) (Text.toInt device),
      buffer.drop (CMD_REGISTER_LISTENER.length + id.length + 1 + device.length))

theorem next?_listBpla (rest : List UInt8) :
    next? (toAscii CMD_LIST_BPLA ++ rest) = some (.listBpla, rest) := by
  have htext : latin1OfBytes (toAscii CMD_LIST_BPLA ++ rest) =
      CMD_LIST_BPLA ++ latin1OfBytes rest := latin1OfBytes_append (by decide) rest
  have hfront : CMD_LIST_BPLA.isPrefixOf (CMD_LIST_BPLA ++ latin1OfBytes rest) :=
    List.isPrefixOf_iff_prefix.mpr (List.prefix_append _ _)
  rw [next?, htext, if_pos hfront, List.drop_left' (by rw [toAscii, List.length_map])]

theorem isPlain_of_isDigit (h : ∀ c ∈ id, c.isDigit) : IsPlain id := by
  intro c hc
  have hdigit := h c hc
  rw [Char.isDigit, Bool.and_eq_true, decide_eq_true_eq, decide_eq_true_eq] at hdigit
  have hlow : 48 ≤ c.toNat := hdigit.1
  have hhigh : c.toNat ≤ 57 := hdigit.2
  omega

/-- The text of a registration. -/
def registration (id device : Text) : Text := CMD_REGISTER_LISTENER ++ (id ++ 'd' :: device)

theorem isPlain_registration (hid : ∀ c ∈ id, c.isDigit) (hdevice : ∀ c ∈ device, c.isDigit) :
    IsPlain (registration id device) := by
  intro c hc
  have hcommand : IsPlain CMD_REGISTER_LISTENER := by decide
  have hd : IsPlain ['d'] := by decide
  rcases List.mem_append.mp hc with hc | hc
  · exact hcommand c hc
  · rcases List.mem_append.mp hc with hc | hc
    · exact isPlain_of_isDigit hid c hc
    · rcases List.mem_cons.mp hc with rfl | hc
      · exact hd _ List.mem_cons_self
      · exact isPlain_of_isDigit hdevice c hc

theorem not_listBpla_of_register (h : CMD_REGISTER_LISTENER <+: text) :
    ¬ CMD_LIST_BPLA.isPrefixOf text := by
  intro hlist
  obtain ⟨tail, htail⟩ := List.isPrefixOf_iff_prefix.mp hlist
  obtain ⟨tail', rfl⟩ := h
  have hc : (CMD_LIST_BPLA ++ tail)[18]? = some 'c' := rfl
  have hb : (CMD_REGISTER_LISTENER ++ tail')[18]? = some 'b' := rfl
  rw [htail, hb] at hc
  exact absurd hc (by decide)

theorem next?_registration (hid : ∀ c ∈ id, c.isDigit) (hdevice : ∀ c ∈ device, c.isDigit)
    (hid' : id ≠ []) (hdevice' : device ≠ []) (rest : List UInt8) :
    next? (toAscii (registration id device) ++ rest) =
      some (.registerListener (Text.toInt id) (Text.toInt (device ++ digits (latin1OfBytes rest))),
        rest.drop (digits (latin1OfBytes rest)).length) := by
  have htext := latin1OfBytes_append (isPlain_registration hid hdevice) rest
  have hregister : registerListener? (registration id device ++ latin1OfBytes rest) =
      some (id, device ++ digits (latin1OfBytes rest)) := by
    refine registerListener?_eq_some_iff.mpr
      ⟨(latin1OfBytes rest).dropWhile Char.isDigit, ?_, hid', ?_, hid, ?_, digits_dropWhile _⟩
    · rw [registration, List.append_assoc device, digits, List.takeWhile_append_dropWhile]
      simp only [List.append_assoc, List.cons_append]
    · exact List.append_ne_nil_of_left_ne_nil hdevice' _
    · intro c hc
      exact (List.mem_append.mp hc).elim (hdevice c) isDigit_of_mem_digits
  have hlist : ¬ CMD_LIST_BPLA.isPrefixOf (registration id device ++ latin1OfBytes rest) := by
    refine not_listBpla_of_register ?_
    rw [registration, List.append_assoc]
    exact List.prefix_append _ _
  rw [next?, htext, if_neg hlist, hregister, Option.map_some]
  dsimp only
  congr 2
  have hlength : CMD_REGISTER_LISTENER.length + id.length + 1 +
      (device ++ digits (latin1OfBytes rest)).length =
      (toAscii (registration id device)).length + (digits (latin1OfBytes rest)).length := by
    simp only [toAscii, registration, List.length_map, List.length_append, List.length_cons]
    omega
  rw [hlength, ← List.drop_drop, List.drop_left]

/-- The bytes of a command. -/
def IsCommand (bytes : List UInt8) : Prop :=
  bytes = toAscii CMD_LIST_BPLA ∨ ∃ id device, id ≠ [] ∧ device ≠ [] ∧ (∀ c ∈ id, c.isDigit) ∧
    (∀ c ∈ device, c.isDigit) ∧ bytes = toAscii (registration id device)

theorem isCommand_of_next? {request : KtrRequest} (h : next? buffer = some (request, rest)) :
    ∃ bytes, IsCommand bytes ∧ buffer = bytes ++ rest := by
  rw [next?] at h
  split at h
  case isTrue hlist =>
      obtain ⟨tail, rfl⟩ := prefix_of_prefix_latin1 (List.isPrefixOf_iff_prefix.mp hlist)
      cases h
      refine ⟨toAscii CMD_LIST_BPLA, Or.inl rfl, ?_⟩
      rw [List.drop_left' (by rw [toAscii, List.length_map])]
  case isFalse =>
      obtain ⟨⟨id, device⟩, hregister, heq⟩ := Option.map_eq_some_iff.mp h
      cases heq
      obtain ⟨tail, htext, hid, hdevice, hids, hdevices, -⟩ :=
        registerListener?_eq_some_iff.mp hregister
      have hfront : registration id device <+: latin1OfBytes buffer := by
        refine ⟨tail, ?_⟩
        rw [htext, registration]
        simp only [List.append_assoc, List.cons_append]
      obtain ⟨rest, rfl⟩ := prefix_of_prefix_latin1 hfront
      refine ⟨_, Or.inr ⟨id, device, hid, hdevice, hids, hdevices, rfl⟩, ?_⟩
      rw [List.drop_left']
      simp only [toAscii, registration, List.length_map, List.length_append, List.length_cons]
      omega

theorem length_of_isCommand {bytes : List UInt8} (h : IsCommand bytes) :
    CMD_MIN_LENGTH ≤ bytes.length := by
  have hlist : CMD_LIST_BPLA.length = 22 := rfl
  have hregister : CMD_REGISTER_LISTENER.length = 19 := rfl
  rcases h with rfl | ⟨id, device, hid, hdevice, -, -, rfl⟩
  · rw [toAscii, List.length_map, hlist]
    rfl
  · have hid' := List.length_pos_iff.mpr hid
    have hdevice' := List.length_pos_iff.mpr hdevice
    simp only [toAscii, registration, List.length_map, List.length_append, List.length_cons,
      CMD_MIN_LENGTH]
    omega

/-! ### The loop -/

theorem length_of_next? {request : KtrRequest} (h : next? buffer = some (request, rest)) :
    rest.length + CMD_MIN_LENGTH ≤ buffer.length := by
  obtain ⟨bytes, hcommand, rfl⟩ := isCommand_of_next? h
  have hlength := length_of_isCommand hcommand
  rw [List.length_append]
  omega

/-- All commands at the front of a buffer, and what is behind them. -/
def eat (buffer : List UInt8) : List KtrRequest × List UInt8 :=
  match _h : next? buffer with
  | none => ([], buffer)
  | some (request, rest) => (request :: (eat rest).1, (eat rest).2)
termination_by buffer.length
decreasing_by
  all_goals
    have hlength := length_of_next? _h
    rw [CMD_MIN_LENGTH] at hlength
    omega

theorem eat_of_none (h : next? buffer = none) : eat buffer = ([], buffer) := by
  rw [eat]
  split
  · rfl
  · rename_i hsome
    rw [h] at hsome
    cases hsome

theorem eat_of_some {request : KtrRequest} (h : next? buffer = some (request, rest)) :
    eat buffer = (request :: (eat rest).1, (eat rest).2) := by
  rw [eat]
  split
  · rename_i hnone
    rw [h] at hnone
    cases hnone
  · rename_i hsome
    rw [h] at hsome
    cases hsome
    rfl

theorem eat_of_short (h : buffer.length < CMD_MIN_LENGTH) : eat buffer = ([], buffer) := by
  refine eat_of_none ?_
  by_contra hsome
  obtain ⟨⟨request, rest⟩, hnext⟩ := Option.ne_none_iff_exists'.mp hsome
  have hlength := length_of_next? hnext
  omega

/-- Commands, and fewer bytes behind them than a command has. -/
def AreCommands (buffer : List UInt8) : Prop :=
  ∃ (commands : List (List UInt8)) (rest : List UInt8), (∀ bytes ∈ commands, IsCommand bytes) ∧
    buffer = commands.flatten ++ rest ∧ rest.length < CMD_MIN_LENGTH

theorem exists_commands_eat (buffer : List UInt8) : ∃ commands : List (List UInt8),
    (∀ bytes ∈ commands, IsCommand bytes) ∧ buffer = commands.flatten ++ (eat buffer).2 := by
  fun_induction eat buffer with
  | case1 buffer h => exact ⟨[], by simp, rfl⟩
  | case2 buffer request rest h ih =>
      obtain ⟨bytes, hcommand, rfl⟩ := isCommand_of_next? h
      obtain ⟨commands, hcommands, hrest⟩ := ih
      refine ⟨bytes :: commands, List.forall_mem_cons.mpr ⟨hcommand, hcommands⟩, ?_⟩
      rw [List.flatten_cons, List.append_assoc, ← hrest]

theorem length_eat_le (buffer : List UInt8) : (eat buffer).2.length ≤ buffer.length := by
  obtain ⟨commands, -, hbuffer⟩ := exists_commands_eat buffer
  have hlength := congrArg List.length hbuffer
  rw [List.length_append] at hlength
  omega

theorem exists_cons_of_isCommand {bytes : List UInt8} (h : IsCommand bytes) :
    ∃ tail, bytes = 117 :: tail := by
  rcases h with rfl | ⟨id, device, -, -, -, -, rfl⟩ <;> exact ⟨_, rfl⟩

theorem digits_of_isCommand {bytes : List UInt8} (h : IsCommand bytes) (rest : List UInt8) :
    digits (latin1OfBytes (bytes ++ rest)) = [] := by
  obtain ⟨tail, rfl⟩ := exists_cons_of_isCommand h
  rfl

/-- A command is taken from the front, and with it the digits behind a number. -/
theorem exists_next?_of_isCommand {bytes : List UInt8} (h : IsCommand bytes) (rest : List UInt8) :
    ∃ request k, next? (bytes ++ rest) = some (request, rest.drop k) ∧
      (digits (latin1OfBytes rest) = [] → k = 0) := by
  rcases h with rfl | ⟨id, device, hid, hdevice, hids, hdevices, rfl⟩
  · exact ⟨_, 0, next?_listBpla rest, fun _ => rfl⟩
  · exact ⟨_, _, next?_registration hids hdevices hid hdevice rest,
      fun hdigits => by rw [hdigits]; rfl⟩

theorem length_eat_lt_iff : (eat buffer).2.length < CMD_MIN_LENGTH ↔ AreCommands buffer := by
  constructor
  · intro hshort
    obtain ⟨commands, hcommands, hbuffer⟩ := exists_commands_eat buffer
    exact ⟨commands, (eat buffer).2, hcommands, hbuffer, hshort⟩
  · intro hcommands
    obtain ⟨commands, rest, hcommands, rfl, hshort⟩ := hcommands
    induction commands with
    | nil => exact lt_of_le_of_lt (length_eat_le rest) hshort
    | cons bytes commands ih =>
        rw [List.forall_mem_cons] at hcommands
        have hrest := ih hcommands.2
        rw [List.flatten_cons, List.append_assoc]
        obtain ⟨request, k, hnext, hk⟩ :=
          exists_next?_of_isCommand hcommands.1 (commands.flatten ++ rest)
        rw [eat_of_some hnext]
        match commands with
        | [] =>
            -- the digits behind the last number may go with it
            refine lt_of_le_of_lt (length_eat_le _) ?_
            rw [List.flatten_nil, List.nil_append, List.length_drop]
            omega
        | bytes' :: commands =>
            have hcommand := hcommands.2 bytes' List.mem_cons_self
            have hzero : k = 0 := hk (by
              rw [List.flatten_cons, List.append_assoc]
              exact digits_of_isCommand hcommand _)
            rw [hzero, List.drop_zero]
            exact hrest

namespace KtrClient

variable {client client' : KtrClient}

/-- The client after all commands at the front of its buffer. -/
def eaten (client : KtrClient) : KtrClient where
  buffer := (eat client.buffer).2
  requests := client.requests ++ (eat client.buffer).1

theorem eaten_of_next? {request : KtrRequest} (h : next? client.buffer = some (request, rest)) :
    eaten { buffer := rest, requests := client.requests ++ [request] } = client.eaten := by
  rw [eaten, eaten, eat_of_some h, List.append_assoc]
  rfl

theorem eaten_executeListBpla : client.executeListBpla.eaten = client.eaten := by
  rw [executeListBpla]
  split
  case isTrue hlist => exact eaten_of_next? (by rw [next?, if_pos hlist])
  case isFalse => rfl

theorem eaten_executeRegisterListener : client.executeRegisterListener.eaten = client.eaten := by
  rw [executeRegisterListener]
  split
  case h_1 id device hregister =>
      obtain ⟨tail, htext, -⟩ := registerListener?_eq_some_iff.mp hregister
      have hlist := not_listBpla_of_register ⟨_, htext.symm⟩
      exact eaten_of_next? (by rw [next?, if_neg hlist, hregister]; rfl)
  case h_2 => rfl

theorem round_of_none (h : next? client.buffer = none) :
    client.executeListBpla.executeRegisterListener = client := by
  rw [next?] at h
  split at h
  case isTrue => cases h
  case isFalse hlist =>
      rw [executeListBpla, if_neg hlist, executeRegisterListener, Option.map_eq_none_iff.mp h]

theorem length_executeRegisterListener_le :
    client.executeRegisterListener.buffer.length ≤ client.buffer.length := by
  rw [executeRegisterListener]
  split
  · rw [List.length_drop]
    omega
  · exact le_rfl

theorem length_round_lt {request : KtrRequest} (h : next? client.buffer = some (request, rest)) :
    client.executeListBpla.executeRegisterListener.buffer.length < client.buffer.length := by
  have hrest := length_of_next? h
  rw [CMD_MIN_LENGTH] at hrest
  rw [next?] at h
  split at h
  case isTrue hlist =>
      cases h
      refine lt_of_le_of_lt length_executeRegisterListener_le ?_
      rw [executeListBpla, if_pos hlist]
      dsimp only
      omega
  case isFalse hlist =>
      obtain ⟨⟨id, device⟩, hregister, heq⟩ := Option.map_eq_some_iff.mp h
      cases heq
      rw [executeListBpla, if_neg hlist, executeRegisterListener, hregister]
      dsimp only
      omega

theorem eaten_round : client.executeListBpla.executeRegisterListener.eaten = client.eaten :=
  eaten_executeRegisterListener.trans eaten_executeListBpla

theorem execute_of_none (h : next? client.buffer = none)
    (hlong : CMD_MIN_LENGTH ≤ client.buffer.length) (fuel : Nat) : execute fuel client = none := by
  induction fuel with
  | zero => rfl
  | succ fuel ih => rw [execute, if_pos hlong, round_of_none h, ih]

/-- **The loop** ends if and only if fewer than 22 bytes are left where no command is at the front. -/
theorem execute_iff : (∃ fuel, execute fuel client = some client') ↔
    client' = client.eaten ∧ client.eaten.buffer.length < CMD_MIN_LENGTH := by
  induction hn : client.buffer.length using Nat.strong_induction_on generalizing client with
  | _ n ih =>
      subst hn
      by_cases hlong : CMD_MIN_LENGTH ≤ client.buffer.length
      · cases hnext : next? client.buffer with
        | none =>
            have heaten : client.eaten.buffer = client.buffer := by
              rw [eaten, eat_of_none hnext]
            rw [heaten]
            refine iff_of_false ?_ fun h => absurd h.2 (Nat.not_lt.mpr hlong)
            intro hreturns
            obtain ⟨fuel, hfuel⟩ := hreturns
            rw [execute_of_none hnext hlong] at hfuel
            cases hfuel
        | some next =>
            rw [← eaten_round, ← ih _ (length_round_lt hnext) rfl]
            constructor
            · intro hreturns
              obtain ⟨fuel, hfuel⟩ := hreturns
              cases fuel with
              | zero => cases hfuel
              | succ fuel =>
                  rw [execute, if_pos hlong] at hfuel
                  exact ⟨fuel, hfuel⟩
            · intro hreturns
              obtain ⟨fuel, hfuel⟩ := hreturns
              exact ⟨fuel + 1, by rw [execute, if_pos hlong, hfuel]⟩
      · have heaten : client.eaten = client := by
          rw [eaten, eat_of_short (Nat.lt_of_not_le hlong), List.append_nil]
        rw [heaten]
        constructor
        · intro hreturns
          obtain ⟨fuel, hfuel⟩ := hreturns
          cases fuel with
          | zero => cases hfuel
          | succ fuel =>
              rw [execute, if_neg hlong] at hfuel
              cases hfuel
              exact ⟨rfl, Nat.lt_of_not_le hlong⟩
        · intro hresult
          obtain ⟨rfl, -⟩ := hresult
          exact ⟨1, by rw [execute, if_neg hlong]⟩

/-- A call returns. -/
def Returns (client : KtrClient) (data : List UInt8) : Prop :=
  ∃ fuel client', client.readyRead fuel data = some client'

theorem readyRead_iff {data : List UInt8} (hdata : data ≠ []) :
    (∃ fuel, client.readyRead fuel data = some client') ↔
      client' = eaten { client with buffer := client.buffer ++ data } ∧
      AreCommands (client.buffer ++ data) := by
  simp only [readyRead, if_neg hdata, execute_iff, ← length_eat_lt_iff]
  rfl

theorem returns_iff {data : List UInt8} (hdata : data ≠ []) :
    client.Returns data ↔ AreCommands (client.buffer ++ data) := by
  rw [Returns, exists_comm]
  simp only [readyRead_iff hdata]
  exact ⟨fun ⟨_, _, h⟩ => h, fun h => ⟨_, rfl, h⟩⟩

end KtrClient

end KtrSimulator

end ArmOd
