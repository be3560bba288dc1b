import ArmOd.Tcp.BaseTcpDeviceController

/-!
# TcpArmrClientCoder

The coder of the connection to ARM-R. A packet is framed by the preamble, the size of its body in
four bytes and the body, and `encode` passes over the seven bytes before the body without looking at
them, then parses all the rest of the read as one packet. Protobuf is a parameter: what it makes of
bytes, and what it makes of a negative size, where it reads memory outside of the read.
-/

namespace ArmOd

/-- `Zaviruha::Actions`. -/
inductive Actions where
  | unknownAction
  | sendAtlantDirection
  | sendAtlantPosition
  | sendBplaPoints
  | sendBplaPointsAuto
  | sendSolverData
  | sendSolverClear
  deriving DecidableEq, Repr

structure Protobuf where
  Packet : Type
  /-- `packet.command().action()`. -/
  action : Packet → Actions
  serialize : Packet → List UInt8
  parse : List UInt8 → Option Packet
  /-- The outcome of `ParseFromArray` with a negative size, after a read of these bytes. -/
  parseOutside : List UInt8 → Option Packet

namespace TcpArmrClientCoder

def TCP_ZAVIRUHA_PREAMBULA : List UInt8 := "ZAV".toList.map fun c => UInt8.ofNat c.toNat
def TCP_ZAVIRUHA_PREAMBULA_LEN : Nat := 7

/-- A `QString` of one character. -/
def method (code : Nat) : String := String.singleton (Char.ofNat code)

def ARM_R_SERVER_BPLA_COORDS : Nat := 5001
def ARM_R_SERVER_BPLA_COORDS_AUTO : Nat := 5002
def ARM_R_SERVER_ATLANT_DIRECTION : Nat := 7001
def ARM_R_SERVER_ATLANT_POSITION : Nat := 7002

def methodOf : Actions → String
  | .sendAtlantDirection => method ARM_R_SERVER_ATLANT_DIRECTION
  | .sendAtlantPosition => method ARM_R_SERVER_ATLANT_POSITION
  | .sendBplaPoints => method ARM_R_SERVER_BPLA_COORDS
  | .sendBplaPointsAuto => method ARM_R_SERVER_BPLA_COORDS_AUTO
  | .unknownAction | .sendSolverData | .sendSolverClear => ""

variable (pb : Protobuf)

/-- The size `encode` gives to `ParseFromArray`. -/
def parsedSize (data : List UInt8) : Int := data.length - TCP_ZAVIRUHA_PREAMBULA_LEN

def parseFromArray (data : List UInt8) : Option pb.Packet :=
  if 0 ≤ parsedSize data then pb.parse (data.drop TCP_ZAVIRUHA_PREAMBULA_LEN)
    else pb.parseOutside data

/-- The message of a packet that came as these bytes. -/
def messageOf (packet : pb.Packet) (data : List UInt8) : Message :=
  { type := methodOf (pb.action packet), data := data.map .byte }

def encode (_ : Unit) (data : List UInt8) : Option (Unit × Option Message) :=
  some ((), (parseFromArray pb data).map fun packet => messageOf pb packet data)

/-- An `unsigned int` as its bytes. -/
def littleEndian (n : Nat) : List UInt8 :=
  [UInt8.ofNat n, UInt8.ofNat (n / 2 ^ 8), UInt8.ofNat (n / 2 ^ 16), UInt8.ofNat (n / 2 ^ 24)]

/-- A packet as `decode` frames it. -/
def frame (packet : pb.Packet) : List UInt8 :=
  TCP_ZAVIRUHA_PREAMBULA ++ littleEndian (pb.serialize packet).length ++ pb.serialize packet

/-! ### Framing -/

open BaseTcpDeviceController

/-- The listeners are told exactly these messages, in this order. -/
def Yields (fuel : Nat) (chunks : List (List UInt8)) (messages : List Message) : Prop :=
  receive (encode pb) fuel () chunks = some (messages, ())

/-- What one read is told as. -/
def deliver (data : List UInt8) : Option Message :=
  nonEmpty ((parseFromArray pb data).map fun packet => messageOf pb packet data)

variable {pb}

theorem data_of_deliver {data : List UInt8} {m : Message} (h : deliver pb data = some m) :
    m.data = data.map .byte ∧ data ≠ [] := by
  obtain ⟨hmessage, hdata⟩ := Option.filter_eq_some_iff.mp h
  obtain ⟨packet, -, rfl⟩ := Option.map_eq_some_iff.mp hmessage
  refine ⟨rfl, fun hnil => ?_⟩
  simp [messageOf, hnil] at hdata

theorem deliver_nil : deliver pb [] = none := by
  cases h : deliver pb [] with
  | none => rfl
  | some m => exact absurd rfl (data_of_deliver h).2

/-- The empty read ends the loop, whatever is made of it. -/
theorem drain_encode (fuel : Nat) : drain (encode pb) (fuel + 1) () = some ([], ()) := by
  have hnil : nonEmpty ((parseFromArray pb []).map fun packet => messageOf pb packet [])
    = none := deliver_nil
  simp [drain, encode, hnil]

theorem receive_encode (fuel : Nat) (chunks : List (List UInt8)) :
    receive (encode pb) (fuel + 1) () chunks = some (chunks.filterMap (deliver pb), ()) := by
  induction chunks with
  | nil => rfl
  | cons data chunks ih =>
      have hread : onDataReceived (encode pb) (fuel + 1) () data = some
        ((deliver pb data).toList, ()) := by
        rw [onDataReceived, encode, deliver]
        simp only [Option.bind_eq_bind, Option.bind_some]
        cases nonEmpty ((parseFromArray pb data).map fun packet => messageOf pb packet data) with
        | none => rfl
        | some m => simp [drain_encode]
      simp only [receive, hread, Option.bind_eq_bind, Option.bind_some, ih, List.filterMap_cons]
      cases deliver pb data <;> rfl

theorem yields_iff {fuel : Nat} {chunks : List (List UInt8)} {messages : List Message} :
    Yields pb (fuel + 1) chunks messages ↔ chunks.filterMap (deliver pb) = messages := by
  rw [Yields, receive_encode, Option.some_inj, Prod.mk.injEq, and_iff_left rfl]

theorem length_frame (packet : pb.Packet) : (frame pb packet).length = TCP_ZAVIRUHA_PREAMBULA_LEN +
    (pb.serialize packet).length := by
  rw [frame, List.length_append, List.length_append]
  rfl

theorem deliver_frame {packet : pb.Packet} (hparse : pb.parse (pb.serialize packet) = some packet) :
    deliver pb (frame pb packet) = some (messageOf pb packet (frame pb packet)) := by
  have hsize : 0 ≤ parsedSize (frame pb packet) := by
    rw [parsedSize, length_frame]
    omega
  have hdrop : (frame pb packet).drop TCP_ZAVIRUHA_PREAMBULA_LEN = pb.serialize packet := rfl
  rw [deliver, parseFromArray, if_pos hsize, hdrop, hparse]
  rfl

theorem data_sublist (chunks : List (List UInt8)) :
    ((chunks.filterMap (deliver pb)).map Message.data).Sublist
    ((chunks.filter (· ≠ [])).map (List.map .byte)) := by
  induction chunks with
  | nil => exact .slnil
  | cons data chunks ih =>
      cases hdeliver : deliver pb data with
      | none =>
          rw [List.filterMap_cons_none hdeliver]
          exact ih.trans (((List.sublist_cons_self data chunks).filter _).map _)
      | some m =>
          obtain ⟨hdata, hne⟩ := data_of_deliver hdeliver
          rw [List.filterMap_cons_some hdeliver, List.filter_cons_of_pos (by simpa using hne),
            List.map_cons, List.map_cons, hdata]
          exact ih.cons_cons _

theorem eq_of_sublist_of_flatten_length {α : Type} {xs ys : List (List α)} (h : xs.Sublist ys)
    (hne : ∀ y ∈ ys, y ≠ [])
    (hlength : xs.flatten.length = ys.flatten.length) : xs = ys := by
  induction h with
  | slnil => rfl
  | cons y hsub ih =>
      have hle := hsub.flatten.length_le
      have hpos := List.length_pos_iff.mpr (hne y List.mem_cons_self)
      simp only [List.flatten_cons, List.length_append] at hlength
      omega
  | cons_cons y hsub ih =>
      rw [List.flatten_cons, List.flatten_cons, List.length_append, List.length_append,
        Nat.add_left_cancel_iff] at hlength
      rw [ih (fun z hz => hne z (List.mem_cons_of_mem y hz)) hlength]

theorem flatten_filter_ne_nil {α : Type} [DecidableEq α] (chunks : List (List α)) :
    (chunks.filter (· ≠ [])).flatten = chunks.flatten := by
  induction chunks with
  | nil => rfl
  | cons data chunks ih =>
      by_cases hdata : data = []
      · rw [hdata, List.filter_cons_of_neg (by simp), ih, List.flatten_cons, List.nil_append]
      · rw [List.filter_cons_of_pos (by simpa using hdata), List.flatten_cons, ih,
          List.flatten_cons]

/-- The packets are told if and only if every read that is not empty is one frame. -/
theorem yields_frames_iff (hparse : ∀ packet, pb.parse (pb.serialize packet) = some packet)
    {fuel : Nat} {packets : List pb.Packet}
    {chunks : List (List UInt8)} (hbytes : chunks.flatten = (packets.map (frame pb)).flatten) :
    Yields pb (fuel + 1) chunks (packets.map fun packet => messageOf pb packet (frame pb packet)) ↔
      chunks.filter (· ≠ []) = packets.map (frame pb) := by
  rw [yields_iff]
  constructor
  · intro htold
    have hsub : ((chunks.filterMap (deliver pb)).map Message.data).Sublist _ := data_sublist chunks
    have hdata : (packets.map fun packet => messageOf pb packet (frame pb packet)).map
      Message.data =
        (packets.map (frame pb)).map (List.map Item.byte) := by
      rw [List.map_map, List.map_map]
      rfl
    rw [htold, hdata] at hsub
    have hbyte : Function.Injective (List.map Item.byte) :=
      List.map_injective_iff.mpr fun a b hab => by cases hab; rfl
    refine (List.map_injective_iff.mpr hbyte (eq_of_sublist_of_flatten_length hsub ?_ ?_)).symm
    · intro data hmem
      obtain ⟨bytes, hbytes', rfl⟩ := List.mem_map.mp hmem
      simpa using (List.mem_filter.mp hbytes').2
    · rw [← List.map_flatten, ← List.map_flatten, List.length_map, List.length_map,
        flatten_filter_ne_nil, hbytes]
  · intro hframes
    have hskip : chunks.filterMap (deliver pb) =
      (chunks.filter (· ≠ [])).filterMap (deliver pb) := by
      rw [List.filterMap_filter]
      refine List.filterMap_congr fun data _ => ?_
      by_cases hdata : data = [] <;> simp [hdata, deliver_nil]
    rw [hskip, hframes, List.filterMap_map]
    exact List.filterMap_eq_map_iff_forall_eq_some.mpr fun packet _ => deliver_frame (hparse packet)

/-- Nothing is told if and only if no read that is not empty parses after its seventh byte. -/
theorem yields_nil_iff {fuel : Nat} {chunks : List (List UInt8)} :
    Yields pb (fuel + 1) chunks [] ↔ ∀ data ∈ chunks, data ≠ [] →
      parseFromArray pb data = none := by
  rw [yields_iff, List.filterMap_eq_nil_iff]
  refine forall₂_congr fun data _ => ?_
  by_cases hdata : data = []
  · simp [hdata, deliver_nil]
  · cases hparsed : parseFromArray pb data <;> simp [deliver, nonEmpty, hparsed, hdata, messageOf]

/-- **Framing.** The packets of a stream are told if and only if every read that is not empty is one
frame, and nothing is told of a stream without the preamble if and only if no such read parses after
its seventh byte. -/
theorem framing_iff (pb : Protobuf)
    (hparse : ∀ packet, pb.parse (pb.serialize packet) = some packet) (fuel : Nat) :
    (∀ (packets : List pb.Packet) (chunks : List (List UInt8)), chunks.flatten =
      (packets.map (frame pb)).flatten →
      (Yields pb (fuel + 1) chunks (packets.map fun packet =>
        messageOf pb packet (frame pb packet)) ↔
        chunks.filter (· ≠ []) = packets.map (frame pb))) ∧
    (∀ chunks : List (List UInt8), ¬ TCP_ZAVIRUHA_PREAMBULA <+: chunks.flatten →
      (Yields pb (fuel + 1) chunks [] ↔ ∀ data ∈ chunks, data ≠ [] →
      parseFromArray pb data = none)) :=
  ⟨fun _ _ hbytes => yields_frames_iff hparse hbytes, fun _ _ => yields_nil_iff⟩

/-- Packets with a command that has no arguments: field 1 of the packet holds field 1 of the
command. -/
def commands : Protobuf where
  Packet := Bool
  action := fun automatic => if automatic then .sendBplaPointsAuto else .sendBplaPoints
  serialize := fun automatic => [10, 2, 8, if automatic then 4 else 3]
  parse := fun
    | [10, 2, 8, 3] => some false
    | [10, 2, 8, 4] => some true
    | _ => none
  parseOutside := fun _ => none

theorem framing_iff_one_per_read :
    Yields commands 1 [frame commands false, frame commands true]
      [messageOf commands false (frame commands false),
      messageOf commands true (frame commands true)] :=
  ((framing_iff commands (fun packet => by cases packet <;> rfl) 0).1 [false, true] _
    rfl).mpr (by decide)

/-- Two packets in one read are lost, and a packet after foreign bytes is told. -/
theorem not_framing :
    ¬ Yields commands 1 [frame commands false ++ frame commands true]
      [messageOf commands false (frame commands false),
      messageOf commands true (frame commands true)] ∧
    ¬ Yields commands 1 [[0, 0, 0, 0, 0, 0, 0] ++ commands.serialize false] [] := by
  rw [Yields, Yields]
  decide

end TcpArmrClientCoder

end ArmOd
