import Mathlib

/-!
# BullionClient

The client of the raw ADS-B data keeps what it has received and looks for packets in it, `*`, a body
and the three bytes `;`, `\n` and `\r`. Its test for a waiting packet wants a byte behind the last
packet, one that starts no new packet: in a stream of packets there is none.

A call of the slot runs its loop for at most `fuel` rounds; `none` says that it has not ended by
then, or that it has written behind the end of `min_buf`.
-/

namespace ArmOd

/-- What the client emits. -/
inductive BullionSignal where
  | signal_SendMessage (str : String)
  | signal_DataHasCame (data : List UInt8)
  deriving DecidableEq, Repr

structure BullionClient where
  m_dataFromTcpSocket : List UInt8 := []
  /-- What has been emitted so far. -/
  signals : List BullionSignal := []
  deriving DecidableEq, Repr

namespace BullionClient

def max_packet_lenght : Nat := 1000000
def pack_len : Nat := 1000

def star : UInt8 := 42
def semicolon : UInt8 := 59
def newline : UInt8 := 10
def carriageReturn : UInt8 := 13

/-- `QByteArray::lastIndexOf`. -/
def lastIndexOf (b : UInt8) (data : List UInt8) : Int :=
  if b ∈ data then data.length - 1 - (data.reverse.idxOf b : Nat) else -1

def HasWaitingPacket (data : List UInt8) : Bool :=
  let prefixIndex := lastIndexOf star data
  let suffixIndex := lastIndexOf semicolon data
  let suffixIndex1 := lastIndexOf newline data
  let suffixIndex2 := lastIndexOf carriageReturn data
  decide (prefixIndex ≥ 0 ∧ suffixIndex > 0 ∧ suffixIndex > prefixIndex ∧
    data.length > suffixIndex + 3 ∧ suffixIndex1 = suffixIndex + 1 ∧
    suffixIndex2 = suffixIndex1 + 1)

/-- The scan of the data for a packet: the packet and what is behind it. `before` is what has been
scanned, the last byte first, and `min_buf` what has been written of a packet. -/
def scan (before : List UInt8) (min_buf : Option (List UInt8)) :
    List UInt8 → Option (Option (List UInt8 × List UInt8))
  | [] => some none
  | b :: rest =>
    match if min_buf = none ∧ b = star then some [] else min_buf with
    | none => scan (b :: before) none rest
    | some written =>
      if pack_len ≤ written.length then none
      else if [newline, semicolon].isPrefixOf before ∧ b = carriageReturn then
        some (some (written ++ [b], rest))
      else scan (b :: before) (some (written ++ [b])) rest

/-- Data over the limit is cut to as many bytes as it is over it. -/
def limit (client : BullionClient) : BullionClient :=
  let length := client.m_dataFromTcpSocket.length
  if max_packet_lenght < length then
    { m_dataFromTcpSocket :=
        client.m_dataFromTcpSocket.drop (length - (length - max_packet_lenght))
      signals := client.signals ++ [.signal_SendMessage
        "Размер буфера превысил свой предел, удаляем данные с начала..."] }
  else client

/-- The loop over the packets. -/
def takePackets : Nat → BullionClient → Option BullionClient
  | 0, _ => none
  | fuel + 1, client =>
    if HasWaitingPacket client.m_dataFromTcpSocket then
      match scan [] none client.limit.m_dataFromTcpSocket with
      | none => none
      | some none => takePackets fuel client.limit
      | some (some (packet, rest)) => takePackets fuel
          { m_dataFromTcpSocket := rest
            signals := client.limit.signals ++ [.signal_DataHasCame packet] }
    else some client

def slot_ReadyRead (fuel : Nat) (client : BullionClient) (data : List UInt8) :
    Option BullionClient :=
  takePackets fuel { client with m_dataFromTcpSocket := client.m_dataFromTcpSocket ++ data }

/-- A call for every chunk. -/
def receive (fuel : Nat) (client : BullionClient) (chunks : List (List UInt8)) :
    Option BullionClient :=
  chunks.foldlM (slot_ReadyRead fuel) client

/-- The payloads of `signal_DataHasCame`. -/
def payloads (client : BullionClient) : List (List UInt8) :=
  client.signals.filterMap fun
    | .signal_DataHasCame data => some data
    | .signal_SendMessage _ => none

/-- A packet is only found where another byte has come behind it. -/
example : (receive 3 {} [[42, 56, 100, 59, 10, 13], [0]]).map payloads =
    some [[42, 56, 100, 59, 10, 13]] := by
  decide +kernel

/-! ### Streams of packets -/

/-- A packet of a sender. -/
structure Packet where
  body : List UInt8
  plain : ∀ b ∈ body, b ≠ star ∧ b ≠ semicolon
  short : body.length ≤ 990

namespace Packet

def bytes (p : Packet) : List UInt8 := star :: p.body ++ [semicolon, newline, carriageReturn]

theorem end_of_semicolon (p : Packet) {i : Nat} (h : p.bytes[i]? = some semicolon) :
    i + 3 = p.bytes.length := by
  have hlength : p.bytes.length = p.body.length + 4 := by
    rw [bytes, List.length_append, List.length_cons]
    rfl
  rw [bytes] at h
  rcases Nat.lt_trichotomy i (p.body.length + 1) with hi | hi | hi
  · rw [List.getElem?_append_left (by rw [List.length_cons]; exact hi)] at h
    rcases List.mem_cons.mp (List.mem_of_getElem? h) with hstar | hmem
    · exact absurd hstar (by decide)
    · exact absurd rfl (p.plain _ hmem).2
  · omega
  · rw [List.getElem?_append_right (by rw [List.length_cons]; omega), List.length_cons] at h
    obtain ⟨k, hk⟩ : ∃ k, i - (p.body.length + 1) = k + 1 := ⟨i - (p.body.length + 1) - 1, by omega⟩
    rw [hk, List.getElem?_cons_succ] at h
    have hmem := List.mem_of_getElem? h
    exact absurd hmem (by decide)

/-- The packets that are complete after so many bytes. -/
def complete : List Packet → Nat → List Packet
  | [], _ => []
  | p :: packets, n =>
    if p.bytes.length ≤ n then p :: complete packets (n - p.bytes.length) else []

end Packet

/-- After every call, what has come in all payloads are the packets that are complete. -/
def Frames (packets : List Packet) (chunks : List (List UInt8)) : Prop :=
  ∀ k, ∃ fuel client, receive fuel {} (chunks.take k) = some client ∧
    client.payloads.flatten =
      (Packet.complete packets (chunks.take k).flatten.length).flatMap Packet.bytes

variable {client : BullionClient} {packets : List Packet} {chunks : List (List UInt8)}
  {data : List UInt8} {b : UInt8} {i : Nat}

theorem mem_of_lastIndexOf (h : 0 ≤ lastIndexOf b data) : b ∈ data := by
  by_contra hmem
  rw [lastIndexOf, if_neg hmem] at h
  omega

theorem lastIndexOf_of_mem (h : b ∈ data) :
    data.reverse.idxOf b < data.length ∧
      lastIndexOf b data = (data.length - 1 - data.reverse.idxOf b : Nat) := by
  have hlt : data.reverse.idxOf b < data.length := by
    rw [← List.length_reverse]
    exact List.idxOf_lt_length_of_mem (List.mem_reverse.mpr h)
  refine ⟨hlt, ?_⟩
  rw [lastIndexOf, if_pos h]
  omega

theorem getElem?_of_lastIndexOf (h : lastIndexOf b data = i) : data[i]? = some b := by
  have hmem : b ∈ data := mem_of_lastIndexOf (by omega)
  obtain ⟨hlt, hindex⟩ := lastIndexOf_of_mem hmem
  have hi : i = data.length - 1 - data.reverse.idxOf b := by omega
  rw [hi, ← List.getElem?_reverse hlt, List.getElem?_idxOf (List.mem_reverse.mpr hmem)]

theorem ne_of_lastIndexOf_lt (h : lastIndexOf b data < i) : data[i]? ≠ some b := by
  intro hi
  obtain ⟨hlt, hindex⟩ := lastIndexOf_of_mem (List.mem_of_getElem? hi)
  have hlong := (List.getElem?_eq_some_iff.mp hi).1
  have hreverse : data.reverse[data.length - 1 - i]? = some b :=
    (List.getElem?_reverse' (by omega)).trans hi
  obtain ⟨hlong', hget⟩ := List.getElem?_eq_some_iff.mp hreverse
  have hbefore : data.length - 1 - i < data.reverse.findIdx (· == b) := by
    change _ < data.reverse.idxOf b
    omega
  have hne := List.not_of_lt_findIdx hbefore
  rw [hget, beq_self_eq_true] at hne
  cases hne

/-- Behind the end of a packet the next one starts, if anything is there. -/
theorem star_of_semicolon (h : (packets.flatMap Packet.bytes)[i]? = some semicolon)
    (hb : (packets.flatMap Packet.bytes)[i + 3]? = some b) : b = star := by
  induction packets generalizing i with
  | nil => cases h
  | cons p packets ih =>
      rw [List.flatMap_cons] at h hb
      by_cases hi : i < p.bytes.length
      · rw [List.getElem?_append_left hi] at h
        have hend := p.end_of_semicolon h
        rw [List.getElem?_append_right (by omega), hend, Nat.sub_self] at hb
        match packets with
        | [] => cases hb
        | p' :: packets => exact (Option.some.inj hb).symm
      · rw [List.getElem?_append_right (by omega)] at h hb
        rw [show i + 3 - p.bytes.length = i - p.bytes.length + 3 by omega] at hb
        exact ih h hb

theorem not_hasWaitingPacket (h : data <+: packets.flatMap Packet.bytes) :
    HasWaitingPacket data = false := by
  rw [HasWaitingPacket, decide_eq_false_iff_not]
  intro hwaiting
  obtain ⟨-, hpos, hlast, hlong, -, -⟩ := hwaiting
  obtain ⟨i, hi⟩ : ∃ i : Nat, lastIndexOf semicolon data = i := ⟨_, (Int.toNat_of_nonneg hpos.le).symm⟩
  obtain ⟨rest, hrest⟩ := h
  have hstream : ∀ {j : Nat} {x : UInt8}, data[j]? = some x →
      (packets.flatMap Packet.bytes)[j]? = some x := by
    intro j x hx
    rw [← hrest, List.getElem?_append_left (List.getElem?_eq_some_iff.mp hx).1, hx]
  rw [hi] at hlast hlong
  have hnext : data[i + 3]? = some data[i + 3] := List.getElem?_eq_getElem (by omega)
  have hstar := star_of_semicolon (hstream (getElem?_of_lastIndexOf hi)) (hstream hnext)
  rw [hstar] at hnext
  exact ne_of_lastIndexOf_lt (by omega) hnext

theorem slot_ReadyRead_eq {fuel : Nat} {client' : BullionClient}
    (h : client.m_dataFromTcpSocket ++ data <+: packets.flatMap Packet.bytes) :
    slot_ReadyRead fuel client data = some client' ↔ 0 < fuel ∧
      client' = { client with m_dataFromTcpSocket := client.m_dataFromTcpSocket ++ data } := by
  cases fuel with
  | zero => exact ⟨nofun, fun hfuel => absurd hfuel.1 (Nat.lt_irrefl 0)⟩
  | succ fuel =>
      rw [slot_ReadyRead, takePackets]
      dsimp only
      rw [not_hasWaitingPacket h]
      simp [eq_comm]

/-- **Nothing is emitted** of a stream of packets. -/
theorem eq_of_receive {fuel : Nat} (h : chunks.flatten <+: packets.flatMap Packet.bytes)
    (hreceive : receive fuel {} chunks = some client) :
    client = { m_dataFromTcpSocket := chunks.flatten } := by
  induction chunks using List.reverseRecOn generalizing client with
  | nil =>
      cases hreceive
      rfl
  | append_singleton chunks data ih =>
      rw [List.flatten_append, List.flatten_singleton] at h
      rw [receive, List.foldlM_append, Option.bind_eq_bind, Option.bind_eq_some_iff] at hreceive
      obtain ⟨before, hbefore, hlast⟩ := hreceive
      have heq := ih ((List.prefix_append _ _).trans h) hbefore
      subst heq
      rw [List.foldlM_cons, Option.bind_eq_bind, Option.bind_eq_some_iff] at hlast
      obtain ⟨after, hafter, hclient⟩ := hlast
      cases hclient
      rw [((slot_ReadyRead_eq h).mp hafter).2, List.flatten_append, List.flatten_singleton]

theorem receive_one (h : chunks.flatten <+: packets.flatMap Packet.bytes) :
    receive 1 {} chunks = some { m_dataFromTcpSocket := chunks.flatten } := by
  induction chunks using List.reverseRecOn with
  | nil => rfl
  | append_singleton chunks data ih =>
      rw [List.flatten_append, List.flatten_singleton] at h ⊢
      have hbefore := ih ((List.prefix_append _ _).trans h)
      rw [receive] at hbefore
      rw [receive, List.foldlM_append, hbefore, Option.bind_eq_bind, Option.bind_some,
        List.foldlM_cons, (slot_ReadyRead_eq h).mpr ⟨Nat.one_pos, rfl⟩]
      rfl

theorem complete_eq_nil_of_le {n m : Nat} (hle : n ≤ m) (h : Packet.complete packets m = []) :
    Packet.complete packets n = [] := by
  cases packets with
  | nil => rfl
  | cons p packets =>
      rw [Packet.complete] at h ⊢
      split at h
      · cases h
      · rw [if_neg (by omega)]

theorem complete_eq_nil_of_frames (h : chunks.flatten <+: packets.flatMap Packet.bytes)
    (hframes : Frames packets chunks) : Packet.complete packets chunks.flatten.length = [] := by
  obtain ⟨fuel, client, hreceive, hpayloads⟩ := hframes chunks.length
  rw [List.take_length] at hreceive hpayloads
  rw [eq_of_receive h hreceive] at hpayloads
  have hnil := List.flatMap_eq_nil_iff.mp hpayloads.symm
  refine List.eq_nil_iff_forall_not_mem.mpr fun p hp => ?_
  exact absurd (hnil p hp) (List.cons_ne_nil _ _)

/-- **Raw framing.** The packets come out as they are completed if and only if none is. -/
theorem frames_iff (h : chunks.flatten <+: packets.flatMap Packet.bytes) :
    Frames packets chunks ↔ Packet.complete packets chunks.flatten.length = [] := by
  refine ⟨complete_eq_nil_of_frames h, fun hcomplete k => ?_⟩
  have htake : (chunks.take k).flatten <+: chunks.flatten := by
    refine ⟨(chunks.drop k).flatten, ?_⟩
    rw [← List.flatten_append, List.take_append_drop]
  refine ⟨1, _, receive_one (htake.trans h), ?_⟩
  rw [complete_eq_nil_of_le htake.length_le hcomplete]
  rfl

/-- A packet with the body `8d`. -/
def shortPacket : Packet where
  body := [56, 100]
  plain := by decide +kernel
  short := by decide

theorem frames_start : Frames [shortPacket] [[42, 56], [100, 59]] :=
  (frames_iff (by decide)).mpr (by decide)

/-- A packet that has been received as a whole does not come out. -/
theorem not_frames_packet : ¬ Frames [shortPacket] [[42, 56, 100, 59, 10, 13]] := fun hframes =>
  absurd (complete_eq_nil_of_frames (by decide) hframes) (by decide)

end BullionClient

end ArmOd
