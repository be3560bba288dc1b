import ArmOd.Adsb.PacketLoop

/-!
# The two buffers of the loop

`min_buf` first: the loop that gives up at a write behind its end returns exactly where the loop of
the variables makes no such write. Then the receive buffer over its limit: the branch for it keeps
as many bytes as there are over the limit, and not as many as the limit allows.
-/

namespace ArmOd

namespace BullionClient

variable {client : BullionClient} {data front rest before tail : List UInt8} {s : PacketScan}
  {b : UInt8} {k t n : Nat} {written : List (Option Nat)}

/-! ### The loop with its array -/

/-- `min_buf` holds what the variables say. -/
structure Agrees (s : PacketScan) (min_buf : Option (List UInt8)) : Prop where
  start_write : s.start_write = min_buf.isSome
  j : ∀ w, min_buf = some w → s.j = some w.length

theorem Agrees.startWrite {min_buf : Option (List UInt8)} (h : Agrees s min_buf) (b : UInt8) :
    Agrees (startWrite b s) (if min_buf = none ∧ b = star then some [] else min_buf) := by
  cases min_buf with
  | none =>
      by_cases hb : b = star
      · rw [BullionClient.startWrite, h.start_write, if_pos (by simp [hb]), if_pos ⟨rfl, hb⟩]
        exact ⟨rfl, fun w hw => by cases hw; rfl⟩
      · rwa [BullionClient.startWrite, if_neg (by simp [hb]), if_neg fun hnone => hb hnone.2]
  | some w => rwa [BullionClient.startWrite, h.start_write, if_neg (by simp), if_neg (by simp)]

theorem Agrees.writeByte {w : List UInt8} (h : Agrees s (some w)) (b : UInt8) :
    Agrees (writeByte s) (some (w ++ [b])) ∧
      (BullionClient.writeByte s).written = s.written ++ [some w.length] := by
  rw [BullionClient.writeByte, if_pos (show s.start_write = true from h.start_write)]
  refine ⟨⟨h.start_write, fun w' hw' => ?_⟩, by rw [h.j w rfl]⟩
  cases hw'
  rw [h.j w rfl, List.length_append]
  rfl

theorem inside_some_iff : Inside (some n) ↔ n < pack_len :=
  ⟨fun ⟨_, hn, hlt⟩ => Option.some.inj hn ▸ hlt, fun hlt => ⟨n, rfl, hlt⟩⟩

theorem Agrees.inside_writeByte_iff {w : List UInt8} (h : Agrees s (some w))
    (hs : ∀ x ∈ s.written, Inside x) :
    (∀ x ∈ (BullionClient.writeByte s).written, Inside x) ↔ w.length < pack_len := by
  rw [(h.writeByte 0).2, List.forall_mem_append, List.forall_mem_singleton, inside_some_iff]
  exact and_iff_right hs

theorem Agrees.endsPacket_iff {w : List UInt8} (h : Agrees s (some w)) :
    endsPacket before b s = true ↔
      [newline, semicolon].isPrefixOf before = true ∧ b = carriageReturn := by
  rw [endsPacket, h.start_write, Option.isSome_some, Bool.true_and, Bool.and_eq_true, beq_iff_eq]

theorem written_startWrite : (startWrite b s).written = s.written := by
  rw [startWrite]
  split <;> rfl

theorem mem_written_scanBytes {w : Option Nat} (h : w ∈ s.written) :
    w ∈ (scanBytes before s tail).1.written := by
  induction tail generalizing before s with
  | nil => exact h
  | cons b tail ih =>
      have hstep : w ∈ (writeByte (startWrite b s)).written := by
        rw [writeByte]
        split
        · exact List.mem_append_left _ (by rwa [written_startWrite])
        · rwa [written_startWrite]
      rw [scanBytes]
      split
      · exact hstep
      · exact ih hstep

/-- The search with its array is the search of the variables, as long as every write is inside. -/
theorem scan_eq {min_buf : Option (List UInt8)} (h : Agrees s min_buf)
    (hs : ∀ w ∈ s.written, Inside w) :
    ((∀ w ∈ (scanBytes before s tail).1.written, Inside w) →
      ∃ found, scan before min_buf tail = some found ∧
        found.map Prod.snd = (scanBytes before s tail).2) ∧
    ((∃ found, scan before min_buf tail = some found) →
      ∀ w ∈ (scanBytes before s tail).1.written, Inside w) := by
  induction tail generalizing before s min_buf with
  | nil => exact ⟨fun _ => ⟨none, rfl, rfl⟩, fun _ => hs⟩
  | cons b tail ih =>
      have hstart := h.startWrite b
      have hwritten : ∀ w ∈ (startWrite b s).written, Inside w := by rwa [written_startWrite]
      rw [scan, scanBytes]
      generalize (if min_buf = none ∧ b = star then some [] else min_buf) = min_buf' at hstart
      cases min_buf' with
      | none =>
          have hstep : writeByte (startWrite b s) = startWrite b s := by
            rw [writeByte, if_neg (by simp [hstart.start_write])]
          rw [hstep, if_neg (by simp [endsPacket, hstart.start_write])]
          exact ih hstart hwritten
      | some w =>
          have hafter := (hstart.writeByte b).1
          have hroom := hstart.inside_writeByte_iff hwritten
          dsimp only
          by_cases hlong : pack_len ≤ w.length
          · rw [if_pos hlong]
            refine ⟨fun hinside => ?_, fun hfound => by cases hfound.choose_spec⟩
            have hnow : ∀ x ∈ (writeByte (startWrite b s)).written, Inside x := by
              intro x hx
              split at hinside
              · exact hinside x hx
              · exact hinside x (mem_written_scanBytes hx)
            exact absurd hlong (Nat.not_le.mpr (hroom.mp hnow))
          · have hinside := hroom.mpr (Nat.not_le.mp hlong)
            rw [if_neg hlong]
            by_cases hend : [newline, semicolon].isPrefixOf before = true ∧ b = carriageReturn
            · rw [if_pos hend, if_pos (hafter.endsPacket_iff.mpr hend)]
              exact ⟨fun _ => ⟨_, rfl, rfl⟩, fun _ => hinside⟩
            · rw [if_neg hend, if_neg (mt hafter.endsPacket_iff.mp hend)]
              exact ih hafter hinside

theorem takePackets_round (h : HasWaitingPacket client.m_dataFromTcpSocket = true) :
    ((∀ w ∈ writes client.m_dataFromTcpSocket, Inside w) → ∃ signals, ∀ fuel,
      takePackets (fuel + 1) client =
        takePackets fuel ⟨packetRound client.m_dataFromTcpSocket, signals⟩) ∧
    ∀ fuel client', takePackets (fuel + 1) client = some client' →
      ∀ w ∈ writes client.m_dataFromTcpSocket, Inside w := by
  have hagrees : Agrees {} none := ⟨rfl, nofun⟩
  have hwritten : ∀ w ∈ ({} : PacketScan).written, Inside w :=
    fun w hw => absurd hw List.not_mem_nil
  obtain ⟨hfound, hinside⟩ :=
    @scan_eq [] (trim client.m_dataFromTcpSocket) {} none hagrees hwritten
  simp only [takePackets, if_pos h, m_dataFromTcpSocket_limit]
  refine ⟨fun hwrites => ?_, fun fuel client' hreturns => hinside ?_⟩
  · obtain ⟨found, hscan, hrest⟩ := hfound hwrites
    rw [hscan, packetRound, ← hrest]
    cases found with
    | none =>
        refine ⟨client.limit.signals, fun fuel => ?_⟩
        rw [Option.map_none, Option.getD_none, ← m_dataFromTcpSocket_limit]
    | some p => exact ⟨_, fun fuel => rfl⟩
  · rw [← Option.isSome_iff_exists, Option.isSome_iff_ne_none]
    intro hnone
    rw [hnone] at hreturns
    cases hreturns

theorem writesInside_of_takePackets {fuel : Nat} {client' : BullionClient}
    (h : takePackets fuel client = some client') : WritesInside client.m_dataFromTcpSocket := by
  induction fuel generalizing client with
  | zero => cases h
  | succ fuel ih =>
      cases hwaiting : HasWaitingPacket client.m_dataFromTcpSocket with
      | false => exact writesInside_of_not_waiting hwaiting
      | true =>
          obtain ⟨hround, hinside⟩ := takePackets_round hwaiting
          have hwrites := hinside fuel client' h
          obtain ⟨signals, heq⟩ := hround hwrites
          exact (writesInside_round hwaiting).mpr ⟨hwrites, ih (heq fuel ▸ h)⟩

theorem exists_takePackets {fuel : Nat} (hfuel : client.m_dataFromTcpSocket.length < fuel)
    (h : WritesInside client.m_dataFromTcpSocket) :
    ∃ client', takePackets fuel client = some client' := by
  induction fuel generalizing client with
  | zero => exact absurd hfuel (Nat.not_lt_zero _)
  | succ fuel ih =>
      cases hwaiting : HasWaitingPacket client.m_dataFromTcpSocket with
      | false =>
          rw [takePackets, if_neg (by rw [hwaiting]; exact Bool.false_ne_true)]
          exact ⟨client, rfl⟩
      | true =>
          obtain ⟨hwrites, hrest⟩ := (writesInside_round hwaiting).mp h
          obtain ⟨signals, heq⟩ := (takePackets_round hwaiting).1 hwrites
          have hlt := length_packetRound_lt hwaiting
          rw [heq fuel]
          exact ih (show (packetRound client.m_dataFromTcpSocket).length < fuel by omega) hrest

/-- **The loop returns** exactly where every write is inside of the array. -/
theorem exists_takePackets_iff : (∃ fuel client', takePackets fuel client = some client') ↔
    WritesInside client.m_dataFromTcpSocket :=
  ⟨fun ⟨_, _, hreturns⟩ => writesInside_of_takePackets hreturns, fun hinside =>
    ⟨_, exists_takePackets (Nat.lt_succ_self _) hinside⟩⟩

/-- With its array, too, the loop ends after at most as many rounds as there are bytes, unless it
writes behind the array before. -/
theorem takePackets_ends (client : BullionClient) :
    (∃ client', takePackets (client.m_dataFromTcpSocket.length + 1) client = some client') ∨
      ¬WritesInside client.m_dataFromTcpSocket :=
  or_iff_not_imp_right.mpr fun hinside =>
    exists_takePackets (Nat.lt_succ_self _) (not_not.mp hinside)

/-! ### Trimming -/

/-- The newest bytes, as many as the limit allows. -/
def newest (data : List UInt8) : List UInt8 := data.drop (data.length - max_packet_lenght)

/-- The branch leaves exactly the newest bytes, and so every packet among them. -/
def KeepsNewest (data : List UInt8) : Prop :=
  trim data = newest data ∧ ∀ body,
    star :: body ++ [semicolon, newline, carriageReturn] <:+: newest data →
      star :: body ++ [semicolon, newline, carriageReturn] <:+: trim data

theorem length_of_keepsNewest (hlong : max_packet_lenght < data.length) (h : KeepsNewest data) :
    data.length = 2 * max_packet_lenght := by
  have hlength := congrArg List.length h.1
  rw [trim, if_pos hlong, newest, List.length_drop, List.length_drop] at hlength
  omega

/-- **Trimming.** A buffer over the limit is cut to its newest bytes exactly when it is twice as long
as the limit. -/
theorem keepsNewest_iff (data : List UInt8) (hlong : max_packet_lenght < data.length) :
    KeepsNewest data ↔ data.length = 2 * max_packet_lenght := by
  refine ⟨length_of_keepsNewest hlong, fun htwice => ?_⟩
  have hcount : data.length - (data.length - max_packet_lenght) =
      data.length - max_packet_lenght := by omega
  have hsame : trim data = newest data := by rw [trim, if_pos hlong, newest, hcount]
  exact ⟨hsame, fun body hbody => hsame ▸ hbody⟩

/-- Ten bytes, a packet without a body, and so many more bytes. -/
def buffer (n : Nat) : List UInt8 :=
  List.replicate 10 0 ++ [star, semicolon, newline, carriageReturn] ++ List.replicate n 0

theorem length_buffer (n : Nat) : (buffer n).length = 14 + n := by
  rw [buffer, List.length_append, List.length_replicate]
  rfl

theorem keepsNewest_buffer : KeepsNewest (buffer 1999986) :=
  (keepsNewest_iff _ (by rw [length_buffer]; decide)).mpr (by rw [length_buffer]; rfl)

theorem getElem?_buffer {n : Nat} (hk : 14 ≤ k) (hb : (buffer n)[k]? = some b) : b = 0 := by
  rw [buffer, List.getElem?_append_right hk] at hb
  exact List.eq_of_mem_replicate (List.mem_of_getElem? hb)

theorem hasWaitingPacket_buffer {n : Nat} (hn : 0 < n) : HasWaitingPacket (buffer n) = true := by
  have hindex : ∀ (b : UInt8) (k : Nat), k < 14 → b ≠ 0 →
      lastIndexOf b (List.replicate 10 0 ++ [star, semicolon, newline, carriageReturn]) = k →
      lastIndexOf b (buffer n) = k := by
    intro b k hk hb hfront
    obtain ⟨hget, hlast⟩ := lastIndexOf_eq_iff.mp hfront
    refine lastIndexOf_eq_iff.mpr ⟨by rwa [buffer, List.getElem?_append_left (by exact hk)], ?_⟩
    intro i hi
    by_cases hlt : i < 14
    · rw [buffer, List.getElem?_append_left (by exact hlt)] at hi
      exact hlast i hi
    · exact absurd (getElem?_buffer (by omega) hi) hb
  have hlength := length_buffer n
  rw [HasWaitingPacket, hindex star 10 (by decide) (by decide) (by decide),
    hindex semicolon 11 (by decide) (by decide) (by decide),
    hindex newline 12 (by decide) (by decide) (by decide),
    hindex carriageReturn 13 (by decide) (by decide) (by decide), decide_eq_true_iff]
  omega

/-- The packet is among the newest bytes, and trimmed away. -/
theorem not_keepsNewest_buffer : ¬∀ data, HasWaitingPacket data = true →
    max_packet_lenght < data.length → KeepsNewest data := by
  intro h
  have hlength : (buffer 999990).length = 1000004 := length_buffer 999990
  have hlong : max_packet_lenght < (buffer 999990).length := by rw [hlength]; decide
  obtain ⟨-, hkept⟩ := h _ (hasWaitingPacket_buffer (by decide)) hlong
  have hnewest : star :: [] ++ [semicolon, newline, carriageReturn] <:+: newest (buffer 999990) := by
    refine ⟨List.replicate 6 0, List.replicate 999990 0, ?_⟩
    rw [newest, hlength, buffer, List.append_assoc, List.drop_append_of_le_length (by decide),
      List.append_assoc]
    rfl
  have hstar : star ∈ trim (buffer 999990) := (hkept [] hnewest).subset List.mem_cons_self
  rw [trim, if_pos hlong, hlength] at hstar
  obtain ⟨i, hi⟩ := List.mem_iff_getElem?.mp hstar
  rw [List.getElem?_drop] at hi
  have hmax : max_packet_lenght = 1000000 := rfl
  exact absurd (getElem?_buffer (by omega) hi) (by decide)

end BullionClient

end ArmOd
