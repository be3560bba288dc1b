import ArmOd.Adsb.BullionClient
import ArmOd.Base.While

/-!
# The loop over the packets

The loop of `slot_ReadyRead` with the variables of its source: `start_write`, `j` and the places of
`min_buf` that are written. What is written has no say in how the loop goes on, so that a round is a
function of the buffer, and a write behind the end of `min_buf` is an index like any other here.

A waiting packet is one that ends behind the last `*`. So the first `*` that is found has an end
behind it too, and a round that finds one cuts the buffer there; the only other round is one that
has just trimmed every `*` away. Both shorten the buffer.
-/

namespace ArmOd

namespace BullionClient

/-- The variables of the loop over the bytes. `j` is `none` while it has not been set in this
search. -/
structure PacketScan where
  start_write : Bool := false
  j : Option Nat := none
  /-- The indices of the writes to `min_buf` so far. -/
  written : List (Option Nat) := []
  deriving DecidableEq, Repr

def startWrite (b : UInt8) (s : PacketScan) : PacketScan :=
  if !s.start_write && b == star then { s with start_write := true, j := some 0 } else s

def writeByte (s : PacketScan) : PacketScan :=
  if s.start_write then { s with j := s.j.map (· + 1), written := s.written ++ [s.j] } else s

/-- The test for the end of a packet; the bytes before are given last first. -/
def endsPacket (before : List UInt8) (b : UInt8) (s : PacketScan) : Bool :=
  s.start_write && [newline, semicolon].isPrefixOf before && b == carriageReturn

/-- The loop over the bytes: its variables, and what is behind the packet where one was found. -/
def scanBytes (before : List UInt8) (s : PacketScan) :
    List UInt8 → PacketScan × Option (List UInt8)
  | [] => (s, none)
  | b :: rest =>
    let s := writeByte (startWrite b s)
    if endsPacket before b s then (s, some rest) else scanBytes (b :: before) s rest

/-- The buffer, where it is over the limit, without the bytes the branch removes. -/
def trim (data : List UInt8) : List UInt8 :=
  if max_packet_lenght < data.length then data.drop (data.length - (data.length - max_packet_lenght))
  else data

/-- The buffer after a round. -/
def packetRound (data : List UInt8) : List UInt8 :=
  (scanBytes [] {} (trim data)).2.getD (trim data)

/-- The indices at which a round writes to `min_buf`. -/
def writes (data : List UInt8) : List (Option Nat) := (scanBytes [] {} (trim data)).1.written

/-- A packet ends with the three bytes from here on. -/
def EndsAt (data : List UInt8) (t : Nat) : Prop :=
  data[t]? = some semicolon ∧ data[t + 1]? = some newline ∧ data[t + 2]? = some carriageReturn

variable {client : BullionClient} {data front rest before tail : List UInt8} {s : PacketScan}
  {b : UInt8} {k t n : Nat} {written : List (Option Nat)}

theorem m_dataFromTcpSocket_limit :
    client.limit.m_dataFromTcpSocket = trim client.m_dataFromTcpSocket := by
  by_cases h : max_packet_lenght < client.m_dataFromTcpSocket.length
  · simp only [limit, trim, if_pos h]
  · simp only [limit, trim, if_neg h]

theorem endsAt_drop (m : Nat) : EndsAt (data.drop m) t ↔ EndsAt data (m + t) := by
  simp only [EndsAt, List.getElem?_drop, Nat.add_assoc]

theorem exists_trim (data : List UInt8) : ∃ m, trim data = data.drop m ∧
    (m = 0 ∨ max_packet_lenght < data.length) := by
  rw [trim]
  split
  · exact ⟨_, rfl, Or.inr ‹_›⟩
  · exact ⟨0, rfl, Or.inl rfl⟩

/-! ### What a round does -/

theorem endsPacket_iff (h : s.start_write = true) : endsPacket before b s = true ↔
    ∃ t, t + 2 = before.length ∧ EndsAt (before.reverse ++ b :: tail) t := by
  match before with
  | [] => simp [endsPacket]
  | [x] => simp [endsPacket]
  | x :: y :: before =>
      have hdata : (x :: y :: before).reverse ++ b :: tail =
          before.reverse ++ [y, x, b] ++ tail := by simp
      rw [hdata]
      have hat : EndsAt (before.reverse ++ [y, x, b] ++ tail) before.length ↔
          y = semicolon ∧ x = newline ∧ b = carriageReturn := by
        simp [EndsAt]
      have hends : endsPacket (x :: y :: before) b s = true ↔
          (newline = x ∧ semicolon = y) ∧ b = carriageReturn := by
        rw [endsPacket, h, Bool.true_and, Bool.and_eq_true, beq_iff_eq, List.isPrefixOf_cons_cons,
          List.isPrefixOf_cons_cons, List.isPrefixOf_nil_left, Bool.and_true, Bool.and_eq_true,
          beq_iff_eq, beq_iff_eq]
      rw [hends]
      constructor
      · rintro ⟨⟨rfl, rfl⟩, rfl⟩
        exact ⟨before.length, rfl, hat.mpr ⟨rfl, rfl, rfl⟩⟩
      · rintro ⟨t, ht, hends⟩
        obtain rfl : t = before.length := by simpa using ht
        obtain ⟨rfl, rfl, rfl⟩ := hat.mp hends
        exact ⟨⟨rfl, rfl⟩, rfl⟩

theorem append_writes (written : List (Option Nat)) (n k : Nat) :
    written ++ [some n] ++ (List.range' (n + 1) k).map some =
      written ++ (List.range' n (k + 1)).map some := by
  rw [List.range'_succ, List.map_cons, List.append_assoc, List.singleton_append]

/-- The search in a packet goes on to its end, or to the end of the bytes. -/
theorem scanBytes_started (before : List UInt8) (n : Nat) (written : List (Option Nat))
    (tail : List UInt8) :
    (∃ t, before.length ≤ t + 2 ∧ EndsAt (before.reverse ++ tail) t ∧
      (∀ t', before.length ≤ t' + 2 → EndsAt (before.reverse ++ tail) t' → t ≤ t') ∧
      scanBytes before ⟨true, some n, written⟩ tail =
        (⟨true, some (n + (t + 3 - before.length)),
          written ++ (List.range' n (t + 3 - before.length)).map some⟩,
          some ((before.reverse ++ tail).drop (t + 3)))) ∨
    (∀ t, before.length ≤ t + 2 → ¬EndsAt (before.reverse ++ tail) t) ∧
      scanBytes before ⟨true, some n, written⟩ tail =
        (⟨true, some (n + tail.length), written ++ (List.range' n tail.length).map some⟩,
          none) := by
  induction tail generalizing before n written with
  | nil =>
      refine Or.inr ⟨fun t ht hends => ?_, by simp [scanBytes]⟩
      have hlt := (List.getElem?_eq_some_iff.mp hends.2.2).1
      rw [List.append_nil, List.length_reverse] at hlt
      omega
  | cons b tail ih =>
      have hstep : writeByte (startWrite b ⟨true, some n, written⟩) =
          ⟨true, some (n + 1), written ++ [some n]⟩ := rfl
      have hwhole : (b :: before).reverse ++ tail = before.reverse ++ b :: tail := by simp
      rw [scanBytes, hstep]
      by_cases hend : endsPacket before b ⟨true, some (n + 1), written ++ [some n]⟩ = true
      · obtain ⟨t, ht, hends⟩ := (endsPacket_iff rfl).mp hend
        have hlength : t + 3 - before.length = 1 := by omega
        refine Or.inl ⟨t, by omega, hends, fun t' ht' _ => by omega, ?_⟩
        rw [if_pos hend, hlength, List.drop_append, List.drop_of_length_le (by simp; omega)]
        simp [show t + 3 - before.length = 1 from hlength]
      · have hnot : ∀ t, t + 2 = before.length → ¬EndsAt (before.reverse ++ b :: tail) t :=
          fun t ht hends => hend ((endsPacket_iff rfl).mpr ⟨t, ht, hends⟩)
        rw [if_neg hend]
        rcases ih (b :: before) (n + 1) (written ++ [some n]) with
          ⟨t, ht, hends, hfirst, hscan⟩ | ⟨hnone, hscan⟩
        · rw [hwhole] at hends hfirst hscan
          rw [List.length_cons] at ht hfirst hscan
          refine Or.inl ⟨t, by omega, hends, fun t' ht' hends' => ?_, ?_⟩
          · by_cases hlast : t' + 2 = before.length
            · exact absurd hends' (hnot t' hlast)
            · exact hfirst t' (by omega) hends'
          · have hcount : t + 3 - before.length = t + 3 - (before.length + 1) + 1 := by omega
            rw [hscan, hcount, append_writes, Nat.add_right_comm, Nat.add_assoc]
        · rw [hwhole] at hnone
          refine Or.inr ⟨fun t ht hends => ?_, ?_⟩
          · by_cases hlast : t + 2 = before.length
            · exact hnot t hlast hends
            · exact hnone t (by rw [List.length_cons]; omega) hends
          · rw [hscan, List.length_cons, append_writes, Nat.add_right_comm, Nat.add_assoc]

theorem scanBytes_front (before : List UInt8) (hfront : star ∉ front) :
    scanBytes before {} (front ++ rest) = scanBytes (front.reverse ++ before) {} rest := by
  induction front generalizing before with
  | nil => rfl
  | cons b front ih =>
      obtain ⟨hb, hfront⟩ := not_or.mp (mt List.mem_cons.mpr hfront)
      have hstep : writeByte (startWrite b {}) = {} := by
        simp [startWrite, writeByte, Ne.symm hb]
      rw [List.cons_append, scanBytes, hstep, if_neg (by simp [endsPacket]), ih _ hfront,
        List.reverse_cons, List.append_assoc, List.singleton_append]

theorem scanBytes_star (hfront : star ∉ front) : scanBytes [] {} (front ++ star :: rest) =
    scanBytes (star :: front.reverse) ⟨true, some 1, [some 0]⟩ rest := by
  have hstep : writeByte (startWrite star {}) = ⟨true, some 1, [some 0]⟩ := rfl
  rw [scanBytes_front [] hfront, List.append_nil, scanBytes, hstep,
    if_neg (by simp [endsPacket, star, carriageReturn])]

theorem lt_of_endsAt (hend : EndsAt (front ++ star :: rest) t) (ht : front.length ≤ t + 1) :
    front.length < t := by
  have hstar : (front ++ star :: rest)[front.length]? = some star := by simp
  by_contra hle
  rcases (show t = front.length ∨ t + 1 = front.length by omega) with heq | heq
  · rw [← heq, hend.1] at hstar
    exact absurd hstar (by decide)
  · rw [← heq, hend.2.1] at hstar
    exact absurd hstar (by decide)

/-- The packet of the first `*` is cut off at its first end, every byte of it having been written. -/
theorem exists_scanBytes (hfront : star ∉ front) (hend : EndsAt (front ++ star :: rest) t)
    (ht : front.length < t) :
    ∃ t, front.length < t ∧ EndsAt (front ++ star :: rest) t ∧
      (∀ t', front.length < t' → EndsAt (front ++ star :: rest) t' → t ≤ t') ∧
      (scanBytes [] {} (front ++ star :: rest)).1.written =
        (List.range (t + 3 - front.length)).map some ∧
      (scanBytes [] {} (front ++ star :: rest)).2 = some ((front ++ star :: rest).drop (t + 3)) := by
  have hwhole : (star :: front.reverse).reverse ++ rest = front ++ star :: rest := by simp
  have hlength : (star :: front.reverse).length = front.length + 1 := by simp
  rcases scanBytes_started (star :: front.reverse) 1 [some 0] rest with
    ⟨t, ht, hends, hfirst, hscan⟩ | ⟨hnone, -⟩
  · rw [hwhole] at hends hfirst hscan
    rw [hlength] at ht hfirst hscan
    have hlt := lt_of_endsAt hends (by omega)
    rw [scanBytes_star hfront, hscan]
    refine ⟨t, hlt, hends, fun t' ht' => hfirst t' (by omega), ?_, rfl⟩
    have hcount : t + 3 - front.length = t + 3 - (front.length + 1) + 1 := by omega
    rw [List.range_eq_range', hcount, List.range'_succ]
    rfl
  · rw [hwhole, hlength] at hnone
    exact absurd hend (hnone t (by omega))

theorem scanBytes_of_notMem (h : star ∉ data) : scanBytes [] {} data = ({}, none) := by
  have hfront : scanBytes [] {} (data ++ []) = scanBytes (data.reverse ++ []) {} [] :=
    scanBytes_front [] h
  rwa [List.append_nil] at hfront

/-! ### Waiting packets -/

theorem exists_of_hasWaitingPacket (h : HasWaitingPacket data = true) :
    ∃ t, EndsAt data t ∧ star ∈ data ∧ ∀ k, data[k]? = some star → k < t := by
  obtain ⟨hstar, -, hlast, -, hnewline, hreturn⟩ := of_decide_eq_true h
  obtain ⟨t, ht⟩ : ∃ t : Nat, lastIndexOf semicolon data = t :=
    ⟨_, (Int.toNat_of_nonneg (by omega)).symm⟩
  rw [ht] at hlast hnewline
  rw [hnewline] at hreturn
  refine ⟨t, ⟨getElem?_of_lastIndexOf ht, getElem?_of_lastIndexOf (by rw [hnewline]; rfl),
    getElem?_of_lastIndexOf (by rw [hreturn]; push_cast; ring)⟩, mem_of_lastIndexOf hstar, ?_⟩
  intro k hk
  by_contra hle
  exact ne_of_lastIndexOf_lt (by omega) hk

/-- A `*` that is left after trimming has an end behind it. -/
theorem exists_end_of_star (h : HasWaitingPacket data = true)
    (hstar : (trim data)[k]? = some star) : ∃ t, k < t ∧ EndsAt (trim data) t := by
  obtain ⟨t, hends, -, hlast⟩ := exists_of_hasWaitingPacket h
  obtain ⟨m, htrim, -⟩ := exists_trim data
  rw [htrim] at hstar ⊢
  rw [List.getElem?_drop] at hstar
  have hlt := hlast _ hstar
  refine ⟨t - m, by omega, (endsAt_drop m).mpr ?_⟩
  rwa [show m + (t - m) = t by omega]

theorem packetRound_cases (h : HasWaitingPacket data = true) :
    star ∉ trim data ∧ packetRound data = trim data ∧ writes data = [] ∨
    ∃ front rest t, trim data = front ++ star :: rest ∧ star ∉ front ∧ front.length < t ∧
      EndsAt (trim data) t ∧ (∀ t', front.length < t' → EndsAt (trim data) t' → t ≤ t') ∧
      packetRound data = (trim data).drop (t + 3) ∧
      writes data = (List.range (t + 3 - front.length)).map some := by
  by_cases hstar : star ∈ trim data
  · right
    obtain ⟨front, rest, hdata, hfront⟩ := List.eq_append_cons_of_mem hstar
    have hat : (trim data)[front.length]? = some star := by simp [hdata]
    obtain ⟨t, ht, hends⟩ := exists_end_of_star h hat
    rw [hdata] at hends
    obtain ⟨t, ht, hends, hfirst, hwritten, hrest⟩ := exists_scanBytes hfront hends ht
    rw [← hdata] at hends hfirst hwritten hrest
    refine ⟨front, rest, t, hdata, hfront, ht, hends, hfirst, ?_, hwritten⟩
    rw [packetRound, hrest, Option.getD_some]
  · left
    have hscan := scanBytes_of_notMem hstar
    exact ⟨hstar, by rw [packetRound, hscan, Option.getD_none], by rw [writes, hscan]⟩

/-- **Every round shortens the buffer.** -/
theorem length_packetRound_lt (h : HasWaitingPacket data = true) :
    (packetRound data).length < data.length := by
  obtain ⟨m, htrim, hm⟩ := exists_trim data
  rcases packetRound_cases h with ⟨hstar, hround, -⟩ | ⟨front, rest, t, -, -, -, hends, -, hround, -⟩
  · obtain ⟨-, -, hmem, -⟩ := exists_of_hasWaitingPacket h
    rw [hround]
    rcases hm with rfl | hlong
    · rw [htrim, List.drop_zero] at hstar
      exact absurd hmem hstar
    · rw [trim, if_pos hlong, List.length_drop]
      have hpos : 0 < max_packet_lenght := by decide
      omega
  · have hlt := (List.getElem?_eq_some_iff.mp hends.1).1
    rw [hround, List.length_drop]
    rw [htrim, List.length_drop] at hlt ⊢
    omega

/-- **The loop over the packets ends**, after at most as many rounds as there are bytes. -/
theorem packetLoop_ends (data : List UInt8) : ∃ n ≤ data.length,
    HasWaitingPacket (rounds HasWaitingPacket packetRound n data) = false := by
  obtain ⟨n, hn, hended, -⟩ := exists_ended List.length (fun _ => True) (fun _ => True)
    (fun _ _ h => ⟨trivial, length_packetRound_lt h⟩) (fun _ _ _ => trivial) trivial
  exact ⟨n, hn, hended⟩

/-! ### Writes inside of the array -/

/-- The index of a write is set and inside of `min_buf`. -/
def Inside (w : Option Nat) : Prop := ∃ j, w = some j ∧ j < pack_len

/-- Every write of the loop is inside of `min_buf`. -/
def WritesInside (data : List UInt8) : Prop :=
  ∀ content, Begins HasWaitingPacket packetRound data content → ∀ w ∈ writes content, Inside w

/-- The first `*` has the end of a packet within the size of `min_buf`. -/
def Closes (data : List UInt8) : Prop :=
  ∀ front rest, data = front ++ star :: rest → star ∉ front →
    ∃ t, front.length < t ∧ t + 3 ≤ front.length + pack_len ∧ EndsAt data t

theorem takeWhile_front (rest : List UInt8) (hfront : star ∉ front) :
    (front ++ star :: rest).takeWhile (· ≠ star) = front := by
  have hne : ∀ b ∈ front, decide (b ≠ star) = true := by
    intro b hb
    rw [decide_eq_true_iff]
    rintro rfl
    exact hfront hb
  rw [List.takeWhile_append_of_pos hne, List.takeWhile_cons_of_neg (by simp), List.append_nil]

theorem writes_inside_iff (h : HasWaitingPacket data = true) :
    (∀ w ∈ writes data, Inside w) ↔ Closes (trim data) := by
  rcases packetRound_cases h with ⟨hstar, -, hwrites⟩ |
    ⟨front, rest, t, hdata, hfront, ht, hends, hfirst, -, hwrites⟩
  · rw [hwrites]
    refine iff_of_true (fun w hw => absurd hw List.not_mem_nil) fun front rest hdata _ => ?_
    exact absurd (hdata ▸ List.mem_append_right front List.mem_cons_self) hstar
  · rw [hwrites]
    constructor
    · intro hinside front' rest' hdata' hfront'
      have hsame : front' = front := by
        rw [← takeWhile_front rest' hfront', ← hdata', hdata, takeWhile_front rest hfront]
      obtain ⟨j, hj, hlt⟩ := hinside (some (t + 2 - front.length))
        (List.mem_map_of_mem (List.mem_range.mpr (by omega)))
      rw [hsame]
      have hindex := Option.some.inj hj
      exact ⟨t, ht, by omega, hends⟩
    · intro hcloses w hw
      obtain ⟨t', ht', hle, hends'⟩ := hcloses front rest hdata hfront
      obtain ⟨j, hj, rfl⟩ := List.mem_map.mp hw
      have hlast := hfirst t' ht' hends'
      have hrange := List.mem_range.mp hj
      exact ⟨j, rfl, by omega⟩

/-- **The bounds of `min_buf`.** Every write is inside exactly when in every round the first `*` has
the end of a packet within the size of the array. -/
theorem packetLoop_writesInside_iff (data : List UInt8) : WritesInside data ↔
    ∀ content, Begins HasWaitingPacket packetRound data content → Closes (trim content) :=
  forall₂_congr fun _ hbegins => writes_inside_iff hbegins.1

theorem writesInside_of_not_waiting (h : HasWaitingPacket data = false) : WritesInside data :=
  fun _ hbegins => absurd hbegins (not_begins h)

theorem writesInside_round (h : HasWaitingPacket data = true) :
    WritesInside data ↔ (∀ w ∈ writes data, Inside w) ∧ WritesInside (packetRound data) := by
  constructor
  · intro hinside
    exact ⟨hinside data (begins_iff.mpr ⟨h, Or.inl rfl⟩),
      fun content hbegins => hinside content (begins_iff.mpr ⟨h, Or.inr hbegins⟩)⟩
  · intro hinside content hbegins
    rcases (begins_iff.mp hbegins).2 with rfl | hlater
    · exact hinside.1
    · exact hinside.2 content hlater

/-! ### Buffers within the limit -/

theorem lastIndexOf_eq_iff : lastIndexOf b data = k ↔
    data[k]? = some b ∧ ∀ i, data[i]? = some b → i ≤ k := by
  constructor
  · intro h
    refine ⟨getElem?_of_lastIndexOf h, fun i hi => ?_⟩
    by_contra hlt
    exact ne_of_lastIndexOf_lt (by omega) hi
  · rintro ⟨hk, hlast⟩
    obtain ⟨-, hindex⟩ := lastIndexOf_of_mem (List.mem_of_getElem? hk)
    have hle := hlast _ (getElem?_of_lastIndexOf hindex)
    have hge : ¬lastIndexOf b data < k := fun hlt => ne_of_lastIndexOf_lt hlt hk
    omega

theorem lastIndexOf_drop {m : Nat} (h : lastIndexOf b data = (m + k : Nat)) :
    lastIndexOf b (data.drop m) = k := by
  obtain ⟨hk, hlast⟩ := lastIndexOf_eq_iff.mp h
  refine lastIndexOf_eq_iff.mpr ⟨by rwa [List.getElem?_drop], fun i hi => ?_⟩
  rw [List.getElem?_drop] at hi
  have hle := hlast _ hi
  omega

theorem hasWaitingPacket_drop {m : Nat} (h : HasWaitingPacket data = true)
    (hstar : star ∈ data.drop m) : HasWaitingPacket (data.drop m) = true := by
  obtain ⟨hopening, -, hlast, hlong, hnewline, hreturn⟩ := of_decide_eq_true h
  obtain ⟨i, hi⟩ := List.mem_iff_getElem?.mp hstar
  rw [List.getElem?_drop] at hi
  obtain ⟨p, hp⟩ : ∃ p : Nat, lastIndexOf star data = (m + p : Nat) := by
    refine ⟨(lastIndexOf star data).toNat - m, ?_⟩
    have hle : ¬lastIndexOf star data < (m + i : Nat) := fun hlt => ne_of_lastIndexOf_lt hlt hi
    omega
  obtain ⟨t, ht⟩ : ∃ t : Nat, lastIndexOf semicolon data = (m + t : Nat) :=
    ⟨(lastIndexOf semicolon data).toNat - m, by omega⟩
  have ht₁ : lastIndexOf newline data = (m + (t + 1) : Nat) := by omega
  have ht₂ : lastIndexOf carriageReturn data = (m + (t + 2) : Nat) := by omega
  rw [HasWaitingPacket, decide_eq_true_iff]
  simp only [lastIndexOf_drop hp, lastIndexOf_drop ht, lastIndexOf_drop ht₁, lastIndexOf_drop ht₂,
    List.length_drop]
  omega

/-- Every `*` has the end of a packet within the size of `min_buf`. -/
def AllClose (data : List UInt8) : Prop :=
  ∀ k, data[k]? = some star → ∃ t, k < t ∧ t + 3 ≤ k + pack_len ∧ EndsAt data t

theorem trim_of_le (h : data.length ≤ max_packet_lenght) : trim data = data := by
  rw [trim, if_neg (by omega)]

theorem Closes.le_of_first (hcloses : Closes data) (hdata : data = front ++ star :: rest)
    (hfront : star ∉ front) (hfirst : ∀ t', front.length < t' → EndsAt data t' → t ≤ t') :
    t + 3 ≤ front.length + pack_len := by
  obtain ⟨t', ht', hle, hends⟩ := hcloses front rest hdata hfront
  have hle' := hfirst t' ht' hends
  omega

theorem le_of_star (hdata : data = front ++ star :: rest) (hfront : star ∉ front)
    (hk : data[k]? = some star) : front.length ≤ k := by
  by_contra hlt
  rw [hdata, List.getElem?_append_left (by omega)] at hk
  exact hfront (List.mem_of_getElem? hk)

theorem lt_or_le_of_star (hends : EndsAt data t) (hk : data[k]? = some star) : k < t ∨ t + 3 ≤ k := by
  have hne : k ≠ t ∧ k ≠ t + 1 ∧ k ≠ t + 2 := by
    refine ⟨?_, ?_, ?_⟩ <;> rintro rfl
    · exact absurd (hk.symm.trans hends.1) (by decide)
    · exact absurd (hk.symm.trans hends.2.1) (by decide)
    · exact absurd (hk.symm.trans hends.2.2) (by decide)
  omega

theorem allClose_iff (hdata : data = front ++ star :: rest) (hfront : star ∉ front)
    (hends : EndsAt data t) (hfirst : ∀ t', front.length < t' → EndsAt data t' → t ≤ t') :
    AllClose data ↔ Closes data ∧ AllClose (data.drop (t + 3)) := by
  constructor
  · intro hall
    refine ⟨fun front rest hdata _ => hall _ (by simp [hdata]), fun k hk => ?_⟩
    rw [List.getElem?_drop] at hk
    obtain ⟨t', ht', hshort, hends'⟩ := hall _ hk
    refine ⟨t' - (t + 3), by omega, by omega, (endsAt_drop _).mpr ?_⟩
    rwa [Nat.add_sub_cancel' (by omega)]
  · rintro ⟨hcloses, hrest⟩ k hk
    rcases lt_or_le_of_star hends hk with hlast | hlater
    · have hle := le_of_star hdata hfront hk
      have hshort := hcloses.le_of_first hdata hfront hfirst
      exact ⟨t, hlast, by omega, hends⟩
    · have hk' : (data.drop (t + 3))[k - (t + 3)]? = some star := by
        rwa [List.getElem?_drop, Nat.add_sub_cancel' hlater]
      obtain ⟨t', ht', hshort, hends'⟩ := hrest _ hk'
      exact ⟨t + 3 + t', by omega, by omega, (endsAt_drop _).mp hends'⟩

/-- What is said of the first `*` in every round is said of every `*` of the buffer. -/
theorem writesInside_iff_of_le (hle : data.length ≤ max_packet_lenght) :
    WritesInside data ↔ (HasWaitingPacket data = true → AllClose data) := by
  induction hn : data.length using Nat.strong_induction_on generalizing data with
  | _ n ih =>
      cases hwaiting : HasWaitingPacket data with
      | false => exact iff_of_true (writesInside_of_not_waiting hwaiting) nofun
      | true =>
          have hlt := length_packetRound_lt hwaiting
          rw [writesInside_round hwaiting, writes_inside_iff hwaiting, forall_prop_of_true rfl,
            ih _ (hn ▸ hlt) (by omega) rfl]
          rcases packetRound_cases hwaiting with ⟨-, hround, -⟩ |
            ⟨front, rest, t, hdata, hfront, -, hends, hfirst, hround, -⟩
          · rw [hround, trim_of_le hle] at hlt
            exact absurd hlt (lt_irrefl _)
          · rw [trim_of_le hle] at hdata hends hfirst hround ⊢
            have hrest : (HasWaitingPacket (data.drop (t + 3)) = true →
                AllClose (data.drop (t + 3))) ↔ AllClose (data.drop (t + 3)) :=
              ⟨fun h k hk => h (hasWaitingPacket_drop hwaiting (List.mem_of_getElem? hk)) k hk,
                fun h _ => h⟩
            rw [hround, hrest, allClose_iff hdata hfront hends hfirst]

/-- A packet of a thousand bytes and its end. -/
def longPacket : List UInt8 := star :: List.replicate 1000 0 ++ [semicolon, newline, carriageReturn, 0]

theorem not_writesInside_longPacket : ¬∀ data, WritesInside data := by
  intro h
  have hwaiting : HasWaitingPacket longPacket = true := by decide +kernel
  have hinside := (writes_inside_iff hwaiting).mp (h _ _ (begins_iff.mpr ⟨hwaiting, Or.inl rfl⟩))
  rw [trim_of_le (by decide +kernel)] at hinside
  obtain ⟨t, -, hle, hends⟩ := hinside [] _ rfl List.not_mem_nil
  rw [List.length_nil, pack_len] at hle
  have hbody := hends.1
  rw [longPacket, List.getElem?_append_left
    (by rw [List.length_cons, List.length_replicate]; omega)] at hbody
  rcases List.mem_cons.mp (List.mem_of_getElem? hbody) with hstar | hzero
  · exact absurd hstar (by decide)
  · exact absurd (List.eq_of_mem_replicate hzero) (by decide)

end BullionClient

end ArmOd
