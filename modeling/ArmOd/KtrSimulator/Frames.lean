import ArmOd.Base.Records
import ArmOd.KtrSimulator.KtrSimulator

/-!
# The frames of the simulator at the coder

What `TcpKTRCoder::encode` makes of a board list and of a position frame of the simulator. The count
of a board list is written as an unsigned byte and read as a signed one. A position frame has eight
bytes, and the coder takes no frame of less than fifteen.
-/

namespace ArmOd

namespace TcpKTRCoder

theorem infix_of_isLocationFromKTR {data : List UInt8} (h : isLocationFromKTR data) :
    toAscii KTPGA <:+: data := by
  refine infix_of_infix_textOfBytes (by decide) (by decide) ?_
  by_contra hnot
  rw [isLocationFromKTR, Text.split_of_not_infix hnot] at h
  cases h

theorem exists_dollar {data : List UInt8} (h : isLocationFromKTR data) :
    ∃ n, n + 7 ≤ data.length ∧ data[n]? = some 36 := by
  obtain ⟨front, back, rfl⟩ := infix_of_isLocationFromKTR h
  have hmark : (toAscii KTPGA).length = 7 := rfl
  refine ⟨front.length, by simp only [List.length_append]; omega, ?_⟩
  rw [List.append_assoc, List.getElem?_append_right le_rfl, Nat.sub_self]
  rfl

theorem encode_short {fp : Numerics} {fresh copied : Nat → Fresh} {coder : TcpKTRCoder}
    {data : List UInt8} (hktr : ¬ isLocationFromKTR data) (hlength : data.length < 12) :
    encode fp fresh copied coder data = some (coder, some emptyMessage) := by
  have hlist : ¬ isBoardList data := by
    intro hlist
    have htake := congrArg List.length (beq_iff_eq.mp hlist)
    rw [List.length_take, List.length_map] at htake
    have : ("control link".toList).length = 12 := by decide
    omega
  have hframe : ¬ isFrame data := by simp only [isFrame, decide_eq_true_eq]; omega
  rw [encode, if_neg hktr, if_neg hlist, if_neg hframe]
  exact ite_self _

end TcpKTRCoder

namespace KtrSimulator

open TcpKTRCoder

variable {lib : CLibrary} {sim : KtrSimulator} {id : Nat}

/-! ### Board lists -/

theorem length_boardEntry (id : Nat) : (boardEntry id).length = 24 := rfl

theorem getElem?_boardEntry {r : Nat} (hr : 2 ≤ r) (hlt : r < 24) (id : Nat) :
    (boardEntry id)[r]? = some 32 := by
  rw [boardEntry, List.getElem?_append_right hr, List.getElem?_replicate, if_pos]
  simp only [List.length_cons, List.length_nil]
  omega

theorem encodeBplaList_eq : sim.encodeBplaList =
    (toAscii "control link".toList ++ [UInt8.ofNat sim.m_bplaList.size, 32]) ++
      sim.m_bplaList.keys.flatMap boardEntry := by
  rw [encodeBplaList]
  simp only [List.append_assoc]
  rfl

theorem getElem?_encodeBplaList {r : Nat} (hr : r < 24) (i : Nat) :
    sim.encodeBplaList[14 + (i * 24 + r)]? =
      sim.m_bplaList.keys[i]?.bind fun id => (boardEntry id)[r]? := by
  have hhead : (toAscii "control link".toList ++
      [UInt8.ofNat sim.m_bplaList.size, 32]).length = 14 := rfl
  rw [encodeBplaList_eq, List.getElem?_append_right (by omega), hhead, Nat.add_sub_cancel_left,
    Records.getElem?_table length_boardEntry hr]

theorem getElem?_blank {i r : Nat} (hr : r < 2) {b : UInt8}
    (h : sim.encodeBplaList[14 + (i * 24 + r)]? = some b) {k : Nat} (hk : 2 ≤ r + k) (hk' : k < 4) :
    sim.encodeBplaList[14 + (i * 24 + r) + k]? = some 32 := by
  rw [getElem?_encodeBplaList (by omega), Option.bind_eq_some_iff] at h
  obtain ⟨id, hid, -⟩ := h
  rw [Nat.add_assoc, Nat.add_assoc, getElem?_encodeBplaList (by omega), hid, Option.bind_some,
    getElem?_boardEntry hk (by omega)]

theorem getElem?_head {n : Nat} (hn : n < 12) :
    sim.encodeBplaList[n]? = (toAscii "control link".toList)[n]? := by
  have hlength : (toAscii "control link".toList).length = 12 := rfl
  rw [encodeBplaList_eq, List.append_assoc, List.getElem?_append_left (by omega)]

/-- No board list is taken for a position text: of three bytes in a row behind its head one is a
blank. -/
theorem not_isLocationFromKTR_encodeBplaList : ¬ isLocationFromKTR sim.encodeBplaList := by
  intro hktr
  obtain ⟨front, back, hdata⟩ := infix_of_isLocationFromKTR hktr
  have hmark : ∀ k < 7, sim.encodeBplaList[front.length + k]? = (toAscii KTPGA)[k]? := by
    intro k hk
    rw [← hdata, List.append_assoc, List.getElem?_append_right (by omega), Nat.add_sub_cancel_left,
      List.getElem?_append_left hk]
  have hdollar : sim.encodeBplaList[front.length]? = some 36 := hmark 0 (by omega)
  have hK : sim.encodeBplaList[front.length + 1]? = some 75 := hmark 1 (by omega)
  have hT : sim.encodeBplaList[front.length + 2]? = some 84 := hmark 2 (by omega)
  have hblank : sim.encodeBplaList[13]? = some 32 := by rw [encodeBplaList_eq]; rfl
  generalize front.length = n at hdollar hK hT
  rcases lt_trichotomy n 12 with hn | rfl | hn
  · rw [getElem?_head hn] at hdollar
    have hhead : ∀ n < 12, (toAscii "control link".toList)[n]? ≠ some 36 := by decide
    exact hhead n hn hdollar
  · cases hblank.symm.trans hK
  · rcases Nat.lt_or_eq_of_le (Nat.succ_le_of_lt hn) with hn | rfl
    · obtain ⟨i, r, hr, rfl⟩ : ∃ i r, r < 24 ∧ n = 14 + (i * 24 + r) :=
        ⟨(n - 14) / 24, (n - 14) % 24, Nat.mod_lt _ (by omega), by omega⟩
      match r with
      | 0 => cases (getElem?_blank (by omega) hdollar (k := 2) (by omega) (by omega)).symm.trans hT
      | 1 => cases (getElem?_blank (by omega) hdollar (k := 1) (by omega) (by omega)).symm.trans hK
      | r + 2 =>
          rw [getElem?_encodeBplaList hr, Option.bind_eq_some_iff] at hdollar
          obtain ⟨id, -, hcell⟩ := hdollar
          rw [getElem?_boardEntry (by omega) hr] at hcell
          cases hcell
    · cases hblank.symm.trans hdollar

theorem isBoardList_encodeBplaList : isBoardList sim.encodeBplaList := by
  rw [isBoardList, encodeBplaList_eq, List.append_assoc]
  rfl

theorem quint16_entry {i id : Nat} (hi : sim.m_bplaList.keys[i]? = some id) (hid : id < 2 ^ 16) :
    (do return quint16 (unsignedWord (← (sim.encodeBplaList.drop 12)[3 + i * 24]?)
        (← (sim.encodeBplaList.drop 12)[2 + i * 24]?))) = some id := by
  have hlow : (sim.encodeBplaList.drop 12)[2 + i * 24]? = some (byteOf id 0) := by
    rw [List.getElem?_drop, show 12 + (2 + i * 24) = 14 + (i * 24 + 0) by omega,
      getElem?_encodeBplaList (by omega), hi]
    rfl
  have hhigh : (sim.encodeBplaList.drop 12)[3 + i * 24]? = some (byteOf id 1) := by
    rw [List.getElem?_drop, show 12 + (3 + i * 24) = 14 + (i * 24 + 1) by omega,
      getElem?_encodeBplaList (by omega), hi]
    rfl
  rw [hlow, hhigh]
  simp only [Option.bind_eq_bind, Option.bind_some, Option.pure_def, Option.some.injEq, quint16,
    unsignedWord, byteOf, UInt8.toNat_ofNat']
  omega

theorem parseBoardList_encodeBplaList {ids : List Nat}
    (h : ((List.range (char (UInt8.ofNat sim.m_bplaList.size)).toNat).mapM fun i => do
      return quint16 (unsignedWord (← (sim.encodeBplaList.drop 12)[3 + i * 24]?)
        (← (sim.encodeBplaList.drop 12)[2 + i * 24]?))) = some ids) :
    parseBoardList sim.encodeBplaList = some {
      type := TCP_KTR_ANSWER_BOARD_LIST
      data := QDataStream.write (fun id => [.quint16 id]) ids } := by
  have hcount : (sim.encodeBplaList.drop 12)[0]? = some (UInt8.ofNat sim.m_bplaList.size) := by
    rw [encodeBplaList_eq]
    rfl
  rw [parseBoardList]
  simp only [hcount, Option.bind_eq_bind, Option.bind_some] at h ⊢
  rw [h]
  rfl

/-- The coder takes the bytes for a board list, and the list it reads is that of the ids of the
simulator in ascending order. -/
def BoardListArrives (fp : Numerics) (fresh copied : Nat → Fresh) (coder : TcpKTRCoder)
    (sim : KtrSimulator) : Prop :=
  ∃ coder' m ids, TcpKTRCoder.encode fp fresh copied coder sim.encodeBplaList =
      some (coder', some m) ∧
    m.type = TCP_KTR_ANSWER_BOARD_LIST ∧
    (QDataStream.readAll QDataStream.readQuint16).run m.data = some (ids, []) ∧
    ids.Pairwise (· < ·) ∧ ∀ id, id ∈ ids ↔ id ∈ sim.m_bplaList

/-- The count comes through while it is no negative `char`. -/
theorem char_size (hsize : sim.m_bplaList.size ≤ 255) :
    (char (UInt8.ofNat sim.m_bplaList.size)).toNat =
      if sim.m_bplaList.size ≤ 127 then sim.m_bplaList.size else 0 := by
  rw [char, UInt8.toNat_ofNat', Nat.mod_eq_of_lt (by omega)]
  split <;> split <;> omega

theorem mapM_entries (hids : ∀ id ∈ sim.m_bplaList, id < 2 ^ 16) (hsize : sim.m_bplaList.size ≤ 255) :
    ((List.range (char (UInt8.ofNat sim.m_bplaList.size)).toNat).mapM fun i => do
      return quint16 (unsignedWord (← (sim.encodeBplaList.drop 12)[3 + i * 24]?)
        (← (sim.encodeBplaList.drop 12)[2 + i * 24]?))) =
      some (if sim.m_bplaList.size ≤ 127 then sim.m_bplaList.keys else []) := by
  rw [char_size hsize]
  split
  · rw [← Std.TreeMap.length_keys]
    refine mapM_range_of_getElem? fun i hi => ?_
    have hget := List.getElem?_eq_getElem hi
    have hmem := Std.TreeMap.mem_keys.mp (List.getElem_mem hi)
    rw [quint16_entry hget (hids _ hmem), hget]
  · rfl

theorem encode_encodeBplaList {fp : Numerics} {fresh copied : Nat → Fresh} {coder : TcpKTRCoder}
    (hids : ∀ id ∈ sim.m_bplaList, id < 2 ^ 16) (hsize : sim.m_bplaList.size ≤ 255) :
    TcpKTRCoder.encode fp fresh copied coder sim.encodeBplaList = some (coder, some {
      type := TCP_KTR_ANSWER_BOARD_LIST
      data := QDataStream.write (fun id => [.quint16 id])
        (if sim.m_bplaList.size ≤ 127 then sim.m_bplaList.keys else []) }) := by
  rw [TcpKTRCoder.encode, if_neg not_isLocationFromKTR_encodeBplaList,
    if_pos isBoardList_encodeBplaList, parseBoardList_encodeBplaList (mapM_entries hids hsize)]
  rfl

theorem run_boardList (ids : List Nat) : (QDataStream.readAll QDataStream.readQuint16).run
    (QDataStream.write (fun id => [.quint16 id]) ids) = some (ids, []) := by
  have hcarries : Carries (QDataStream.write fun id => [.quint16 id])
      (QDataStream.readAll QDataStream.readQuint16) (List.map id) :=
    QDataStream.carries_container (QDataStream.carries_next fun _ => rfl)
  rw [hcarries.run, List.map_id]

theorem boardListArrives_of_short {fp : Numerics} {fresh copied : Nat → Fresh}
    {coder : TcpKTRCoder} (hids : ∀ id ∈ sim.m_bplaList, id < 2 ^ 16)
    (hshort : sim.m_bplaList.size ≤ 127) : BoardListArrives fp fresh copied coder sim := by
  refine ⟨coder, _, sim.m_bplaList.keys, encode_encodeBplaList hids (by omega), rfl, ?_, ?_,
    fun id => Std.TreeMap.mem_keys⟩
  · rw [if_pos hshort]
    exact run_boardList _
  · exact Std.TreeMap.ordered_keys.imp fun h => Nat.compare_eq_lt.mp h

theorem not_boardListArrives_of_long {fp : Numerics} {fresh copied : Nat → Fresh}
    {coder : TcpKTRCoder} (hids : ∀ id ∈ sim.m_bplaList, id < 2 ^ 16)
    (hsize : sim.m_bplaList.size ≤ 255) (hlong : ¬ sim.m_bplaList.size ≤ 127) :
    ¬ BoardListArrives fp fresh copied coder sim := by
  intro harrives
  obtain ⟨coder', m, ids, hencode, -, hread, -, hmem⟩ := harrives
  rw [encode_encodeBplaList hids hsize, if_neg hlong] at hencode
  cases hencode
  rw [run_boardList] at hread
  cases hread
  have hpos : 0 < sim.m_bplaList.keys.length := by
    rw [Std.TreeMap.length_keys]
    omega
  obtain ⟨id, hid⟩ := List.exists_mem_of_length_pos hpos
  exact absurd ((hmem id).mpr (Std.TreeMap.mem_keys.mp hid)) List.not_mem_nil

/-- **Board lists.** A list of up to 255 boards arrives if and only if it has no more than 127. -/
theorem boardListArrives_iff {fp : Numerics} {fresh copied : Nat → Fresh} {coder : TcpKTRCoder}
    (hids : ∀ id ∈ sim.m_bplaList, id < 2 ^ 16) (hsize : sim.m_bplaList.size ≤ 255) :
    BoardListArrives fp fresh copied coder sim ↔ sim.m_bplaList.size ≤ 127 := by
  constructor
  · intro harrives
    by_contra hlong
    exact not_boardListArrives_of_long hids hsize hlong harrives
  · exact boardListArrives_of_short hids

/-- A simulator of `n` boards, as its constructor numbers them. -/
def withBoards (n : Nat) : KtrSimulator where
  m_bplaList := (List.range n).foldl (fun m i => m.insert (101 + i) { device := 1 }) ∅

theorem boardListArrives_two :
    BoardListArrives .exact (fun _ => ⟨⟨0, 0⟩, 0, 0⟩) (fun _ => ⟨⟨0, 0⟩, 0, 0⟩) {} (withBoards 2) := by
  have hkeys : ∀ id ∈ (withBoards 2).m_bplaList.keys, id < 2 ^ 16 := by decide +kernel
  exact (boardListArrives_iff (fun id hid => hkeys id (Std.TreeMap.mem_keys.mpr hid))
    (by decide +kernel)).mpr (by decide +kernel)

/-- Of 128 boards none arrives. -/
theorem not_boardListArrives_128 :
    ¬ BoardListArrives .exact (fun _ => ⟨⟨0, 0⟩, 0, 0⟩) (fun _ => ⟨⟨0, 0⟩, 0, 0⟩) {}
      (withBoards 128) := by
  have hkeys : ∀ id ∈ (withBoards 128).m_bplaList.keys, id < 2 ^ 16 := by decide +kernel
  exact not_boardListArrives_of_long (fun id hid => hkeys id (Std.TreeMap.mem_keys.mpr hid))
    (by decide +kernel) (by decide +kernel)

/-! ### Positions and altitudes -/

/-- Neither frame of a board is long enough for the coder, and no text starts in one. -/
theorem encode_frame_of_board {fp : Numerics} {fresh copied : Nat → Fresh} {coder : TcpKTRCoder}
    {data : List UInt8}
    (hdata : data = sim.encodeAutopilotPosition lib id ∨ data = sim.encodeAtitude lib id) :
    TcpKTRCoder.encode fp fresh copied coder data = some (coder, some emptyMessage) := by
  have hshort : ∀ data : List UInt8, data.length < 12 → 36 ∉ data.take (data.length - 6) →
      TcpKTRCoder.encode fp fresh copied coder data = some (coder, some emptyMessage) := by
    intro data hlength hmark
    refine encode_short (fun hktr => ?_) hlength
    obtain ⟨n, hn, hdollar⟩ := exists_dollar hktr
    refine hmark (List.mem_of_getElem? (i := n) ?_)
    rw [List.getElem?_take_of_lt (by omega), hdollar]
  rcases hdata with rfl | rfl
  · rw [encodeAutopilotPosition]
    split
    · exact hshort [] (by decide) List.not_mem_nil
    · apply hshort
      · exact (by decide : 8 < 12)
      · exact (by decide : 36 ∉ toAscii "AG".toList)
  · rw [encodeAtitude]
    split
    · exact hshort [] (by decide) List.not_mem_nil
    · apply hshort
      · exact (by decide : 10 < 12)
      · exact (by decide : 36 ∉ toAscii "AN00".toList)

/-- The degrees of a number `DDMMTTT`. -/
def degrees (value : Int) : ℚ :=
  let deg := value / 100000
  let min := value % 100000 / 1000
  let minParts := value % 1000
  deg + (min + minParts / 1000) / 60

/-- The coder takes the frame of a board for a position, the one the simulator has encoded. -/
def PositionArrives (fresh copied : Nat → Fresh) (read : Fresh) (coder : TcpKTRCoder)
    (lib : CLibrary) (sim : KtrSimulator) (id : Nat) : Prop :=
  ∃ node coder' m data, sim.m_bplaList[id]? = some node ∧
    TcpKTRCoder.encode .exact fresh copied coder (sim.encodeAutopilotPosition lib id) =
      some (coder', some m) ∧
    m.type = TCP_KTR_ANSWER_BPLA ∧
    (UAVPositionData.getVector read).run m.data = some ([data], []) ∧
    data.latitude = .fin (degrees (encodeAngle lib.fp (position lib sim node).2)) ∧
    data.longitude = .fin (degrees (encodeAngle lib.fp (position lib sim node).1))

/-- **Positions.** No position arrives. -/
theorem not_positionArrives (fresh copied : Nat → Fresh) (read : Fresh) (coder : TcpKTRCoder)
    (lib : CLibrary) (sim : KtrSimulator) (id : Nat) :
    ¬ PositionArrives fresh copied read coder lib sim id := by
  intro harrives
  obtain ⟨node, coder', m, data, -, hencode, htype, -⟩ := harrives
  have hempty := hencode.symm.trans (encode_frame_of_board (Or.inl rfl))
  cases hempty
  exact absurd htype (by decide)

/-- A board on the parallel of its centre, with the sine and the cosine of zero. -/
theorem encode_position_of_board :
    let lib : CLibrary := { fp := .exact, sin := fun _ => 0, cos := fun _ => 1, qrand := fun _ => 0 }
    let sim : KtrSimulator := {
      m_bplaList := (∅ : QMap Nat BplaSimulatorNode).insert 101
        { device := 1, centerLat := 60, centerLon := 30 }
      m_baseAngle := 180 }
    sim.encodeAutopilotPosition lib 101 = positionFrame 6000000 3000597 ∧
      TcpKTRCoder.encode .exact (fun _ => ⟨⟨0, 0⟩, 0, 0⟩) (fun _ => ⟨⟨0, 0⟩, 0, 0⟩) {}
        (sim.encodeAutopilotPosition lib 101) = some ({}, some emptyMessage) := by
  decide +kernel

end KtrSimulator

end ArmOd
