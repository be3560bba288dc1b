import ArmOd.Tcp.KtrSafety
import ArmOd.Tcp.TcpManager

/-!
# The reads of a KTR socket

`TcpKTRCoder::encode` takes every read for one message or for nothing, and keeps no bytes for the
next call. So the listeners are told what the reads are taken for, and the stream they are cut from
does not matter.
-/

namespace ArmOd

namespace TcpKTRCoder

open BaseTcpDeviceController

/-- What a read is taken for, with what is read of it. -/
inductive Part where
  | positions (fields : List Text)
  | boards (data : List UInt8)
  | frame (data : List UInt8)
  | airspeed (data : List UInt8)
  deriving DecidableEq

/-- The read is a frame with the airspeed and the barometric altitude of a board. -/
def isAirspeed (data : List UInt8) : Bool :=
  !isLocationFromKTR data && !isBoardList data && isFrame data && !isLocationFromBoard data &&
    data[1]? == some 78

/-- The part of a read the coder uses, if any. -/
def part (data : List UInt8) : Option Part :=
  if isLocationFromKTR data then some (.positions (positionFields data))
  else if isBoardList data then some (.boards (data.drop 12))
  else if isLocationFromBoard data then some (.frame ((data.drop 2).take 12))
  else if isAirspeed data then some (.airspeed ((data.drop 8).take 3))
  else none

/-- The type of the message the listeners are told of a part. -/
def Part.answer : Part → Option String
  | positions _ | frame _ => some TCP_KTR_ANSWER_BPLA
  | boards _ => some TCP_KTR_ANSWER_BOARD_LIST
  | airspeed _ => none

/-- The listeners are told of the reads what they would be told of the messages, each in a read of
its own. -/
def ReportsSame (fp : Numerics) (fresh copied : Nat → Fresh) (fuel : Nat) (coder : TcpKTRCoder)
    (messages chunks : List (List UInt8)) : Prop :=
  ∃ told, (receive (encode fp fresh copied) (fuel + 1) coder messages).map Prod.fst = some told ∧
    (receive (encode fp fresh copied) (fuel + 1) coder chunks).map Prod.fst = some told

variable {fp : Numerics} {fresh copied : Nat → Fresh} {coder coder' : TcpKTRCoder} {fuel : Nat}
  {data data' : List UInt8} {m : Option Message}

/-! ### One read -/

theorem onDataReceived_eq (h : encode fp fresh copied coder data = some (coder', m)) :
    onDataReceived (encode fp fresh copied) (fuel + 1) coder data =
      some ((nonEmpty m).toList, coder') := by
  have hnil : encode fp fresh copied coder' [] = some (coder', some emptyMessage) := rfl
  rw [onDataReceived, h]
  simp only [Option.bind_eq_bind, Option.bind_some]
  cases nonEmpty m with
  | none => rfl
  | some m' =>
      rw [drain, hnil]
      rfl

theorem onDataReceived_of_none (h : encode fp fresh copied coder data = none) :
    onDataReceived (encode fp fresh copied) (fuel + 1) coder data = none := by
  rw [onDataReceived, h]
  rfl

theorem parseLocationFromKTR_congr (h : isLocationFromKTR data) (h' : isLocationFromKTR data')
    (hfields : positionFields data = positionFields data') :
    parseLocationFromKTR fp fresh copied data = parseLocationFromKTR fp fresh copied data' := by
  obtain ⟨front, ddt, more, hsplit⟩ := exists_split_of_isLocationFromKTR h
  obtain ⟨front', ddt', more', hsplit'⟩ := exists_split_of_isLocationFromKTR h'
  obtain ⟨final, hfinal⟩ := Text.exists_getElem?_zero_split "END".toList ddt
  obtain ⟨final', hfinal'⟩ := Text.exists_getElem?_zero_split "END".toList ddt'
  rw [positionFields_eq hsplit hfinal, positionFields_eq hsplit' hfinal'] at hfields
  simp only [parseLocationFromKTR, hsplit, hsplit', List.getElem?_cons_succ,
    List.getElem?_cons_zero, Option.bind_eq_bind, Option.bind_some, hfinal, hfinal', hfields]

theorem parseBoardList_congr (h : data.drop 12 = data'.drop 12) :
    parseBoardList data = parseBoardList data' := by
  simp only [parseBoardList, h]

theorem getElem?_congr {start length i : Nat}
    (h : (data.drop start).take length = (data'.drop start).take length)
    (hi : start ≤ i) (hlt : i < start + length) : data[i]? = data'[i]? := by
  have hget := congrArg (fun bytes => bytes[i - start]?) h
  simp only [List.getElem?_take, List.getElem?_drop] at hget
  rwa [if_pos (by omega), if_pos (by omega), Nat.add_sub_cancel' hi] at hget

theorem boardPosition_congr {fresh : Fresh}
    (h : (data.drop 2).take 12 = (data'.drop 2).take 12) :
    boardPosition fp fresh coder data = boardPosition fp fresh coder data' := by
  have hget : ∀ i, 2 ≤ i → i < 14 → data[i]? = data'[i]? := fun i => getElem?_congr h
  simp (disch := decide) only [boardPosition, hget]

theorem exists_of_isFrame (h : isFrame data) :
    ¬ data.length < 10 ∧ ∃ f1 f2, data[0]? = some f1 ∧ data[1]? = some f2 := by
  have hlength : 15 ≤ data.length := of_decide_eq_true h
  exact ⟨by omega, _, _, List.getElem?_eq_getElem (by omega), List.getElem?_eq_getElem (by omega)⟩

theorem encode_of_isLocationFromKTR (h : isLocationFromKTR data) :
    encode fp fresh copied coder data =
      (parseLocationFromKTR fp fresh copied data).map fun m => (coder, some m) := by
  rw [encode, if_pos h]
  exact Option.map_eq_bind.symm

theorem encode_of_isBoardList (hktr : ¬ isLocationFromKTR data) (h : isBoardList data) :
    encode fp fresh copied coder data = (parseBoardList data).map fun m => (coder, some m) := by
  rw [encode, if_neg hktr, if_pos h]
  exact Option.map_eq_bind.symm

theorem encode_of_isAirspeed (h : isAirspeed data) :
    encode fp fresh copied coder data = (do
      let m_altitude := fp.ofRat (signedWord (← data[8]?) (← data[9]?))
      let m_speed := fp.ofRat (← data[10]?).toNat
      return ({ m_altitude, m_speed }, some emptyMessage)) := by
  simp only [isAirspeed, isLocationFromBoard, Bool.and_eq_true, Bool.not_eq_true', beq_iff_eq] at h
  obtain ⟨⟨⟨⟨hktr, hlist⟩, hframe⟩, hboard⟩, h1⟩ := h
  obtain ⟨hlength, f1, f2, h0, -⟩ := exists_of_isFrame hframe
  simp [encode, hktr, hlist, hlength, hframe, h0, h1]

theorem encode_of_part_eq_none (h : part data = none) :
    encode fp fresh copied coder data = some (coder, some emptyMessage) := by
  simp only [part] at h
  split_ifs at h with hktr hlist hboard hspeed
  rw [encode, if_neg hktr, if_neg hlist]
  by_cases hframe : isFrame data
  · obtain ⟨hlength, f1, f2, h0, h1⟩ := exists_of_isFrame hframe
    have hag : ¬ (f1 = 65 ∧ f2 = 71) := by
      intro hag
      exact hboard (by simp [isLocationFromBoard, hktr, hlist, hframe, h0, h1, hag])
    have hn : ¬ f2 = 78 := by
      intro hn
      exact hspeed (by simp [isAirspeed, hktr, hlist, hframe, hboard, h1, hn])
    simp [hlength, hframe, h0, h1, hag, hn]
  · simp [hframe]

theorem encode_congr {p : Part} (h : part data = some p) (h' : part data' = some p) :
    encode fp fresh copied coder data = encode fp fresh copied coder data' := by
  simp only [part] at h h'
  split_ifs at h with hktr hlist hboard hspeed <;> cases h <;>
    split_ifs at h' with hktr' hlist' hboard' hspeed' <;>
    simp only [Option.some.injEq, Part.positions.injEq, Part.boards.injEq, Part.frame.injEq,
      Part.airspeed.injEq, reduceCtorEq] at h'
  · rw [encode_of_isLocationFromKTR hktr, encode_of_isLocationFromKTR hktr',
      parseLocationFromKTR_congr hktr hktr' h'.symm]
  · rw [encode_of_isBoardList hktr hlist, encode_of_isBoardList hktr' hlist',
      parseBoardList_congr h'.symm]
  · obtain ⟨measured, -, -, hmeasured, -⟩ := boardPosition_of_length fp coder (fresh 0)
      (length_of_isLocationFromBoard hboard)
    have hmeasured' : boardPosition fp (fresh 0) coder data' = some measured :=
      (boardPosition_congr h').trans hmeasured
    rw [encode_of_isLocationFromBoard fresh copied hboard hmeasured,
      encode_of_isLocationFromBoard fresh copied hboard' hmeasured']
  · have hget : ∀ i, 8 ≤ i → i < 11 → data[i]? = data'[i]? := fun i => getElem?_congr h'.symm
    rw [encode_of_isAirspeed hspeed, encode_of_isAirspeed hspeed']
    simp (disch := decide) only [hget]

/-! ### A stream -/

/-- A read that is taken for nothing leaves no trace. -/
theorem onDataReceived_of_part_eq_none (h : part data = none) :
    onDataReceived (encode fp fresh copied) (fuel + 1) coder data = some ([], coder) :=
  onDataReceived_eq (encode_of_part_eq_none h)

theorem onDataReceived_congr {p : Part} (h : part data = some p) (h' : part data' = some p) :
    onDataReceived (encode fp fresh copied) (fuel + 1) coder data =
      onDataReceived (encode fp fresh copied) (fuel + 1) coder data' := by
  rw [onDataReceived, onDataReceived, encode_congr h h']

theorem receive_append_of_part_eq_none {front chunks : List (List UInt8)}
    (h : ∀ data ∈ front, part data = none) :
    receive (encode fp fresh copied) (fuel + 1) coder (front ++ chunks) =
      receive (encode fp fresh copied) (fuel + 1) coder chunks := by
  induction front with
  | nil => rfl
  | cons data front ih =>
      obtain ⟨hdata, hfront⟩ := List.forall_mem_cons.mp h
      rw [List.cons_append, receive, onDataReceived_of_part_eq_none hdata]
      simp [ih hfront]

theorem receive_of_filterMap_eq_nil {chunks : List (List UInt8)}
    (h : chunks.filterMap part = []) :
    receive (encode fp fresh copied) (fuel + 1) coder chunks = some ([], coder) := by
  rw [← List.append_nil chunks,
    receive_append_of_part_eq_none (List.filterMap_eq_nil_iff.mp h)]
  rfl

theorem receive_congr {chunks messages : List (List UInt8)}
    (h : chunks.filterMap part = messages.filterMap part) :
    receive (encode fp fresh copied) (fuel + 1) coder chunks =
      receive (encode fp fresh copied) (fuel + 1) coder messages := by
  induction chunks generalizing coder messages with
  | nil => rw [receive, receive_of_filterMap_eq_nil h.symm]
  | cons data chunks ih =>
      cases hpart : part data with
      | none =>
          rw [List.filterMap_cons_none hpart] at h
          rw [receive, onDataReceived_of_part_eq_none hpart]
          simp [ih h]
      | some p =>
          rw [List.filterMap_cons_some hpart] at h
          obtain ⟨front, data', rest, rfl, hfront, hpart', hrest⟩ :=
            List.filterMap_eq_cons_iff.mp h.symm
          rw [receive_append_of_part_eq_none hfront, receive, receive,
            onDataReceived_congr hpart hpart']
          simp only [ih hrest.symm]

/-! ### What is told -/

theorem type_of_encode (h : encode fp fresh copied coder data = some (coder', m)) :
    (nonEmpty m).toList.map Message.type = ((part data).bind Part.answer).toList := by
  rw [part]
  split_ifs with hktr hlist hboard hspeed
  · rw [encode_of_isLocationFromKTR hktr] at h
    obtain ⟨m', hm, heq⟩ := Option.map_eq_some_iff.mp h
    cases heq
    simp only [parseLocationFromKTR, Option.bind_eq_bind, Option.bind_eq_some_iff] at hm
    obtain ⟨_, -, _, -, _, -, positions, -, hm⟩ := hm
    cases hm
    rfl
  · rw [encode_of_isBoardList hktr hlist] at h
    obtain ⟨m', hm, heq⟩ := Option.map_eq_some_iff.mp h
    cases heq
    simp only [parseBoardList, Option.bind_eq_bind, Option.bind_eq_some_iff] at hm
    obtain ⟨_, -, identificators, -, hm⟩ := hm
    cases hm
    rfl
  · obtain ⟨measured, -, -, hmeasured, -⟩ := boardPosition_of_length fp coder (fresh 0)
      (length_of_isLocationFromBoard hboard)
    rw [encode_of_isLocationFromBoard fresh copied hboard hmeasured] at h
    cases h
    rfl
  · rw [encode_of_isAirspeed hspeed] at h
    simp only [Option.bind_eq_bind, Option.bind_eq_some_iff] at h
    obtain ⟨_, -, _, -, _, -, h⟩ := h
    cases h
    rfl
  · have hnone : part data = none := by simp [part, hktr, hlist, hboard, hspeed]
    rw [encode_of_part_eq_none hnone] at h
    cases h
    rfl

theorem types_of_receive {chunks : List (List UInt8)} {told : List Message}
    (h : receive (encode fp fresh copied) (fuel + 1) coder chunks = some (told, coder')) :
    told.map Message.type = (chunks.filterMap part).filterMap Part.answer := by
  induction chunks generalizing coder told with
  | nil =>
      cases h
      rfl
  | cons data chunks ih =>
      cases hencode : encode fp fresh copied coder data with
      | none =>
          rw [receive, onDataReceived_of_none hencode] at h
          cases h
      | some p =>
          rw [receive, onDataReceived_eq hencode] at h
          simp only [Option.bind_eq_bind, Option.bind_some, Option.bind_eq_some_iff] at h
          obtain ⟨⟨more, coder''⟩, hmore, heq⟩ := h
          cases heq
          rw [List.map_append, type_of_encode hencode, ih hmore, List.filterMap_filterMap,
            List.filterMap_filterMap, List.filterMap_cons]
          cases (part data).bind Part.answer <;> rfl

theorem exists_receive_of_isWellFormed {chunks : List (List UInt8)}
    (h : ∀ data ∈ chunks, IsWellFormed data) :
    ∃ told, receive (encode fp fresh copied) (fuel + 1) coder chunks = some told := by
  induction chunks generalizing coder with
  | nil => exact ⟨_, rfl⟩
  | cons data chunks ih =>
      obtain ⟨hdata, hchunks⟩ := List.forall_mem_cons.mp h
      obtain ⟨coder', m, hencode⟩ := encode_returns_iff.mpr hdata
      obtain ⟨told, hreceive⟩ : ∃ told, receive (encode fp fresh copied) (fuel + 1) coder' chunks =
        some told := ih hchunks
      refine ⟨((nonEmpty (some m)).toList ++ told.1, told.2), ?_⟩
      rw [receive, onDataReceived_eq hencode]
      simp [hreceive]

theorem reportsSame_of_parts {messages chunks : List (List UInt8)}
    (hmessages : ∀ data ∈ messages, IsWellFormed data)
    (h : chunks.filterMap part = messages.filterMap part) :
    ReportsSame fp fresh copied fuel coder messages chunks := by
  obtain ⟨told, hreceive⟩ : ∃ told, receive (encode fp fresh copied) (fuel + 1) coder messages =
    some told := exists_receive_of_isWellFormed hmessages
  refine ⟨told.1, by rw [hreceive, Option.map_some], ?_⟩
  rw [receive_congr h, hreceive, Option.map_some]

theorem answers_of_reportsSame {messages chunks : List (List UInt8)}
    (h : ReportsSame fp fresh copied fuel coder messages chunks) :
    (chunks.filterMap part).filterMap Part.answer =
      (messages.filterMap part).filterMap Part.answer := by
  obtain ⟨told, htold, htold'⟩ := h
  obtain ⟨⟨_, coder'⟩, hreceive, rfl⟩ := Option.map_eq_some_iff.mp htold
  obtain ⟨⟨_, coder''⟩, hreceive', heq⟩ := Option.map_eq_some_iff.mp htold'
  cases heq
  rw [← types_of_receive hreceive, ← types_of_receive hreceive']

/-- **Reads and messages.** Where the reads are taken for what the messages are, in their order, the
listeners are told the messages; and they are told them only where as many reads are taken for
positions and for board lists as there are messages of each, in the same order. -/
theorem reportsSame {messages chunks : List (List UInt8)}
    (hmessages : ∀ data ∈ messages, IsWellFormed data) :
    (chunks.filterMap part = messages.filterMap part →
      ReportsSame fp fresh copied fuel coder messages chunks) ∧
    (ReportsSame fp fresh copied fuel coder messages chunks →
      (chunks.filterMap part).filterMap Part.answer =
        (messages.filterMap part).filterMap Part.answer) :=
  ⟨reportsSame_of_parts hmessages, answers_of_reportsSame⟩

/-- Every message in a read of its own, whatever reads without bytes there are between them. -/
theorem parts_of_own_reads {messages chunks : List (List UInt8)}
    (h : (chunks.filter fun data => !data.isEmpty) = messages) :
    chunks.filterMap part = messages.filterMap part := by
  subst h
  induction chunks with
  | nil => rfl
  | cons data chunks ih =>
      cases data with
      | nil => exact ih
      | cons b data => simp [List.filterMap_cons, ih]

theorem reportsSame_frames :
    ReportsSame .exact (fun _ => ⟨⟨0, 0⟩, 0, 0⟩) (fun _ => ⟨⟨0, 0⟩, 0, 0⟩) 0 {}
      [TcpManager.frame, TcpManager.frame] [TcpManager.frame, [], TcpManager.frame] := by
  refine (reportsSame fun data hdata => ?_).1 (parts_of_own_reads rfl)
  have hktr : isLocationFromKTR TcpManager.frame = false := by decide +kernel
  have hlist : isBoardList TcpManager.frame = false := by decide +kernel
  have hdata' : data = TcpManager.frame := by simpa using hdata
  simp [hdata', IsWellFormed, hktr, hlist]

/-- Of two frames in one read the second is lost, and a frame in two reads is lost. -/
theorem not_reportsSame :
    (([TcpManager.frame ++ TcpManager.frame] : List (List UInt8)).flatten =
        [TcpManager.frame, TcpManager.frame].flatten ∧
      ¬ ReportsSame .exact (fun _ => ⟨⟨0, 0⟩, 0, 0⟩) (fun _ => ⟨⟨0, 0⟩, 0, 0⟩) 0 {}
        [TcpManager.frame, TcpManager.frame] [TcpManager.frame ++ TcpManager.frame]) ∧
    [TcpManager.frame.take 8, TcpManager.frame.drop 8].flatten = [TcpManager.frame].flatten ∧
      ¬ ReportsSame .exact (fun _ => ⟨⟨0, 0⟩, 0, 0⟩) (fun _ => ⟨⟨0, 0⟩, 0, 0⟩) 0 {}
        [TcpManager.frame] [TcpManager.frame.take 8, TcpManager.frame.drop 8] := by
  refine ⟨⟨rfl, fun hsame => ?_⟩, rfl, fun hsame => ?_⟩
  · exact absurd (answers_of_reportsSame hsame) (by decide +kernel)
  · exact absurd (answers_of_reportsSame hsame) (by decide +kernel)

end TcpKTRCoder

end ArmOd
