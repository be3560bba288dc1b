import ArmOd.Tcp.TcpKTRCoder

/-!
# The reads the KTR coder can take apart

Every access of `TcpKTRCoder::encode` to an array or a list is to an index the text or the bytes of
the read have to provide: the fields of a position text and the marks in them, the entries a board
list announces. The frames of the boards are only read where they are long enough.
-/

namespace ArmOd

namespace TcpKTRCoder

/-- There are minutes behind the first star of an angle, and an apostrophe in them. -/
def IsAngle (text : Text) : Prop :=
  ∃ minutes, (Text.split ['*'] text)[1]? = some minutes ∧ '\'' ∈ minutes

/-- There are two angles behind the first brace of a point. -/
def IsPoint (field : Text) : Prop :=
  ∃ point, (Text.split ['{'] field)[1]? = some point ∧
    ∃ lat lon rest, Text.split ['|'] (Text.remove ['}'] point) = lat :: lon :: rest ∧
      IsAngle lat ∧ IsAngle lon

/-- The fields between `$KTPGA,` and `END`. -/
def positionFields (data : List UInt8) : List Text :=
  match Text.split KTPGA (textOfBytes data) with
  | _ :: ddt :: _ => Text.split [','] ((Text.split "END".toList ddt).headD [])
  | _ => []

/-- The number of points the field of the count asks for. -/
def countPoints (field : Text) : Nat :=
  let count_points := Text.toInt (Text.left field (field.length - 1))
  (if count_points > 2 then 1 else count_points).toNat

/-- The second field is the count of the points, and they are there. -/
def IsPositionText (data : List UInt8) : Prop :=
  ∃ object count points, positionFields data = object :: count :: points ∧
    ∀ i < countPoints count, ∃ field, points[i]? = some field ∧ IsPoint field

/-- There is a byte for the count, and bytes for as many ids. -/
def HoldsBoards (data : List UInt8) : Prop :=
  ∃ count, data[12]? = some count ∧ ∀ i < (char count).toNat, 15 + i * 24 < data.length

/-- What a read is taken for is all there. -/
def IsWellFormed (data : List UInt8) : Prop :=
  if isLocationFromKTR data then IsPositionText data
  else if isBoardList data then HoldsBoards data
  else True

variable {fp : Numerics} {coder : TcpKTRCoder} {data : List UInt8} {text field : Text}

theorem isSome_mapM_iff {α β : Type} {f : α → Option β} {as : List α} :
    (as.mapM f).isSome ↔ ∀ a ∈ as, (f a).isSome := by
  induction as with
  | nil => simp
  | cons a as ih =>
      rw [List.mapM_cons, List.forall_mem_cons, ← ih]
      cases f a <;> cases as.mapM f <;> simp

theorem isSome_bind_some {α β : Type} {x : Option α} {f : α → β} :
    (x.bind fun a => some (f a)).isSome = x.isSome := by
  cases x <;> rfl

theorem isSome_mapM_range {β : Type} {f : Nat → Option β} {n : Nat} :
    ((List.range n).mapM f).isSome ↔ ∀ i < n, (f i).isSome := by
  simp only [isSome_mapM_iff, List.mem_range]

theorem isSome_textAngle {seconds : Text → Text} :
    (textAngle fp seconds text).isSome ↔ IsAngle text := by
  obtain ⟨deg, hdeg⟩ := Text.exists_getElem?_zero_split ['*'] text
  rw [textAngle, hdeg, IsAngle]
  cases hminutes : (Text.split ['*'] text)[1]? with
  | none => simp
  | some minutes =>
      obtain ⟨min, hmin⟩ := Text.exists_getElem?_zero_split ['\''] minutes
      have hmark : (Text.split ['\''] minutes)[1]?.isSome ↔ '\'' ∈ minutes :=
        Text.isSome_getElem?_one_split
      simp only [Option.some.injEq, exists_eq_left', ← hmark]
      simp only [Option.bind_eq_bind, Option.bind_some, hmin]
      cases hrest : (Text.split ['\''] minutes)[1]? with
      | none => simp
      | some rest =>
          obtain ⟨sec, hsec⟩ := Text.exists_getElem?_zero_split ['\''] rest
          simp [hsec]

theorem isSome_textPosition {fresh : Fresh} :
    (textPosition fp fresh field).isSome ↔ IsPoint field := by
  rw [textPosition, IsPoint]
  cases hpoint : (Text.split ['{'] field)[1]? with
  | none => simp
  | some point =>
      simp only [Option.bind_eq_bind, Option.bind_some, Option.some.injEq, exists_eq_left']
      match Text.split ['|'] (Text.remove ['}'] point) with
      | [] | [_] => simp
      | lat :: lon :: rest =>
          have hlat : (textAngle fp (Text.remove ['"']) lat).isSome ↔ IsAngle lat := isSome_textAngle
          have hlon : (textAngle fp List.dropLast lon).isSome ↔ IsAngle lon := isSome_textAngle
          have hboth : (∃ lat' lon' rest', lat :: lon :: rest = lat' :: lon' :: rest' ∧
              IsAngle lat' ∧ IsAngle lon') ↔ IsAngle lat ∧ IsAngle lon := by simp [and_assoc]
          rw [hboth, ← hlat, ← hlon]
          simp only [List.getElem?_cons_zero, List.getElem?_cons_succ, Option.bind_some]
          cases textAngle fp (Text.remove ['"']) lat <;> cases textAngle fp List.dropLast lon <;>
            simp

theorem exists_split_of_isLocationFromKTR (h : isLocationFromKTR data) :
    ∃ front ddt more, Text.split KTPGA (textOfBytes data) = front :: ddt :: more := by
  rw [isLocationFromKTR] at h
  split at h
  · exact ⟨_, _, _, ‹_›⟩
  · cases h

theorem positionFields_eq {front ddt final : Text} {more : List Text}
    (hsplit : Text.split KTPGA (textOfBytes data) = front :: ddt :: more)
    (hfinal : (Text.split "END".toList ddt)[0]? = some final) :
    positionFields data = Text.split [','] final := by
  rw [positionFields, hsplit]
  simp only
  rw [List.headD_eq_head?_getD, List.head?_eq_getElem?, hfinal, Option.getD_some]

theorem isSome_parseLocationFromKTR {fresh copied : Nat → Fresh} (h : isLocationFromKTR data) :
    (parseLocationFromKTR fp fresh copied data).isSome ↔ IsPositionText data := by
  obtain ⟨front, ddt, more, hsplit⟩ := exists_split_of_isLocationFromKTR h
  obtain ⟨final, hfinal⟩ := Text.exists_getElem?_zero_split "END".toList ddt
  rw [parseLocationFromKTR, IsPositionText, hsplit, positionFields_eq hsplit hfinal]
  simp only [List.getElem?_cons_succ, List.getElem?_cons_zero, Option.bind_eq_bind,
    Option.bind_some, hfinal]
  match Text.split [','] final with
  | [] | [_] => simp
  | object :: count :: points =>
      have hfields : (∃ object' count' points', object :: count :: points = object' :: count' ::
          points' ∧ ∀ i < countPoints count', ∃ field, points'[i]? = some field ∧ IsPoint field) ↔
          ∀ i < countPoints count, ∃ field, points[i]? = some field ∧ IsPoint field := by
        simp [and_assoc]
      rw [hfields]
      simp only [List.getElem?_cons_succ, List.getElem?_cons_zero, Option.bind_some,
        Option.pure_def, isSome_bind_some, isSome_mapM_range]
      refine forall₂_congr fun i _ => ?_
      cases points[i]? with
      | none => simp
      | some field =>
          simp only [Option.bind_some, Option.some.injEq, exists_eq_left', isSome_bind_some,
            isSome_textPosition]

theorem isSome_parseBoardList : (parseBoardList data).isSome ↔ HoldsBoards data := by
  rw [parseBoardList, HoldsBoards, List.getElem?_drop]
  cases data[12 + 0]? with
  | none => simp
  | some count =>
      simp only [Option.bind_eq_bind, Option.bind_some, Option.pure_def, isSome_bind_some,
        isSome_mapM_range, Option.some.injEq, exists_eq_left', List.getElem?_drop]
      refine forall₂_congr fun i _ => ?_
      by_cases hlong : 15 + i * 24 < data.length
      · have hhigh : data[12 + (3 + i * 24)]? = some data[12 + (3 + i * 24)] :=
          List.getElem?_eq_getElem (by omega)
        have hlow : data[12 + (2 + i * 24)]? = some data[12 + (2 + i * 24)] :=
          List.getElem?_eq_getElem (by omega)
        simp [hhigh, hlow, hlong]
      · have hhigh : data[12 + (3 + i * 24)]? = none := List.getElem?_eq_none (by omega)
        simp [hhigh, hlong]

/-- The frames of the boards are long enough for what is read of them. -/
theorem encode_returns_of_frame {fresh copied : Nat → Fresh} (hktr : ¬ isLocationFromKTR data)
    (hlist : ¬ isBoardList data) :
    ∃ coder' m, encode fp fresh copied coder data = some (coder', some m) := by
  rw [encode, if_neg hktr, if_neg hlist]
  by_cases hshort : data.length < 10
  · exact ⟨coder, emptyMessage, if_pos hshort⟩
  rw [if_neg hshort]
  by_cases hframe : isFrame data
  · have hlength : 15 ≤ data.length := of_decide_eq_true hframe
    have hget : ∀ i, i < 15 → ∃ b, data[i]? = some b :=
      fun i hi => ⟨_, List.getElem?_eq_getElem (by omega)⟩
    obtain ⟨f1, h0⟩ := hget 0 (by omega)
    obtain ⟨f2, h1⟩ := hget 1 (by omega)
    obtain ⟨high, h8⟩ := hget 8 (by omega)
    obtain ⟨low, h9⟩ := hget 9 (by omega)
    obtain ⟨speed, h10⟩ := hget 10 (by omega)
    obtain ⟨measured, -, -, hmeasured, -⟩ := boardPosition_of_length fp coder (fresh 0) hlength
    simp only [hframe, if_true, h0, h1, h8, h9, h10, parseLocationFromBoard, hmeasured,
      Option.bind_eq_bind, Option.bind_some, Option.pure_def]
    split
    · exact ⟨_, _, rfl⟩
    · split <;> exact ⟨_, _, rfl⟩
  · exact ⟨coder, emptyMessage, if_neg hframe⟩

/-- A message of a part of `encode` is the message of `encode`. -/
theorem returns_iff_isSome {x : Option Message} :
    (∃ coder' m, (do return (coder, some (← x))) = some (coder', some m)) ↔ x.isSome := by
  cases x <;> simp

/-- **Which reads are safe.** A call returns a message exactly on the reads that are well formed. -/
theorem encode_returns_iff {fresh copied : Nat → Fresh} :
    (∃ coder' m, encode fp fresh copied coder data = some (coder', some m)) ↔
      IsWellFormed data := by
  rw [IsWellFormed]
  split
  case isTrue hktr =>
      rw [encode, if_pos hktr, returns_iff_isSome, isSome_parseLocationFromKTR hktr]
  case isFalse hktr =>
      split
      case isTrue hlist =>
          rw [encode, if_neg hktr, if_pos hlist, returns_iff_isSome, isSome_parseBoardList]
      case isFalse hlist =>
          exact iff_of_true (encode_returns_of_frame hktr hlist) trivial

/-- A position text without fields. -/
theorem encode_leaves_fields :
    encode .exact (fun _ => ⟨⟨0, 0⟩, 0, 0⟩) (fun _ => ⟨⟨0, 0⟩, 0, 0⟩) {}
      ("$KTPGA,END".toList.map fun c => UInt8.ofNat c.toNat) = none := by
  decide +kernel

end TcpKTRCoder

end ArmOd
