import ArmOd.Tcp.KtrThread
import ArmOd.Tcp.TcpManager

/-!
# The names of the KTR connections

`TcpManager::onMessageReceived` takes the board and the device of a position message from the name
of its controller. The controllers of the boards are named by a key that ends in the two; the
controllers of the configuration have a plain name, and their coder makes position messages too.
-/

namespace ArmOd

/-- The controllers that are registered with `TcpManager`, by what made them. -/
inductive TcpKTRController where
  | addTcpDevice (deviceName : String)
  | connectToBoard (host : String) (port : UInt32) (board : UInt16) (device : UInt32)
  deriving DecidableEq

namespace TcpKTRController

open TcpManager

/-- The host of a client with its port, and the name of the controller. -/
def m_tcpDeviceName : TcpKTRController → String
  | addTcpDevice deviceName => deviceName
  | connectToBoard host port board device =>
    TcpKTRManager.boardKey (TcpKTRManager.KtrThread.getHost (host, port.toNat)) board.toNat
      device.toNat

/-- The second and the third element of the name are the decimal board and device, and every record
of the message is forwarded with them. -/
def Identifies (hops : Hops) (deviceName : String) (m : Message) (board device : Nat) : Prop :=
  (deviceNameInfo deviceName)[2]? = some (QString.number board) ∧
    (deviceNameInfo deviceName)[3]? = some (QString.number device) ∧
    ∃ positions forwarded, (UAVPositionData.getVector hops.read).run m.data = some (positions, []) ∧
      onBplaReceived hops deviceName m.data = some (UAVPositionData.putVector forwarded) ∧
      forwarded.length = positions.length ∧
      ∀ data ∈ forwarded, data.boardID = board ∧ data.device = device

/-- The board and the device `connectToBoard` was called with. -/
def calledWith : TcpKTRController → Option (Nat × Nat)
  | addTcpDevice _ => none
  | connectToBoard _ _ board device => some (board.toNat, device.toNat)

/-- A message of the controller is forwarded for the board and the device it was made for. -/
def IdentifiesBoard (hops : Hops) (controller : TcpKTRController) (m : Message) : Prop :=
  ∃ board device, controller.calledWith = some (board, device) ∧
    Identifies hops controller.m_tcpDeviceName m board device

/-- The controller is one of a board, and its host has no colon, or happens to continue the right
way behind it. -/
def NamesBoard : TcpKTRController → Prop
  | addTcpDevice _ => False
  | connectToBoard host port board device =>
    match deviceNameInfo host with
    | [] | [_] => True
    | [_, _] => port.toNat = board.toNat ∧ board.toNat = device.toNat
    | [_, _, piece] => piece = QString.number board.toNat ∧ port.toNat = device.toNat
    | _ :: _ :: piece :: piece' :: _ =>
      piece = QString.number board.toNat ∧ piece' = QString.number device.toNat

variable {fp : Numerics} {hops : Hops} {coder coder' : TcpKTRCoder} {data : List UInt8}
  {m : Message} {deviceName : String} {board device : Nat}

/-! ### Messages -/

theorem exists_of_parseLocationFromKTR {fresh copied : Nat → Fresh}
    (h : TcpKTRCoder.parseLocationFromKTR fp fresh copied data = some m) :
    ∃ positions, m.data = UAVPositionData.putVector positions := by
  simp only [TcpKTRCoder.parseLocationFromKTR, Option.bind_eq_bind, Option.bind_eq_some_iff] at h
  obtain ⟨_, -, _, -, _, -, positions, -, hm⟩ := h
  cases hm
  exact ⟨positions, rfl⟩

theorem type_of_parseBoardList (h : TcpKTRCoder.parseBoardList data = some m) :
    m.type = TCP_KTR_ANSWER_BOARD_LIST := by
  simp only [TcpKTRCoder.parseBoardList, Option.bind_eq_bind, Option.bind_eq_some_iff] at h
  obtain ⟨_, -, _, -, hm⟩ := h
  cases hm
  rfl

theorem exists_of_parseLocationFromBoard {fresh copied : Fresh}
    (h : TcpKTRCoder.parseLocationFromBoard fp fresh copied coder data = some m) :
    ∃ positions, m.data = UAVPositionData.putVector positions := by
  simp only [TcpKTRCoder.parseLocationFromBoard, Option.bind_eq_bind, Option.bind_eq_some_iff] at h
  obtain ⟨position, -, hm⟩ := h
  cases hm
  exact ⟨_, rfl⟩

theorem exists_putVector {fresh copied : Nat → Fresh}
    (h : TcpKTRCoder.encode fp fresh copied coder data = some (coder', some m))
    (htype : m.type = TCP_KTR_ANSWER_BPLA) :
    ∃ positions, m.data = UAVPositionData.putVector positions := by
  have hempty : ∀ {c}, some (c, some TcpKTRCoder.emptyMessage) = some (coder', some m) →
      ∃ positions, m.data = UAVPositionData.putVector positions := by
    intro c heq
    cases heq
    exact absurd htype (by decide)
  rw [TcpKTRCoder.encode] at h
  split at h
  · obtain ⟨m', hm, heq⟩ := Option.bind_eq_some_iff.mp h
    cases heq
    exact exists_of_parseLocationFromKTR hm
  · split at h
    · obtain ⟨m', hm, heq⟩ := Option.bind_eq_some_iff.mp h
      cases heq
      rw [type_of_parseBoardList hm] at htype
      exact absurd htype (by decide)
    · split at h
      · exact hempty h
      · split at h
        · simp only [Option.bind_eq_bind, Option.bind_eq_some_iff] at h
          obtain ⟨f1, -, f2, -, h⟩ := h
          split at h
          · obtain ⟨m', hm, heq⟩ := Option.bind_eq_some_iff.mp h
            cases heq
            exact exists_of_parseLocationFromBoard hm
          · split at h
            · simp only [Option.bind_eq_some_iff] at h
              obtain ⟨b8, -, b9, -, b10, -, h⟩ := h
              exact hempty h
            · exact hempty h
        · exact hempty h

/-! ### Names -/

theorem splitOn_number (n : Nat) :
    (QString.number n).toList.splitOn ':' = [(QString.number n).toList] := by
  refine List.splitOn_eq_singleton fun hmem => ?_
  rw [QString.toList_number] at hmem
  exact absurd (Nat.isDigit_of_mem_toDigits (by decide) (by decide) hmem) (by decide)

/-- The pieces of a key are those of its host, and the three numbers. -/
theorem deviceNameInfo_boardKey (host : String) (port board device : Nat) :
    deviceNameInfo (TcpKTRManager.boardKey (TcpKTRManager.KtrThread.getHost (host, port)) board
      device) = deviceNameInfo host ++ [QString.number port, QString.number board,
        QString.number device] := by
  have hcolon : (":" : String).toList = [':'] := rfl
  simp only [deviceNameInfo, TcpKTRManager.boardKey, TcpKTRManager.KtrThread.getHost,
    String.toList_append, hcolon, List.append_assoc,
    List.splitOn_append_cons_self, splitOn_number, List.map_append, List.map_cons, List.map_nil,
    String.ofList_toList, List.cons_append, List.nil_append]

theorem deviceNameInfo_ne_nil (deviceName : String) : deviceNameInfo deviceName ≠ [] := fun hnil =>
  List.splitOn_ne_nil _ _ (List.map_eq_nil_iff.mp hnil)

theorem namesBoard_iff (host : String) (port : UInt32) (board : UInt16) (device : UInt32) :
    NamesBoard (connectToBoard host port board device) ↔
      (deviceNameInfo (connectToBoard host port board device).m_tcpDeviceName)[2]? =
        some (QString.number board.toNat) ∧
      (deviceNameInfo (connectToBoard host port board device).m_tcpDeviceName)[3]? =
        some (QString.number device.toNat) := by
  rw [m_tcpDeviceName, deviceNameInfo_boardKey, NamesBoard]
  match hpieces : deviceNameInfo host with
  | [] => exact absurd hpieces (deviceNameInfo_ne_nil host)
  | [_] => simp
  | [_, _] => simp [QString.number_injective.eq_iff]
  | [_, _, piece] => simp [QString.number_injective.eq_iff]
  | _ :: _ :: piece :: piece' :: _ => simp

/-! ### Forwarded records -/

theorem namesIds_of_number (host : String) (port : UInt32) (board : UInt16) (device : UInt32)
    (h : NamesBoard (connectToBoard host port board device)) :
    NamesIds (connectToBoard host port board device).m_tcpDeviceName board.toNat device.toNat := by
  obtain ⟨hboard, hdevice⟩ := (namesBoard_iff host port board device).mp h
  have hlt : board.toNat < 2 ^ 16 := board.toNat_lt
  refine ⟨_, _, hboard, hdevice, ?_, QString.toUInt_number device.toNat_lt⟩
  rw [QString.toUShort, QString.toUInt_number (hlt.trans (by decide)), if_pos hlt]

/-- What is forwarded of a record, with the ids. -/
def forward (hops : Hops) (board device : Nat) (p : UAVPositionData × Nat) : UAVPositionData :=
  UAVPositionData.copy (hops.replaced p.2) { p.1 with boardID := board, device := device }

/-- Where the name gives the ids, every record of a message is forwarded with them. -/
theorem onBplaReceived_of_namesIds (hops : Hops) (h : NamesIds deviceName board device)
    (positions : List UAVPositionData) :
    ∃ forwarded, onBplaReceived hops deviceName (UAVPositionData.putVector positions) =
        some (UAVPositionData.putVector forwarded) ∧
      forwarded.length = positions.length ∧
      ∀ data ∈ forwarded, data.boardID = board ∧ data.device = device := by
  have hrecords : ((positions.map UAVPositionData.received).zipIdx.mapM fun p =>
      forConnection hops deviceName p.2 p.1) =
      some ((positions.map UAVPositionData.received).zipIdx.map (forward hops board device)) := by
    simp only [forConnection_of_namesIds h]
    exact List.mapM_pure
  refine ⟨(positions.map UAVPositionData.received).zipIdx.map (forward hops board device), ?_, ?_,
    fun data hdata => ?_⟩
  · rw [onBplaReceived, (UAVPositionData.carries_vector hops.read).run]
    simp only [Option.bind_eq_bind, Option.bind_some, hrecords, Option.pure_def]
  · rw [List.length_map, List.length_zipIdx, List.length_map]
  · obtain ⟨p, -, rfl⟩ := List.mem_map.mp hdata
    exact ⟨rfl, rfl⟩

/-- **The boards of the position messages.** A position message is forwarded for the board and the
device of its connection if and only if the controller was made by `connectToBoard` and the colons
of its host, where there are any, do not move the two. -/
theorem identifiesBoard_iff {fresh copied : Nat → Fresh} (controller : TcpKTRController)
    (h : TcpKTRCoder.encode fp fresh copied coder data = some (coder', some m))
    (htype : m.type = TCP_KTR_ANSWER_BPLA) :
    controller.IdentifiesBoard hops m ↔ controller.NamesBoard := by
  cases controller with
  | addTcpDevice deviceName =>
      refine iff_of_false (fun hidentifies => ?_) id
      obtain ⟨board, device, hcalled, -⟩ := hidentifies
      cases hcalled
  | connectToBoard host port board device =>
      constructor
      · intro hidentifies
        obtain ⟨board', device', hcalled, hboard, hdevice, -⟩ := hidentifies
        cases hcalled
        exact (namesBoard_iff host port board device).mpr ⟨hboard, hdevice⟩
      · intro hnames
        obtain ⟨hboard, hdevice⟩ := (namesBoard_iff host port board device).mp hnames
        obtain ⟨positions, hm⟩ := exists_putVector h htype
        obtain ⟨forwarded, hforwarded, hlength, hids⟩ := onBplaReceived_of_namesIds hops
          (namesIds_of_number host port board device hnames) positions
        refine ⟨_, _, rfl, hboard, hdevice, positions.map UAVPositionData.received, forwarded, ?_,
          hm ▸ hforwarded, hlength.trans (List.length_map _).symm, hids⟩
        rw [hm, (UAVPositionData.carries_vector hops.read).run]

theorem encode_frame :
    ∃ m, TcpKTRCoder.encode .exact (fun _ => ⟨⟨0, 0⟩, 0, 0⟩) (fun _ => ⟨⟨0, 0⟩, 0, 0⟩) {} frame =
      some ({}, some m) ∧ m.type = TCP_KTR_ANSWER_BPLA := by
  have hlength : 15 ≤ frame.length := by decide
  obtain ⟨measured, -, -, hmeasured, -⟩ := TcpKTRCoder.boardPosition_of_length .exact {}
    ⟨⟨0, 0⟩, 0, 0⟩ hlength
  exact ⟨_, TcpKTRCoder.encode_of_isLocationFromBoard _ _ (by decide +kernel) hmeasured, rfl⟩

theorem identifiesBoard_frame :
    ∃ m, m.type = TCP_KTR_ANSWER_BPLA ∧
      (connectToBoard "127.0.0.1" 5000 7 1).IdentifiesBoard (.filled 0 0) m := by
  obtain ⟨m, hencode, htype⟩ := encode_frame
  refine ⟨m, htype, (identifiesBoard_iff _ hencode htype).mpr ?_⟩
  have hpieces : deviceNameInfo "127.0.0.1" = ["127.0.0.1"] := by decide +kernel
  rw [NamesBoard, hpieces]
  trivial

/-- A text with one point. -/
def positionText : List UInt8 :=
  "$KTPGA,OBJ_ID=1044,1X,P0=\x7b41*49'32.14\"|41*46'7.81\"\x7d,END".toList.map
    fun c => UInt8.ofNat c.toNat

/-- The position text of a configured device asks for list elements that are not there, and with
a colon in its host, behind which the port to connect to is found, a frame of board 7 is forwarded
for board 5000. -/
theorem not_identifiesBoard :
    (∃ coder' m, TcpKTRCoder.encode .exact (fun _ => ⟨⟨0, 0⟩, 0, 0⟩) (fun _ => ⟨⟨0, 0⟩, 0, 0⟩) {}
        positionText = some (coder', some m) ∧ m.type = TCP_KTR_ANSWER_BPLA ∧
        ¬ (addTcpDevice "KTR_1").IdentifiesBoard (.filled 0 0) m ∧
        onBplaReceived (.filled 0 0) (addTcpDevice "KTR_1").m_tcpDeviceName m.data = none) ∧
      (∃ m, TcpKTRCoder.encode .exact (fun _ => ⟨⟨0, 0⟩, 0, 0⟩) (fun _ => ⟨⟨0, 0⟩, 0, 0⟩) {} frame =
        some ({}, some m) ∧ m.type = TCP_KTR_ANSWER_BPLA ∧
        ¬ (connectToBoard "127.0.0.1:5001" 5000 7 1).IdentifiesBoard (.filled 0 0) m) ∧
      (telemetry .exact (.filled 0 0) (connectToBoard "127.0.0.1:5001" 5000 7 1).m_tcpDeviceName {}
        frame).map (List.map UAVPositionData.boardID) = some [5000] := by
  refine ⟨?_, ?_, by decide +kernel⟩
  · have htext : ((TcpKTRCoder.encode .exact (fun _ => ⟨⟨0, 0⟩, 0, 0⟩) (fun _ => ⟨⟨0, 0⟩, 0, 0⟩) {}
        positionText).bind Prod.snd).map (fun m =>
          (m.type, onBplaReceived (.filled 0 0) "KTR_1" m.data)) =
        some (TCP_KTR_ANSWER_BPLA, none) := by
      decide +kernel
    obtain ⟨m, hm, heq⟩ := Option.map_eq_some_iff.mp htext
    obtain ⟨⟨coder', m'⟩, hencode, rfl⟩ := Option.bind_eq_some_iff.mp hm
    obtain ⟨htype, hnone⟩ := Prod.mk.inj heq
    refine ⟨coder', m, hencode, htype, fun hidentifies => ?_, hnone⟩
    obtain ⟨board, device, hcalled, -⟩ := hidentifies
    cases hcalled
  · obtain ⟨m, hencode, htype⟩ := encode_frame
    refine ⟨m, hencode, htype, fun hidentifies => ?_⟩
    obtain ⟨board, device, hcalled, hboard, -⟩ := hidentifies
    cases hcalled
    have hpiece : (deviceNameInfo (connectToBoard "127.0.0.1:5001" 5000 7 1).m_tcpDeviceName)[2]? =
        some "5000" := by
      decide +kernel
    rw [hpiece, Option.some_inj] at hboard
    exact absurd hboard (by decide +kernel)

end TcpKTRController

end ArmOd
