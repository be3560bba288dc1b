import ArmOd.Tcp.TcpKTRManager

/-!
# The thread that runs TcpKTRManager

`TcpManager::onMessageReceived` and the life timers call the manager from event handlers, and
`connectToBoard` runs the event loop of its thread while it holds `m_deleteMutex`. The state here is
the stack of that thread. An event is delivered when no handler runs or when the top of the stack
waits in the loop, a call takes the mutex and runs to its end or to the loop, and a wait ends when
the board is connected or its time is over.
-/

namespace ArmOd

/-- `TCP::Connected`. -/
def TCP.Connected : Int := 1

namespace TcpKTRManager

inductive KtrFrame where
  /-- A handler with the calls it has still to make. -/
  | handler (calls : List KtrCall)
  /-- `connectToBoard` in its wait loop. -/
  | waiting (hostPort : String) (board device : Nat)
  /-- The process has ended on an index out of range. -/
  | aborted
  deriving DecidableEq, Repr

structure KtrThread where
  manager : TcpKTRManager := {}
  /-- The KTR devices of `TcpManager`, with the host and the port of their client. -/
  m_controllersMap : QMap String (String × Nat) := ∅
  /-- `m_deleteMutex` is held. -/
  locked : Bool := false
  stack : List KtrFrame := []

/-- What the event loop can run. -/
inductive KtrEvent where
  | connectionStatus (deviceName : String) (connectionState : Int)
  | boardList (deviceName : String) (boardList : List Nat)
  | lifeTimer (key : String)
  | addTcpDevice (deviceName host : String) (port : Nat)
  | removeTcpDevice (deviceName : String)
  deriving DecidableEq, Repr

inductive KtrStep where
  | deliver (event : KtrEvent)
  /-- The handler on top makes its next call, or returns. -/
  | call
  /-- The wait loop on top ends. -/
  | finish
  deriving DecidableEq, Repr

namespace KtrThread

def getHost (client : String × Nat) : String := client.1 ++ ":" ++ QString.number client.2

/-- The calls a handler makes of the manager. -/
def calls (s : KtrThread) : KtrEvent → List KtrCall
  | .connectionStatus deviceName connectionState =>
    match s.m_controllersMap[deviceName]? with
    | some client => if connectionState = TCP.Connected then
          [.needToUpdateAfterDisconnect true (getHost client)] else []
    | none => []
  | .boardList deviceName boardList =>
    match s.m_controllersMap[deviceName]? with
    | some client =>
      (boardList.flatMap fun boardID =>
        [.connectToBoard (getHost client) boardID KTR_DEVICE_AUTOPILOT,
          .connectToBoard (getHost client) boardID KTR_DEVICE_KTRGA622]) ++
        [.needToUpdateAfterDisconnect false (getHost client)]
    | none => []
  | .lifeTimer key => [.timeoutSlot key]
  | .addTcpDevice .. | .removeTcpDevice .. => []

def devices (s : KtrThread) : KtrEvent → QMap String (String × Nat)
  | .addTcpDevice deviceName host port => s.m_controllersMap.insert deviceName (host, port)
  | .removeTcpDevice deviceName => s.m_controllersMap.erase deviceName
  | .connectionStatus .. | .boardList .. | .lifeTimer .. => s.m_controllersMap

/-- The handler of the event starts. -/
def handle (s : KtrThread) (event : KtrEvent) : KtrThread :=
  { s with m_controllersMap := s.devices event, stack := .handler (s.calls event) :: s.stack }

/-- A call of the manager by the handler on top, up to its end or its loop, with the calls after it
and the frames below. -/
def perform (s : KtrThread) (c : KtrCall) (rest : List KtrCall) (below : List KtrFrame) :
    KtrThread :=
  match c with
  | .connectToBoard hostPort board device =>
    if s.manager.isNewBoard hostPort board device then
      match s.manager.openBoard hostPort board device with
      | some manager =>
          { s with
            manager, locked := true
            stack := .waiting hostPort board device :: .handler rest :: below }
      | none => { s with stack := [.aborted] }
    else match s.manager.connectToBoard hostPort board device with
      | some (manager, _) => { s with manager, stack := .handler rest :: below }
      | none => { s with stack := [.aborted] }
  | .needToUpdateAfterDisconnect value hostPost =>
      { s with
        manager := s.manager.needToUpdateAfterDisconnect value hostPost
        stack := .handler rest :: below }
  | .timeoutSlot key =>
      { s with manager := s.manager.timeoutSlot key, stack := .handler rest :: below }

/-- The mutex is not recursive: a call waits while the mutex is held. -/
def run (s : KtrThread) (c : KtrCall) (rest : List KtrCall) (below : List KtrFrame) : KtrThread :=
  if s.locked then s else s.perform c rest below

def step (s : KtrThread) : KtrStep → KtrThread
  | .deliver event =>
    match s.stack with
    | [] | .waiting .. :: _ => s.handle event
    | _ => s
  | .call =>
    match s.stack with
    | .handler [] :: below => { s with stack := below }
    | .handler (c :: rest) :: below => s.run c rest below
    | _ => s
  | .finish =>
    match s.stack with
    | .waiting hostPort board device :: below =>
      { s with manager := (s.manager.finishBoard hostPort board device).1, locked := false, stack := below }
    | _ => s

/-- The handler on top is about to lock the mutex its own thread holds. -/
def Relocks (s : KtrThread) : Prop :=
  s.locked = true ∧ ∃ c rest below, s.stack = .handler (c :: rest) :: below

/-- A handler that the wait loop starts makes no call of the manager. -/
def KeepsOut (s : KtrThread) : KtrStep → Prop
  | .deliver event => (∃ hostPort board device below, s.stack =
        .waiting hostPort board device :: below) → s.calls event = []
  | .call | .finish => True

variable {s : KtrThread} {steps : List KtrStep}

/-- A thread that locks again stays where it is. -/
theorem step_of_relocks (h : Relocks s) (op : KtrStep) : s.step op = s := by
  obtain ⟨hlocked, c, rest, below, hstack⟩ := h
  cases op <;> simp [step, run, hstack, hlocked]

/-! ### The calls take turns -/

/-- The call in the wait loop, if the frame is one. -/
def wait? : KtrFrame → Option (String × Nat × Nat)
  | .waiting hostPort board device => some (hostPort, board, device)
  | .handler _ | .aborted => none

def waits (s : KtrThread) : List (String × Nat × Nat) := s.stack.filterMap wait?

/-- The manager is the one a history of whole calls leaves, or the one inside the single call that
holds the mutex. -/
def Serial (s : KtrThread) : Prop :=
  match s.waits with
  | [] => s.locked = false ∧ ∃ calls, after calls = some s.manager
  | [(hostPort, board, device)] => s.locked = true ∧ ∃ calls manager, after calls = some manager ∧
      manager.isNewBoard hostPort board device ∧
      manager.openBoard hostPort board device = some s.manager
  | _ => False

theorem after_append {m m' : TcpKTRManager} {calls : List KtrCall} {c : KtrCall}
    (h : after calls = some m) (hcall : m.call c = some m') :
    after (calls ++ [c]) = some m' := by
  rw [after, List.foldlM_append, ← after, h]
  simp [hcall]

theorem serial_congr {s' : KtrThread} (hmanager : s'.manager = s.manager)
    (hlocked : s'.locked = s.locked) (hwaits : s'.waits = s.waits) :
    Serial s' ↔ Serial s := by
  rw [Serial, Serial, hwaits, hlocked, hmanager]

theorem serial_of_waits_eq_nil (hlocked : s.locked = false) (hwaits : s.waits = [])
    {calls : List KtrCall} (h : after calls = some s.manager) :
    Serial s := by
  rw [Serial, hwaits]
  exact ⟨hlocked, calls, h⟩

theorem Serial.of_not_locked (h : Serial s) (hlocked : s.locked = false) : s.waits = [] ∧
    ∃ calls, after calls = some s.manager := by
  rw [Serial] at h
  split at h
  next hwaits => exact ⟨hwaits, h.2⟩
  · simp [hlocked] at h
  · exact h.elim

theorem Serial.locked (h : Serial s) {hostPort : String} {board device : Nat}
    {below : List KtrFrame}
    (hstack : s.stack = .waiting hostPort board device :: below) : s.locked = true := by
  by_contra hlocked
  have hwaits := (h.of_not_locked (Bool.eq_false_iff.mpr hlocked)).1
  rw [waits, hstack] at hwaits
  cases hwaits

theorem Serial.handle (h : Serial s) (event : KtrEvent) : Serial (s.handle event) :=
  (serial_congr rfl rfl rfl).mpr h

theorem Serial.perform (h : Serial s) (hlocked : s.locked = false) {c : KtrCall}
    {rest : List KtrCall} {below : List KtrFrame}
    (hstack : s.stack = .handler (c :: rest) :: below) : Serial (s.perform c rest below) := by
  obtain ⟨hwaits, calls, hafter⟩ := h.of_not_locked hlocked
  have hbelow : below.filterMap wait? = [] := by rwa [waits, hstack] at hwaits
  cases c with
  | connectToBoard hostPort board device =>
      rw [KtrThread.perform]
      split
      next hnew =>
        split
        next manager hopen =>
          simp only [Serial, waits, List.filterMap_cons, wait?, hbelow]
          exact ⟨trivial, calls, s.manager, hafter, hnew, hopen⟩
        · exact serial_of_waits_eq_nil hlocked rfl hafter
      · split
        next manager sent hconnect =>
          have hcall : s.manager.call (.connectToBoard hostPort board device) = some manager := by
            rw [TcpKTRManager.call, hconnect, Option.map_some]
          exact serial_of_waits_eq_nil hlocked hbelow (after_append hafter hcall)
        · exact serial_of_waits_eq_nil hlocked rfl hafter
  | needToUpdateAfterDisconnect value hostPost =>
      exact serial_of_waits_eq_nil hlocked hbelow
        (after_append (c := .needToUpdateAfterDisconnect value hostPost) hafter rfl)
  | timeoutSlot key =>
      exact serial_of_waits_eq_nil hlocked hbelow (after_append (c := .timeoutSlot key) hafter rfl)

theorem Serial.step (h : Serial s) (op : KtrStep) : Serial (s.step op) := by
  cases op with
  | deliver event =>
      rw [KtrThread.step]
      split
      · exact h.handle event
      · exact h.handle event
      · exact h
  | call =>
      rw [KtrThread.step]
      split
      next below hstack =>
        have hwaits : waits { s with stack := below } = s.waits := by
          simp only [waits, hstack, List.filterMap_cons, wait?]
        have hiff : Serial { s with stack := below } ↔ Serial s := serial_congr rfl rfl hwaits
        exact hiff.mpr h
      next c rest below hstack =>
        rw [KtrThread.run]
        split
        · exact h
        next hlocked => exact h.perform (Bool.eq_false_iff.mpr hlocked) hstack
      · exact h
  | finish =>
      rw [KtrThread.step]
      split
      next hostPort board device below hstack =>
        rw [Serial, waits, hstack, List.filterMap_cons_some (by rfl)] at h
        cases hbelow : below.filterMap wait? with
        | cons w ws => simp [hbelow] at h
        | nil =>
            simp only [hbelow] at h
            obtain ⟨-, calls, manager, hafter, hnew, hopen⟩ := h
            have hcall : manager.call (.connectToBoard hostPort board device) = some
              (s.manager.finishBoard hostPort board device).1 := by
              rw [TcpKTRManager.call, connectToBoard, if_pos hnew, hopen, Option.map_some,
                Option.map_some]
            exact serial_of_waits_eq_nil rfl hbelow (after_append hafter hcall)
      · exact h

/-- **The calls take turns**, whatever the event loop runs. -/
theorem serial_of_run (h : Serial s) : Serial (steps.foldl KtrThread.step s) := by
  induction steps generalizing s with
  | nil => exact h
  | cons op steps ih => exact ih (h.step op)

/-! ### No thread waits for itself -/

/-- While the mutex is held, the call that holds it is on top of the stack, or below a handler with
nothing left to do. -/
def WaitsOnTop (s : KtrThread) : Prop :=
  s.locked = true → ∃ frame below, (wait? frame).isSome ∧
    (s.stack = frame :: below ∨ s.stack = .handler [] :: frame :: below)

theorem WaitsOnTop.not_relocks (h : WaitsOnTop s) : ¬ Relocks s := by
  intro hrelocks
  obtain ⟨hlocked, c, rest, below, hstack⟩ := hrelocks
  obtain ⟨frame, below', hframe, htop | htop⟩ := h hlocked
  · rw [hstack, List.cons.injEq] at htop
    simp [← htop.1, wait?] at hframe
  · rw [hstack] at htop
    simp at htop

theorem WaitsOnTop.perform (h : s.locked = false) (c : KtrCall) (rest : List KtrCall)
    (below : List KtrFrame) : WaitsOnTop (s.perform c rest below) := by
  intro hlocked
  cases c with
  | connectToBoard hostPort board device =>
      rw [KtrThread.perform] at hlocked ⊢
      split at hlocked
      next hnew =>
        rw [if_pos hnew]
        split at hlocked
        next manager hopen => exact ⟨_, _, rfl, Or.inl rfl⟩
        · simp [h] at hlocked
      · split at hlocked <;> simp [h] at hlocked
  | needToUpdateAfterDisconnect value hostPost => simp [KtrThread.perform, h] at hlocked
  | timeoutSlot key => simp [KtrThread.perform, h] at hlocked

/-- What a step keeps, as long as the handlers of the wait loop keep out of the manager. -/
theorem WaitsOnTop.step {op : KtrStep} (h : WaitsOnTop s) (hop : KeepsOut s op) : WaitsOnTop
    (s.step op) := by
  cases op with
  | deliver event =>
      rw [KtrThread.step]
      split
      next hstack =>
        intro hlocked
        obtain ⟨frame, below, -, htop | htop⟩ := h hlocked <;> simp [hstack] at htop
      next hostPort board device below hstack =>
        intro hlocked
        refine ⟨.waiting hostPort board device, below, rfl, Or.inr ?_⟩
        rw [KtrThread.handle, hop ⟨hostPort, board, device, below, hstack⟩, hstack]
      · exact h
  | call =>
      rw [KtrThread.step]
      split
      next below hstack =>
        intro hlocked
        obtain ⟨frame, below', hframe, htop | htop⟩ := h hlocked
        · rw [hstack, List.cons.injEq] at htop
          simp [← htop.1, wait?] at hframe
        · rw [hstack, List.cons.injEq] at htop
          exact ⟨frame, below', hframe, Or.inl htop.2⟩
      next c rest below hstack =>
        rw [KtrThread.run]
        split
        · exact h
        next hlocked => exact WaitsOnTop.perform (Bool.eq_false_iff.mpr hlocked) c rest below
      · exact h
  | finish =>
      rw [KtrThread.step]
      split
      · exact fun hlocked => by cases hlocked
      · exact h

/-- A handler that calls the manager from the wait loop comes to lock the mutex at once. -/
theorem keepsOut_iff {op : KtrStep} (hserial : Serial s) (h : WaitsOnTop s) : KeepsOut s op ↔
    ¬ Relocks (s.step op) := by
  refine ⟨fun hop => (h.step hop).not_relocks, fun hnot => ?_⟩
  cases op with
  | call | finish => trivial
  | deliver event =>
      intro hwaits
      obtain ⟨hostPort, board, device, below, hstack⟩ := hwaits
      cases hcalls : s.calls event with
      | nil => rfl
      | cons c rest =>
          refine absurd ?_ hnot
          rw [KtrThread.step, hstack, KtrThread.handle, hcalls]
          exact ⟨hserial.locked hstack, c, rest, s.stack, rfl⟩

/-- **No self-deadlock.** The thread never comes to lock the mutex it holds, if and only if no
handler that the wait loop runs calls the manager. -/
theorem never_relocks_iff (controllersMap : QMap String (String × Nat)) (steps : List KtrStep) :
    (∀ before, before <+: steps → ¬ Relocks
      (before.foldl step { m_controllersMap := controllersMap })) ↔
      Along step KeepsOut { m_controllersMap := controllersMap } steps := by
  have hserial : Serial { m_controllersMap := controllersMap } :=
    serial_of_waits_eq_nil rfl rfl (show after [] = _ from rfl)
  have hontop : WaitsOnTop { m_controllersMap := controllersMap } := fun hlocked => by cases hlocked
  rw [Along.forall_prefix_iff fun s => ¬ Relocks s, and_iff_right hontop.not_relocks]
  have hstep : ∀ s op, Serial s ∧ WaitsOnTop s → KeepsOut s op → Serial (s.step op) ∧
    WaitsOnTop (s.step op) :=
    fun s op hs hop => ⟨hs.1.step op, hs.2.step hop⟩
  exact (Along.congr hstep (fun s op hs => keepsOut_iff hs.1 hs.2) ⟨hserial, hontop⟩).symm

/-- A host whose board list arrives again while the connection to its board is awaited. -/
def secondBoardList : List KtrStep :=
  [.deliver (.boardList "KTR" [7]), .call, .deliver (.boardList "KTR" [7])]

theorem secondBoardList_relocks : Relocks
    (secondBoardList.foldl step { m_controllersMap := .ofList [("KTR", ("h", 1))] }) := by
  refine ⟨by decide +kernel, .connectToBoard "h:1" 7 1,
    [.connectToBoard "h:1" 7 622, .needToUpdateAfterDisconnect false "h:1"],
    [.waiting "h:1" 7 1, .handler [.connectToBoard "h:1" 7 622,
      .needToUpdateAfterDisconnect false "h:1"]], ?_⟩
  decide +kernel

end KtrThread

end TcpKTRManager

end ArmOd
