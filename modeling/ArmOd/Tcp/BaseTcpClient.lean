import ArmOd.Base.Run

/-!
# BaseTcpClient

The reconnect timer of `BaseTcpClient.cpp`. The timer is started by the slot for the socket's errors
and by a connect request that has failed, and it is killed by `signalKillTimer`. A connect request
stays inside `waitForConnected` for up to a second, and the socket may deliver its signals in there,
so a call is cut here into what comes before the wait and what comes after it; the steps of the
machine are these pieces and the signals.

What `QObject` promises of its timers is in `TimerIds`: the id of a new timer is not zero and not
that of a running one.
-/

namespace ArmOd

inductive TcpConnectionState where
  | Disconnected
  | Connected
  deriving DecidableEq, Repr

/-- The ids that `startTimer` returns: the `n`th call, with the timers that are running then. -/
structure TimerIds where
  id : Nat → List Nat → Nat
  id_ne_zero : ∀ n running, id n running ≠ 0
  id_notMem : ∀ n running, id n running ∉ running

/-- The calls that wait for the socket to connect. -/
inductive WaitingCall where
  | connectToHostInternalSlot
  | onSocketReconnectSlot
  deriving DecidableEq, Repr

structure BaseTcpClient where
  m_host : String := "127.0.0.1"
  m_port : Nat := 0
  m_reconnectTimer : Nat := 0
  isOpen : Bool := false
  /-- The statuses told by `signalConnectedToHost`. -/
  told : List TcpConnectionState := []
  /-- The timers of the object that are running. -/
  timers : List Nat := []
  /-- How often a timer has been started. -/
  started : Nat := 0
  waiting : Option WaitingCall := none
  deriving DecidableEq, Repr

namespace BaseTcpClient

/-! ### The slots -/

/-- `m_reconnectTimer = startTimer( m_reconnectTimeout )`. -/
def startReconnectTimer (ids : TimerIds) (s : BaseTcpClient) : BaseTcpClient :=
  let id := ids.id s.started s.timers
  { s with m_reconnectTimer := id, timers := s.timers ++ [id], started := s.started + 1 }

def killTimerSlot (s : BaseTcpClient) : BaseTcpClient :=
  if s.m_reconnectTimer ≠ 0 then
    { s with timers := s.timers.erase s.m_reconnectTimer, m_reconnectTimer := 0 }
  else s

def onSocketConnected (s : BaseTcpClient) : BaseTcpClient :=
  let s := s.killTimerSlot
  { s with isOpen := true, told := s.told ++ [.Connected] }

def onSocketDisconnected (s : BaseTcpClient) : BaseTcpClient :=
  { s with isOpen := false, told := s.told ++ [.Disconnected] }

def onSocketDisplayError (ids : TimerIds) (s : BaseTcpClient) : BaseTcpClient :=
  let s := { s with isOpen := false }
  if s.m_reconnectTimer = 0 then s.startReconnectTimer ids else s

inductive SocketSignal where
  | connected
  | disconnected
  | error
  deriving DecidableEq, Repr

def onSignal (ids : TimerIds) (s : BaseTcpClient) : SocketSignal → BaseTcpClient
  | .connected => s.onSocketConnected
  | .disconnected => s.onSocketDisconnected
  | .error => s.onSocketDisplayError ids

/-- `connectToHostInternalSlot`, up to the wait. -/
def connectToHostInternalSlot (s : BaseTcpClient) (host : String) (port : Nat) : BaseTcpClient :=
  let s := { s with m_host := host, m_port := port }
  { s.killTimerSlot with waiting := some .connectToHostInternalSlot }

/-- `connectToHostInternalSlot`, after the wait. -/
def connectReturned (ids : TimerIds) (s : BaseTcpClient) (connected : Bool) : BaseTcpClient :=
  let s := { s with waiting := none }
  if connected then s
  else
    let s : BaseTcpClient := { s with told := s.told ++ [.Disconnected] }
    s.startReconnectTimer ids

/-- `aborted` says that there is a connection for `close` to abort. -/
def disconnectFromHostInternalSlot (s : BaseTcpClient) (aborted : Bool) : BaseTcpClient :=
  let s := s.killTimerSlot
  let s := if aborted then s.onSocketDisconnected else s
  { s with isOpen := false }

/-- `onSocketReconnectSlot`, up to the wait. -/
def onSocketReconnectSlot (s : BaseTcpClient) (unconnected : Bool) : BaseTcpClient :=
  if !unconnected then s
  else { s with isOpen := false, waiting := some .onSocketReconnectSlot }

def timerEvent (s : BaseTcpClient) (timerId : Nat) (unconnected : Bool) : BaseTcpClient :=
  if timerId = s.m_reconnectTimer then s.onSocketReconnectSlot unconnected else s

/-! ### The machine -/

inductive Op where
  | connectToHost (host : String) (port : Nat)
  /-- `waitForConnected` of a connect request returns. -/
  | connectReturns (connected : Bool)
  | signal (signal : SocketSignal)
  /-- `unconnected` says that the socket is in the state `UnconnectedState`. -/
  | timerEvent (timerId : Nat) (unconnected : Bool)
  /-- `waitForConnected` of a reconnection returns. -/
  | reconnectReturns
  | disconnectFromHost (aborted : Bool)
  deriving DecidableEq, Repr

/-- One step. The event loop does not run during a wait, so requests and timer events are not
delivered then, and only the call that waits returns. -/
def step (ids : TimerIds) (s : BaseTcpClient) : Op → BaseTcpClient
  | .signal signal => s.onSignal ids signal
  | .connectToHost host port =>
      if s.waiting = none then s.connectToHostInternalSlot host port else s
  | .connectReturns connected =>
      if s.waiting = some .connectToHostInternalSlot then s.connectReturned ids connected else s
  | .timerEvent timerId unconnected =>
      if s.waiting = none then s.timerEvent timerId unconnected else s
  | .reconnectReturns =>
      if s.waiting = some .onSocketReconnectSlot then { s with waiting := none } else s
  | .disconnectFromHost aborted =>
      if s.waiting = none then s.disconnectFromHostInternalSlot aborted else s

/-! ### One timer at most -/

/-- The timer whose id is kept is the only one that runs, and without an id none runs. -/
def OneTimer (s : BaseTcpClient) : Prop :=
  s.timers = if s.m_reconnectTimer = 0 then [] else [s.m_reconnectTimer]

/-- After the step at most one timer runs and its id is in `m_reconnectTimer`; none runs after the
connected signal of the socket and after a disconnection. -/
structure TimerDiscipline (ids : TimerIds) (s : BaseTcpClient) (op : Op) : Prop where
  kept : (s.step ids op).timers = [] ∨ (s.step ids op).timers = [(s.step ids op).m_reconnectTimer]
  connected : op = .signal .connected → (s.step ids op).timers = []
  disconnected : ∀ aborted, op = .disconnectFromHost aborted → s.waiting = none →
    (s.step ids op).timers = []

/-- When the wait of a connect request ends without a connection, no timer id is kept: no error
signal has started a timer during the wait, or a connected signal has killed it. -/
def NoTimerAtFailure (s : BaseTcpClient) (op : Op) : Prop :=
  op = .connectReturns false → s.waiting = some .connectToHostInternalSlot →
    s.m_reconnectTimer = 0

variable {ids : TimerIds} {s : BaseTcpClient} {op : Op}

theorem oneTimer_empty : OneTimer {} := rfl

theorem OneTimer.timers_eq (h : s.OneTimer) : s.timers = [] ∨ s.timers = [s.m_reconnectTimer] := by
  rw [OneTimer] at h
  split at h
  · exact Or.inl h
  · exact Or.inr h

theorem OneTimer.of_eq {s' : BaseTcpClient} (h : s.OneTimer) (htimers : s'.timers = s.timers)
    (htimer : s'.m_reconnectTimer = s.m_reconnectTimer) : s'.OneTimer := by
  rw [OneTimer, htimers, htimer]
  exact h

theorem OneTimer.killTimerSlot (h : s.OneTimer) :
    s.killTimerSlot.m_reconnectTimer = 0 ∧ s.killTimerSlot.timers = [] := by
  rw [OneTimer] at h
  by_cases hzero : s.m_reconnectTimer = 0
  · simpa [BaseTcpClient.killTimerSlot, hzero] using h
  · simp [BaseTcpClient.killTimerSlot, hzero, h]

theorem startReconnectTimer_timers :
    (s.startReconnectTimer ids).timers = s.timers ++ [(s.startReconnectTimer ids).m_reconnectTimer] :=
  rfl

theorem oneTimer_startReconnectTimer (h : s.timers = []) : (s.startReconnectTimer ids).OneTimer := by
  have hne : (s.startReconnectTimer ids).m_reconnectTimer ≠ 0 := ids.id_ne_zero s.started s.timers
  rw [OneTimer, startReconnectTimer_timers, h, if_neg hne, List.nil_append]

theorem OneTimer.onSocketDisplayError (h : s.OneTimer) : (s.onSocketDisplayError ids).OneTimer := by
  rw [BaseTcpClient.onSocketDisplayError]
  split
  · rename_i hzero
    rw [OneTimer, if_pos hzero] at h
    exact oneTimer_startReconnectTimer h
  · exact h

/-- Starting a second timer while the id of another one is kept leaves two running. -/
theorem not_oneTimer_startReconnectTimer (h : s.OneTimer) (hne : s.m_reconnectTimer ≠ 0) :
    ¬((s.startReconnectTimer ids).timers = [] ∨
      (s.startReconnectTimer ids).timers = [(s.startReconnectTimer ids).m_reconnectTimer]) := by
  rw [OneTimer, if_neg hne] at h
  simp [startReconnectTimer_timers, h]

theorem connectReturned_iff (h : s.OneTimer) :
    ((s.connectReturned ids false).timers = [] ∨ (s.connectReturned ids false).timers =
      [(s.connectReturned ids false).m_reconnectTimer]) ↔ s.m_reconnectTimer = 0 := by
  have hs : OneTimer { s with waiting := none, told := s.told ++ [.Disconnected] } :=
    h.of_eq rfl rfl
  constructor
  · intro hkept
    by_contra hne
    exact not_oneTimer_startReconnectTimer hs hne hkept
  · intro hzero
    rw [OneTimer, if_pos hzero] at h
    exact (oneTimer_startReconnectTimer h).timers_eq

theorem OneTimer.onSignal (h : s.OneTimer) (signal : SocketSignal) :
    (s.onSignal ids signal).OneTimer := by
  cases signal with
  | connected =>
      obtain ⟨hzero, hnil⟩ := h.killTimerSlot
      simp only [BaseTcpClient.onSignal, onSocketConnected, OneTimer, hzero, hnil, if_true]
  | disconnected => exact h.of_eq rfl rfl
  | error => exact h.onSocketDisplayError

theorem OneTimer.connectToHostInternalSlot (h : s.OneTimer) (host : String) (port : Nat) :
    (s.connectToHostInternalSlot host port).OneTimer := by
  have hs : OneTimer { s with m_host := host, m_port := port } := h.of_eq rfl rfl
  obtain ⟨hzero, hnil⟩ := hs.killTimerSlot
  simp only [BaseTcpClient.connectToHostInternalSlot, OneTimer, hzero, hnil, if_true]

theorem OneTimer.timerEvent (h : s.OneTimer) (timerId : Nat) (unconnected : Bool) :
    (s.timerEvent timerId unconnected).OneTimer := by
  rw [BaseTcpClient.timerEvent]
  split
  · cases unconnected with
    | false => exact h
    | true => exact h.of_eq rfl rfl
  · exact h

theorem OneTimer.disconnectFromHostInternalSlot (h : s.OneTimer) (aborted : Bool) :
    (s.disconnectFromHostInternalSlot aborted).m_reconnectTimer = 0 ∧
      (s.disconnectFromHostInternalSlot aborted).timers = [] := by
  cases aborted with
  | false => exact h.killTimerSlot
  | true => exact h.killTimerSlot

theorem OneTimer.connectReturned (h : s.OneTimer) (connected : Bool)
    (hzero : connected = false → s.m_reconnectTimer = 0) :
    (s.connectReturned ids connected).OneTimer := by
  cases connected with
  | true => exact h.of_eq rfl rfl
  | false =>
      rw [OneTimer, if_pos (hzero rfl)] at h
      exact oneTimer_startReconnectTimer h

theorem OneTimer.step (h : s.OneTimer) (hop : s.NoTimerAtFailure op) :
    (s.step ids op).OneTimer := by
  cases op with
  | signal signal => exact h.onSignal signal
  | connectToHost host port =>
      rw [BaseTcpClient.step]
      split
      · exact h.connectToHostInternalSlot host port
      · exact h
  | connectReturns connected =>
      rw [BaseTcpClient.step]
      split
      · rename_i hwaiting
        exact h.connectReturned connected fun hfalse => hop (hfalse ▸ rfl) hwaiting
      · exact h
  | timerEvent timerId unconnected =>
      rw [BaseTcpClient.step]
      split
      · exact h.timerEvent timerId unconnected
      · exact h
  | reconnectReturns =>
      rw [BaseTcpClient.step]
      split
      · exact h.of_eq rfl rfl
      · exact h
  | disconnectFromHost aborted =>
      rw [BaseTcpClient.step]
      split
      · obtain ⟨hzero, hnil⟩ := h.disconnectFromHostInternalSlot aborted
        rw [OneTimer, hzero, hnil, if_pos rfl]
      · exact h

theorem OneTimer.discipline_iff (h : s.OneTimer) :
    TimerDiscipline ids s op ↔ s.NoTimerAtFailure op := by
  constructor
  · intro hdiscipline hop hwaiting
    have hkept := hdiscipline.kept
    rw [hop, BaseTcpClient.step, if_pos hwaiting] at hkept
    exact (connectReturned_iff h).mp hkept
  · intro hop
    refine ⟨(h.step hop).timers_eq, ?_, ?_⟩
    · intro hconnected
      rw [hconnected]
      exact h.killTimerSlot.2
    · intro aborted hdisconnect hwaiting
      rw [hdisconnect, BaseTcpClient.step, if_pos hwaiting]
      exact (h.disconnectFromHostInternalSlot aborted).2

/-- **The reconnect timer.** In a run every step leaves at most the timer whose id is kept, and the
connected signal and a disconnection leave none, exactly when no connect request fails while the id
of a timer is kept. -/
theorem timerDiscipline_iff (ids : TimerIds) (ops : List Op) :
    Along (step ids) (TimerDiscipline ids) {} ops ↔ Along (step ids) NoTimerAtFailure {} ops :=
  Along.congr (fun _ _ h hop => h.step (h.discipline_iff.mp hop))
    (fun _ _ h => h.discipline_iff) oneTimer_empty

/-- Ids that are counted up. -/
def countedIds : TimerIds where
  id := fun n running => n + running.sum + 1
  id_ne_zero := fun _ _ => Nat.succ_ne_zero _
  id_notMem := by
    intro n running hmem
    have hle := List.le_sum_of_mem hmem
    omega

/-- A connection is refused: the error signal comes during the wait, and then the request fails. -/
def refused : List Op :=
  [.connectToHost "127.0.0.1" 4001, .signal .error, .connectReturns false]

/-- Two timers run after a refused connection. -/
theorem not_timerDiscipline :
    ¬∀ ids ops, Along (step ids) (TimerDiscipline ids) {} ops := by
  intro h
  obtain ⟨-, -, hfailed, -⟩ := h countedIds refused
  exact absurd hfailed.kept (by decide)

end BaseTcpClient

end ArmOd
