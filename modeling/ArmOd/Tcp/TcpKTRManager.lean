import ArmOd.Base.Run
import ArmOd.Qt.Values

/-!
# TcpKTRManager

The connections to the boards of KTR hosts. Every board of a board list gets a connection and a life
timer, and is sent a registration command after its host has been connected again. `connectToBoard`
is cut where it waits: `openBoard` up to the loop that processes events, `finishBoard` from there
on. A result `none` is a null pointer or an index out of range.
-/

namespace ArmOd

structure TcpKTRManager where
  /-- The board connections, with the host and the port they were made to. -/
  m_connectionMap : QMap String (String × Nat) := ∅
  m_lifeTimerMap : QMap String QTimer := ∅
  m_needToUpdateAfterDisconnect : Bool := true
  m_hostPortForUpdate : Finset String := ∅

/-- A `TCP_KTR_REQUEST_COMMAND_TO_BPLA` message. -/
structure BoardCommand where
  board : Nat
  device : Nat
  deriving DecidableEq, Repr

namespace TcpKTRManager

def MAX_LIFE_TIME : Nat := 300000
def KTR_DEVICE_AUTOPILOT : Nat := 1
def KTR_DEVICE_KTRGA622 : Nat := 622

def boardKey (hostPort : String) (board device : Nat) : String :=
  hostPort ++ ":" ++ QString.number board ++ ":" ++ QString.number device

/-- The controller of a new board connection; the host text has to name a port. -/
def openBoard (m : TcpKTRManager) (hostPort : String) (board device : Nat) : Option TcpKTRManager :=
  match hostPort.toList.splitOn ':' with
  | host :: port :: _ =>
    some { m with
      m_connectionMap := m.m_connectionMap.insert (boardKey hostPort board device)
        (String.ofList host, QString.toUInt (String.ofList port)) }
  | _ => none

/-- The commands a call sends at its end. -/
def commands (m : TcpKTRManager) (hostPort : String) (board device : Nat) : List BoardCommand :=
  if m.m_needToUpdateAfterDisconnect then
    if hostPort ∉ m.m_hostPortForUpdate then [] else [⟨board, device⟩]
  else []

/-- The life timer is started, and the command sent. -/
def finishBoard (m : TcpKTRManager) (hostPort : String) (board device : Nat) :
    TcpKTRManager × List BoardCommand :=
  ({ m with
      m_lifeTimerMap :=
        m.m_lifeTimerMap.insert (boardKey hostPort board device) ⟨true, MAX_LIFE_TIME⟩ },
    m.commands hostPort board device)

/-- There is neither a controller nor a timer yet, so that the call has to connect and wait. -/
def isNewBoard (m : TcpKTRManager) (hostPort : String) (board device : Nat) : Bool :=
  !m.m_connectionMap.contains (boardKey hostPort board device) && !m.m_lifeTimerMap.contains
    (boardKey hostPort board device)

def connectToBoard (m : TcpKTRManager) (hostPort : String) (board device : Nat) : Option
    (TcpKTRManager × List BoardCommand) :=
  if m.isNewBoard hostPort board device then
    (m.openBoard hostPort board device).map fun m => m.finishBoard hostPort board device
  else if !m.m_lifeTimerMap.contains (boardKey hostPort board device) then none
  else if !m.m_connectionMap.contains (boardKey hostPort board device) &&
    !(m.commands hostPort board device).isEmpty then none
  else some (m.finishBoard hostPort board device)

def needToUpdateAfterDisconnect (m : TcpKTRManager) (value : Bool) (hostPost : String) :
    TcpKTRManager :=
  { m with
    m_hostPortForUpdate := if value then insert hostPost m.m_hostPortForUpdate
    else m.m_hostPortForUpdate.erase hostPost
    m_needToUpdateAfterDisconnect := value }

def timeoutSlot (m : TcpKTRManager) (key : String) : TcpKTRManager :=
  { m with m_connectionMap := m.m_connectionMap.erase key, m_lifeTimerMap := m.m_lifeTimerMap.erase key }

/-! ### Registration after a reconnect -/

/-- The calls of the manager; each is one step, as each holds `m_deleteMutex`. -/
inductive KtrCall where
  | connectToBoard (hostPort : String) (board device : Nat)
  | needToUpdateAfterDisconnect (value : Bool) (hostPost : String)
  | timeoutSlot (key : String)
  deriving DecidableEq, Repr

def call (m : TcpKTRManager) : KtrCall → Option TcpKTRManager
  | .connectToBoard hostPort board device => (m.connectToBoard hostPort board device).map Prod.fst
  | .needToUpdateAfterDisconnect value hostPost =>
      some (m.needToUpdateAfterDisconnect value hostPost)
  | .timeoutSlot key => some (m.timeoutSlot key)

/-- The manager after a history of calls that all reach their end. -/
def after (calls : List KtrCall) : Option TcpKTRManager := calls.foldlM call {}

/-- The value of an update call for the host. -/
def updateFor? (host : String) : KtrCall → Option Bool
  | .needToUpdateAfterDisconnect value hostPost => if hostPost = host then some value else none
  | _ => none

def update? : KtrCall → Option Bool
  | .needToUpdateAfterDisconnect value _ => some value
  | _ => none

/-- The value of the latest update call for the host. -/
def latestFor (host : String) (calls : List KtrCall) : Option Bool :=
  (calls.filterMap (updateFor? host)).getLast?

/-- The value of the latest update call for any host. -/
def latest (calls : List KtrCall) : Option Bool := (calls.filterMap update?).getLast?

variable {m m' : TcpKTRManager} {host : String} {calls : List KtrCall}

theorem connectToBoard_some {board device : Nat} {sent : List BoardCommand}
    (h : m.connectToBoard host board device = some (m', sent)) :
    sent = m.commands host board device ∧
      m'.m_needToUpdateAfterDisconnect = m.m_needToUpdateAfterDisconnect ∧
      m'.m_hostPortForUpdate = m.m_hostPortForUpdate := by
  rw [connectToBoard] at h
  split at h
  · rw [openBoard] at h
    split at h
    · cases h
      exact ⟨rfl, rfl, rfl⟩
    · cases h
  · split at h
    · cases h
    · split at h
      · cases h
      · cases h
        exact ⟨rfl, rfl, rfl⟩

theorem commands_eq_iff {board device : Nat} :
    m.commands host board device = [⟨board, device⟩] ↔ m.m_needToUpdateAfterDisconnect = true ∧
      host ∈ m.m_hostPortForUpdate := by
  by_cases hflag : m.m_needToUpdateAfterDisconnect = true
  · by_cases hhost : host ∈ m.m_hostPortForUpdate <;> simp [commands, hflag, hhost]
  · simp [commands, hflag]

theorem getLast?_filterMap_concat {α β : Type} (f : α → Option β) (xs : List α) (x : α) :
    ((xs ++ [x]).filterMap f).getLast? = (f x).or (xs.filterMap f).getLast? := by
  rw [List.filterMap_append]
  cases hx : f x with
  | none => rw [List.filterMap_cons_none hx, List.filterMap_nil, List.append_nil, Option.none_or]
  | some y =>
      rw [List.filterMap_cons_some hx, List.filterMap_nil, List.getLast?_concat, Option.some_or]

theorem latest_isSome {value : Bool} (h : latestFor host calls = some value) :
    (latest calls).isSome := by
  obtain ⟨c, hc, hvalue⟩ := List.mem_filterMap.mp (List.mem_of_getLast? h)
  rw [latest, List.getLast?_isSome]
  cases c with
  | needToUpdateAfterDisconnect value hostPost =>
      exact List.ne_nil_of_mem (List.mem_filterMap.mpr ⟨_, hc, rfl⟩)
  | connectToBoard | timeoutSlot => cases hvalue

/-- **What the flags remember**: the set the latest value of every host, the flag the latest value
of all. -/
theorem flags_of_after (h : after calls = some m) :
    m.m_needToUpdateAfterDisconnect = (latest calls).getD true ∧
      ∀ host, host ∈ m.m_hostPortForUpdate ↔ latestFor host calls = some true := by
  induction calls using List.reverseRecOn generalizing m with
  | nil =>
      cases h
      exact ⟨rfl, fun host => ⟨fun hmem => absurd hmem (Finset.notMem_empty host), nofun⟩⟩
  | append_singleton calls c ih =>
      rw [after, List.foldlM_append, Option.bind_eq_bind, Option.bind_eq_some_iff] at h
      obtain ⟨before, hbefore, hcall⟩ := h
      obtain ⟨hflag, hset⟩ := ih hbefore
      rw [List.foldlM_cons, Option.bind_eq_bind, Option.bind_eq_some_iff] at hcall
      obtain ⟨m', hcall, hm'⟩ := hcall
      cases hm'
      rw [latest, getLast?_filterMap_concat]
      simp only [latestFor, getLast?_filterMap_concat]
      cases c with
      | connectToBoard hostPort board device =>
          obtain ⟨⟨m'', sent⟩, hconnect, rfl⟩ := Option.map_eq_some_iff.mp hcall
          obtain ⟨-, hflag', hset'⟩ := connectToBoard_some hconnect
          rw [hflag', hset']
          exact ⟨hflag, hset⟩
      | timeoutSlot key =>
          cases hcall
          exact ⟨hflag, hset⟩
      | needToUpdateAfterDisconnect value hostPost =>
          cases hcall
          refine ⟨rfl, fun host => ?_⟩
          change host ∈ (if value = true then insert hostPost
            before.m_hostPortForUpdate else before.m_hostPortForUpdate.erase hostPost) ↔
            (if hostPost = host then some value else none).or _ = some true
          by_cases hhost : hostPost = host
          · subst hhost
            cases value <;> simp
          · rw [if_neg hhost, Option.none_or]
            have hne : host ≠ hostPost := fun heq => hhost heq.symm
            have hmem := hset host
            rw [latestFor] at hmem
            rw [← hmem]
            cases value <;> simp [hne]

/-- **Registration per host.** A call sends its command exactly when the latest update of its host
asks for it, if and only if such an update is also the latest of all hosts. -/
theorem connectToBoard_registers_iff (h : after calls = some m) {board device : Nat}
    {sent : List BoardCommand}
    (hconnect : m.connectToBoard host board device = some (m', sent)) :
    (sent = [⟨board, device⟩] ↔ latestFor host calls = some true) ↔
    (latestFor host calls = some true → latest calls = some true) := by
  obtain ⟨hflag, hset⟩ := flags_of_after h
  obtain ⟨rfl, -⟩ := connectToBoard_some hconnect
  rw [commands_eq_iff, hset, hflag]
  refine ⟨fun hiff hfor => ?_, fun himp =>
    and_iff_right_of_imp fun hfor => by rw [himp hfor, Option.getD_some]⟩
  obtain ⟨value, hvalue⟩ := Option.isSome_iff_exists.mp (latest_isSome hfor)
  have htrue := (hiff.mpr hfor).1
  rw [hvalue, Option.getD_some] at htrue
  rw [hvalue, htrue]

theorem connectToBoard_registers_iff_one_host :
    (after [.needToUpdateAfterDisconnect true "h:1"]).bind
    (fun m => (m.connectToBoard "h:1" 7 1).map Prod.snd) = some [⟨7, 1⟩] := by
  obtain ⟨m, hafter⟩ : ∃ m, after [.needToUpdateAfterDisconnect true "h:1"] = some m := ⟨_, rfl⟩
  obtain ⟨sent, m', hconnect⟩ : ∃ sent m', m.connectToBoard "h:1" 7 1 = some (m', sent) := by
    cases hafter
    exact ⟨_, _, rfl⟩
  rw [hafter, Option.bind_some, hconnect, Option.map_some,
    ((connectToBoard_registers_iff hafter hconnect).mpr fun _ => by decide).mpr (by decide)]

/-- Two hosts connect, and the board list of the second is handled before the list of the first. -/
def secondHostFirst : List KtrCall :=
  [.needToUpdateAfterDisconnect true "a:1", .needToUpdateAfterDisconnect true "b:1",
    .connectToBoard "b:1" 7 1, .connectToBoard "b:1" 7 622,
    .needToUpdateAfterDisconnect false "b:1"]

/-- The boards of the first host are not registered. -/
theorem connectToBoard_forgets_host :
    latestFor "a:1" secondHostFirst = some true ∧
      (after secondHostFirst).bind (fun m => (m.connectToBoard "a:1" 7 1).map Prod.snd)
      = some [] := by
  decide +kernel

end TcpKTRManager

end ArmOd
