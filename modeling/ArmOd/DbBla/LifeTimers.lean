import ArmOd.DbBla.LiveUavs

/-!
# Life timers and three threads

Positions are stored in the thread of the server connection, expired life timers are handled in the
manager's own thread, and the list is dropped from the GUI thread. `m_mutex` keeps the first and the
last apart, `m_deleteMutex` makes `addUavInfo` and `timeoutSlot` atomic, and nothing connects the
moment a timer expires with the moment its expiry is handled. A step here is what a thread does
between two points where it takes or leaves a mutex.

A posted expiry carries two marks the program does not have: whether its timer has been restarted
since, and whether it has been taken out of the map. The second one decides whether the signal
mapper may still find the timer; the first one is only used to say what should not happen.
-/

namespace ArmOd

namespace DbUavManager

open DbUavController

/-- The arguments of `addUavInfoToDb`. -/
structure PositionMessage where
  positionData : UAVPositionData
  role : String
  uavType : String
  status : String
  deviceType : String
  sourceType : String
  actual : Bool
  tail : List QPointF
  tailStdDev : List QPointF

/-- `addUavInfoToDb`: `m_mutex` is held in every phase but the first. -/
inductive RpcPhase where
  | idle
  | locked (m : PositionMessage)
  | built (m : PositionMessage) (uavInfo : UavInfo)
  | added

/-- `deleteAllUav`: `m_mutex` is held in every phase but the first. -/
inductive GuiPhase where
  | idle
  | locked
  | deleting (left : List String)

/-- An expiry on its way through the signal mapper. -/
structure Expiry where
  key : String
  restarted : Bool := false
  taken : Bool := false
  deriving DecidableEq, Repr

structure Threads where
  world : World
  rpc : RpcPhase
  gui : GuiPhase
  posted : List Expiry

inductive ThreadOp where
  | rpcLock (m : PositionMessage)
  | rpcBuild
  | rpcAdd
  | rpcUnlock
  | expire (key : String)
  | deliver (uninitialised : Uav)
  | discard
  | guiLock
  | guiSnapshot
  | guiTimeout (uninitialised : Uav)
  | guiClear
  /-- Anything else that happens to the database. -/
  | database (db : Session)

/-- The life timer of `key` is restarted. -/
def Expiry.restart (key : String) (e : Expiry) : Expiry :=
  if e.key = key then { e with restarted := true } else e

/-- The life timer of `key` is taken out of the map. -/
def Expiry.take (key : String) (e : Expiry) : Expiry :=
  if e.key = key then { e with taken := true } else e

/-- The expiries that are waiting when a record is added: those of the UAV it is about are out of
date. -/
def restarted (uavInfo : UavInfo) (actual : Bool) (db : Session) (posted : List Expiry) :
    List Expiry :=
  match ((recordOf uavInfo actual).run db).1 with
  | none => posted
  | some r => posted.map (Expiry.restart (QString.number r.uav.uavId))

def threadStep (t : Threads) : ThreadOp → Threads
  | .rpcLock m =>
      match t.rpc, t.gui with
      | .idle, .idle => { t with rpc := .locked m }
      | _, _ => t
  | .rpcBuild =>
      match t.rpc with
      | .locked m =>
          let built := (db (uavInfoFor m.positionData m.role m.uavType m.status m.deviceType
            m.sourceType)).run t.world
          { t with world := built.2, rpc := .built m built.1 }
      | _ => t
  | .rpcAdd =>
      match t.rpc with
      | .built m uavInfo =>
          { t with
            world := ((addUavInfo uavInfo m.actual m.tail m.tailStdDev).run t.world).2
            rpc := .added
            posted := restarted uavInfo m.actual t.world.m_dbController t.posted }
      | _ => t
  | .rpcUnlock =>
      match t.rpc with
      | .added => { t with rpc := .idle }
      | _ => t
  | .expire key =>
      if t.world.manager.timerRuns key then { t with posted := t.posted ++ [{ key }] } else t
  | .deliver uninitialised =>
      match t.posted with
      | [] => t
      | e :: rest =>
          { t with
            world := ((timeoutSlot uninitialised e.key).run t.world).2
            posted := rest.map (Expiry.take e.key) }
  | .discard =>
      -- the signal mapper finds no key for a timer that has been deleted
      match t.posted with
      | [] => t
      | e :: rest => if e.taken then { t with posted := rest } else t
  | .guiLock =>
      match t.rpc, t.gui with
      | .idle, .idle => { t with gui := .locked }
      | _, _ => t
  | .guiSnapshot =>
      match t.gui with
      | .locked => { t with gui := .deleting t.world.manager.m_lifeTimerMap.keys }
      | _ => t
  | .guiTimeout uninitialised =>
      match t.gui with
      | .deleting (key :: left) =>
          { t with
            world := ((timeoutSlot uninitialised key).run t.world).2
            gui := .deleting left
            posted := t.posted.map (Expiry.take key) }
      | _ => t
  | .guiClear =>
      match t.gui with
      | .deleting [] =>
          { t with
            world := { t.world with manager := { t.world.manager with m_knownUavsList := ∅, m_lifeTimerMap := ∅ } }
            gui := .idle }
      | _ => t
  | .database db => { t with world := { t.world with m_dbController := db } }

/-- All threads idle, nothing posted. -/
def startedThreads (db : Session) (receivers : List Listener) : Threads :=
  ⟨started db receivers, .idle, .idle, []⟩

/-! ### What every interleaving should respect -/

/-- Who is forgotten on the way from one world to another is reported to every listener as removed.
-/
def Reported (receivers : List Listener) (w w' : World) : Prop :=
  ∀ k ∈ w.manager.m_knownUavsList, k ∉ w'.manager.m_knownUavsList →
    ∃ new, w'.sent = w.sent ++ new ∧ ∀ receiver ∈ receivers, ∃ uav uavRole, uav.uavId = k ∧
    (receiver, .onUavRemoved uav uavRole) ∈ new

/-- What a step must respect: who is removed had been added and not removed since, who is forgotten
is reported as removed, and an expiry that was posted before its timer was restarted removes nobody.
-/
structure Respects (receivers : List Listener) (t : Threads) (op : ThreadOp) : Prop where
  removed : ∀ receiver ∈ receivers,
    ∀ (before after : List (Listener × UavNotification)) (uav : Uav) (uavRole : String),
    (threadStep t op).world.sent = before ++ (receiver, .onUavRemoved uav uavRole) :: after →
      Blocks.Alive (wordOf UavNotification.uavId UavNotification.mark receiver uav.uavId before)
  forgotten : Reported receivers t.world (threadStep t op).world
  restarted : ∀ uninitialised e rest, op = .deliver uninitialised → t.posted = e :: rest →
    e.restarted = true →
    ∀ k ∈ t.world.manager.m_knownUavsList, k ∈ (threadStep t op).world.manager.m_knownUavsList

/-- `timeoutSlot` is entered for a UAV that is there, and not by an expiry that is out of date. -/
def Entered (t : Threads) : ThreadOp → Prop
  | .deliver _ =>
      ∀ e rest, t.posted = e :: rest → e.key ∈ t.world.manager.m_lifeTimerMap ∧ e.restarted = false
  | .guiTimeout _ =>
      ∀ key left, t.gui = .deleting (key :: left) → key ∈ t.world.manager.m_lifeTimerMap
  | _ => True

/-- The invariant of the runs that meet `Entered`. While the list is being dropped, who is known is
still to be dropped. -/
structure Consistent (receivers : List Listener) (t : Threads) : Prop where
  live : Live t.world
  receivers : t.world.manager.m_receiversList = receivers
  excluded : t.rpc = .idle ∨ t.gui = .idle
  left : ∀ left, t.gui = .deleting left →
    ∀ k ∈ t.world.manager.m_knownUavsList, QString.number k ∈ left

theorem consistent_started (db : Session) (receivers : List Listener) : Consistent receivers
    (startedThreads db receivers) where
  live := live_started db receivers
  receivers := rfl
  excluded := Or.inl rfl
  left := fun _ h => by cases h

/-! ### One step -/

variable {receivers : List Listener} {t : Threads}

theorem reported_of_known {w w' : World}
    (h : ∀ k ∈ w.manager.m_knownUavsList, k ∈ w'.manager.m_knownUavsList) :
    Reported receivers w w' :=
  fun k hk hgone => absurd (h k hk) hgone

theorem announce_known {uavInfo : UavInfo} {r : Recorded} {tail tailStdDev : List QPointF}
    {w : World} {k : Nat}
    (hk : k ∈ w.manager.m_knownUavsList) : k ∈
    ((announce uavInfo r tail tailStdDev).run w).2.manager.m_knownUavsList := by
  have hstart : ∀ m : DbUavManager, (m.startTimer r.uav.uavId).m_knownUavsList =
    m.m_knownUavsList := fun m => (startTimer_keeps m r.uav.uavId).1
  have htrack : k ∈ ((trackUav r.uav r.uavRole).run w).2.manager.m_knownUavsList := by
    cases hnew : w.manager.isNew r.uav.uavId with
    | true =>
        simp only [trackUav, run_bind, run_get, run_update, run_notify, hnew, if_true, hstart]
        exact QMap.mem_insert.mpr (Or.inr hk)
    | false =>
        simp only [trackUav, run_bind, run_get, run_update, hnew, Bool.false_eq_true,
          if_false, hstart]
        exact hk
  rw [announce, run_bind, run_ite]
  split <;> exact htrack

theorem addUavInfo_known {uavInfo : UavInfo} {actual : Bool} {tail tailStdDev : List QPointF}
    {w : World} {k : Nat}
    (hk : k ∈ w.manager.m_knownUavsList) : k ∈
    ((addUavInfo uavInfo actual tail tailStdDev).run w).2.manager.m_knownUavsList := by
  rw [addUavInfo_run]
  split
  · exact hk
  · exact announce_known hk

theorem Consistent.timeoutSlot (h : Consistent receivers t) (hnodup : receivers.Nodup)
    {key : String}
    (hkey : key ∈ t.world.manager.m_lifeTimerMap) (uninitialised : Uav) :
    Live ((timeoutSlot uninitialised key).run t.world).2 ∧
      ((DbUavManager.timeoutSlot uninitialised key).run t.world).2.manager.m_receiversList
      = receivers ∧
      (∀ k ∈ ((DbUavManager.timeoutSlot uninitialised key).run t.world).2.manager.m_knownUavsList,
        k ∈ t.world.manager.m_knownUavsList ∧ QString.number k ≠ key) ∧
      Reported receivers t.world ((DbUavManager.timeoutSlot uninitialised key).run t.world).2 := by
  obtain ⟨k, hk, rfl⟩ := (h.live.timers key).mp hkey
  obtain ⟨s, uav, uavRole, hid, hrun, hlive⟩ :=
    h.live.timeoutSlot (h.receivers ▸ hnodup) uninitialised hk
  have hnow : ∀ k', k' ∈ (t.world.manager.takeUav (QString.number k)).m_knownUavsList ↔ k ≠ k' ∧
    k' ∈ t.world.manager.m_knownUavsList := by
    intro k'
    rw [takeUav, QString.toUInt_number (h.live.small k hk)]
    exact QMap.mem_erase
  refine ⟨hlive, ?_, fun k' hk' => ?_, fun k' hk' hgone => ?_⟩
  · rw [hrun]
    exact h.receivers
  · rw [hrun] at hk'
    obtain ⟨hne, hold⟩ := (hnow k').mp hk'
    exact ⟨hold, fun heq => hne (QString.number_injective heq).symm⟩
  · rw [hrun] at hgone
    have heq : k = k' := by
      by_contra hne
      exact hgone ((hnow k').mpr ⟨hne, hk'⟩)
    subst heq
    refine ⟨broadcast receivers (.onUavRemoved uav uavRole), ?_,
      fun receiver hreceiver => ⟨uav, uavRole, hid, ?_⟩⟩
    · rw [hrun, h.receivers]
    · exact List.mem_map.mpr ⟨receiver, hreceiver, rfl⟩

/-- While a position is stored, the list is not being dropped. -/
theorem Consistent.gui_idle (h : Consistent receivers t) (hrpc : t.rpc ≠ .idle) : t.gui = .idle :=
  h.excluded.resolve_left hrpc

/-- While the list is being dropped, no position is stored. -/
theorem Consistent.rpc_idle (h : Consistent receivers t) (hgui : t.gui ≠ .idle) : t.rpc = .idle :=
  h.excluded.resolve_right hgui

theorem Consistent.rpcBuild (h : Consistent receivers t) :
    Consistent receivers (threadStep t .rpcBuild) ∧
      Reported receivers t.world (threadStep t .rpcBuild).world := by
  rw [threadStep]
  split
  · rename_i m hrpc
    have hgui : t.gui = .idle := h.gui_idle (by rw [hrpc]; exact RpcPhase.noConfusion)
    exact ⟨⟨h.live.withSession _, h.receivers, Or.inr hgui, h.left⟩,
      reported_of_known fun _ hk => hk⟩
  · exact ⟨h, reported_of_known fun _ hk => hk⟩

theorem Consistent.rpcAdd (h : Consistent receivers t) (hnodup : receivers.Nodup) :
    Consistent receivers (threadStep t .rpcAdd) ∧
      Reported receivers t.world (threadStep t .rpcAdd).world := by
  rw [threadStep]
  split
  · rename_i m uavInfo hrpc
    have hgui : t.gui = .idle := h.gui_idle (by rw [hrpc]; exact RpcPhase.noConfusion)
    obtain ⟨hlive, hreceivers⟩ := h.live.step (h.receivers ▸ hnodup)
      (.addUavInfo t.world.m_dbController uavInfo m.actual m.tail m.tailStdDev)
    refine ⟨⟨hlive, hreceivers.trans h.receivers, Or.inr hgui, fun left hleft => ?_⟩,
      reported_of_known fun k hk => addUavInfo_known hk⟩
    rw [show t.gui = .deleting left from hleft] at hgui
    cases hgui
  · exact ⟨h, reported_of_known fun _ hk => hk⟩

theorem Consistent.deliver (h : Consistent receivers t) (hnodup : receivers.Nodup)
    {uninitialised : Uav} (hop : Entered t (.deliver uninitialised)) :
    Consistent receivers (threadStep t (.deliver uninitialised)) ∧
      Reported receivers t.world (threadStep t (.deliver uninitialised)).world := by
  rw [threadStep]
  split
  · exact ⟨h, reported_of_known fun _ hk => hk⟩
  · rename_i e rest hposted
    obtain ⟨hlive, hreceivers, hknown, hreported⟩ :=
      h.timeoutSlot hnodup (hop e rest hposted).1 uninitialised
    exact ⟨⟨hlive, hreceivers, h.excluded, fun left hleft k hk =>
      h.left left hleft k (hknown k hk).1⟩, hreported⟩

theorem Consistent.guiSnapshot (h : Consistent receivers t) :
    Consistent receivers (threadStep t .guiSnapshot) ∧
      Reported receivers t.world (threadStep t .guiSnapshot).world := by
  rw [threadStep]
  split
  · rename_i hgui
    have hrpc : t.rpc = .idle := h.rpc_idle (by rw [hgui]; exact GuiPhase.noConfusion)
    refine ⟨⟨h.live, h.receivers, Or.inl hrpc, fun left hleft k hk => ?_⟩,
      reported_of_known fun _ hk => hk⟩
    cases hleft
    exact Std.TreeMap.mem_keys.mpr (h.live.mem_number.mpr hk)
  · exact ⟨h, reported_of_known fun _ hk => hk⟩

theorem Consistent.guiTimeout (h : Consistent receivers t) (hnodup : receivers.Nodup)
    {uninitialised : Uav} (hop : Entered t (.guiTimeout uninitialised)) :
    Consistent receivers (threadStep t (.guiTimeout uninitialised)) ∧
      Reported receivers t.world (threadStep t (.guiTimeout uninitialised)).world := by
  rw [threadStep]
  split
  · rename_i key left hgui
    have hrpc : t.rpc = .idle := h.rpc_idle (by rw [hgui]; exact GuiPhase.noConfusion)
    obtain ⟨hlive, hreceivers, hknown, hreported⟩ :=
      h.timeoutSlot hnodup (hop key left hgui) uninitialised
    refine ⟨⟨hlive, hreceivers, Or.inl hrpc, fun left' hleft' k hk => ?_⟩, hreported⟩
    cases hleft'
    -- the key just handled is not the key of anybody who is still known
    exact (List.mem_cons.mp (h.left _ hgui k (hknown k hk).1)).resolve_left (hknown k hk).2
  · exact ⟨h, reported_of_known fun _ hk => hk⟩

theorem Consistent.guiClear (h : Consistent receivers t) :
    Consistent receivers (threadStep t .guiClear) ∧
      Reported receivers t.world (threadStep t .guiClear).world := by
  rw [threadStep]
  split
  · rename_i hgui
    have hrpc : t.rpc = .idle := h.rpc_idle (by rw [hgui]; exact GuiPhase.noConfusion)
    have hnobody : ∀ k, k ∉ t.world.manager.m_knownUavsList :=
      fun k hk => List.not_mem_nil (h.left _ hgui k hk)
    have htold := h.live.told
    rw [contains_eq_false hnobody] at htold
    exact ⟨⟨⟨inStep_empty _, htold⟩, h.receivers, Or.inl hrpc,
      fun left hleft => by cases hleft⟩, fun k hk => absurd hk (hnobody k)⟩
  · exact ⟨h, reported_of_known fun _ hk => hk⟩

/-- **One step** that meets `Entered` keeps the invariant, and reports whom it forgets. -/
theorem Consistent.step (h : Consistent receivers t) (hnodup : receivers.Nodup) {op : ThreadOp}
    (hop : Entered t op) :
    Consistent receivers (threadStep t op) ∧
      Reported receivers t.world (threadStep t op).world := by
  have hsame : Reported receivers t.world t.world := reported_of_known fun _ hk => hk
  cases op with
  | rpcLock m =>
      rw [threadStep]
      split
      · exact ⟨⟨h.live, h.receivers, Or.inr ‹_›, h.left⟩, hsame⟩
      · exact ⟨h, hsame⟩
  | rpcBuild => exact h.rpcBuild
  | rpcAdd => exact h.rpcAdd hnodup
  | rpcUnlock =>
      rw [threadStep]
      split
      · exact ⟨⟨h.live, h.receivers, Or.inl rfl, h.left⟩, hsame⟩
      · exact ⟨h, hsame⟩
  | expire key =>
      rw [threadStep]
      split
      · exact ⟨⟨h.live, h.receivers, h.excluded, h.left⟩, hsame⟩
      · exact ⟨h, hsame⟩
  | deliver uninitialised => exact h.deliver hnodup hop
  | discard =>
      rw [threadStep]
      split
      · exact ⟨h, hsame⟩
      · split
        · exact ⟨⟨h.live, h.receivers, h.excluded, h.left⟩, hsame⟩
        · exact ⟨h, hsame⟩
  | guiLock =>
      rw [threadStep]
      split
      · exact ⟨⟨h.live, h.receivers, Or.inl ‹_›, fun left hleft => by cases hleft⟩, hsame⟩
      · exact ⟨h, hsame⟩
  | guiSnapshot => exact h.guiSnapshot
  | guiTimeout uninitialised => exact h.guiTimeout hnodup hop
  | guiClear => exact h.guiClear
  | database db => exact ⟨⟨h.live.withSession db, h.receivers, h.excluded, h.left⟩, hsame⟩

theorem Consistent.respects (h : Consistent receivers t) (hnodup : receivers.Nodup) {op : ThreadOp}
    (hop : Entered t op) :
    Respects receivers t op := by
  obtain ⟨hafter, hreported⟩ := h.step hnodup hop
  refine ⟨fun receiver hreceiver before after uav uavRole hsent => ?_, hreported, ?_⟩
  · exact hafter.live.told.alive_of_removed (hafter.receivers.symm ▸ hreceiver)
      (n := .onUavRemoved uav uavRole) rfl hsent
  · rintro uninitialised e rest rfl hposted hrestarted
    rw [(hop e rest hposted).2] at hrestarted
    exact Bool.noConfusion hrestarted

/-- **Three threads.** In every interleaving that enters `timeoutSlot` for a UAV that is there, and
not by an expiry that is out of date, every step respects the listeners. -/
theorem along_respects (db : Session) (receivers : List Listener) (hnodup : receivers.Nodup)
    (ops : List ThreadOp)
    (hentered : Along threadStep Entered (startedThreads db receivers) ops) :
    Along threadStep (Respects receivers) (startedThreads db receivers) ops :=
  hentered.imp (fun _ _ h hop => (h.step hnodup hop).1) (fun _ _ h hop => h.respects hnodup hop)
    (consistent_started db receivers)

/-- A position of the UAV 7. -/
def position7 : PositionMessage where
  positionData := { boardID := 7, dateTime := ⟨0, 0⟩ }
  role := OUR_UAV_ROLE
  uavType := "UnknownUavType"
  status := "UnknownStatus"
  deviceType := "UnknownDeviceType"
  sourceType := "UnknownSourceType"
  actual := true
  tail := []
  tailStdDev := []

/-- `addUavInfoToDb` from beginning to end. -/
def rpcPosition7 : List ThreadOp := [.rpcLock position7, .rpcBuild, .rpcAdd, .rpcUnlock]

/-- The UAV 7 is reported; its timer expires, and the expiry is handled. -/
theorem along_respects_expired :
    Along threadStep (Respects [0]) (startedThreads (.connect oneUav []) [0])
      (rpcPosition7 ++ [.expire "7", .deliver {}]) := by
  refine along_respects _ _ (by decide) _ ?_
  refine Along.append.mpr ⟨⟨trivial, trivial, trivial, trivial, trivial⟩, trivial,
    fun e rest hposted => ?_, trivial⟩
  have he : (threadStep (rpcPosition7.foldl threadStep (startedThreads (.connect oneUav []) [0]))
    (.expire "7")).posted = [{ key := "7" }] := by
    decide +kernel
  rw [he] at hposted
  cases hposted
  exact ⟨by decide +kernel, rfl⟩

/-- The UAV 7 is reported again while the expiry of its timer waits. -/
def reportedAgain : List ThreadOp := rpcPosition7 ++ .expire "7" :: rpcPosition7

/-- The UAV 7 expires between the snapshot and the loop of `deleteAllUav`. -/
def expiredMeanwhile : List ThreadOp :=
  rpcPosition7 ++ [.expire "7", .guiLock, .guiSnapshot, .deliver {}]

/-- The waiting expiry removes a UAV that was just reported, and the loop removes one that was never
added. -/
theorem not_along_respects :
    ¬Along threadStep (Respects [0]) (startedThreads (.connect oneUav []) [0])
      (reportedAgain ++ [.deliver {}]) ∧
      ¬Along threadStep (Respects [0]) (startedThreads (.connect oneUav []) [0])
        (expiredMeanwhile ++ [.guiTimeout {}]) := by
  constructor
  · intro h
    have hstale := (Along.append.mp h).2.1
    have hposted : (reportedAgain.foldl threadStep (startedThreads (.connect oneUav []) [0])).posted
      = [{ key := "7", restarted := true }] := by
      decide +kernel
    have hkept := hstale.restarted {} _ _ rfl hposted rfl 7 (by decide +kernel)
    revert hkept
    decide +kernel
  · intro h
    have hgarbage := (Along.append.mp h).2.1
    have halive := hgarbage.removed 0 (by decide)
      (expiredMeanwhile.foldl threadStep (startedThreads (.connect oneUav []) [0])).world.sent
      [] {} "" (by decide +kernel)
    revert halive
    decide +kernel

end DbUavManager

end ArmOd
