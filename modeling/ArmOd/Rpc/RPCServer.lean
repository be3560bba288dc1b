import ArmOd.Base.BiMap
import ArmOd.Rpc.Subscriber

/-!
# RPCServer

The clients of `RPCServer.cpp`. The server makes a client for every connection and owns it; the
subscriber holds pointers to the same clients, one list for each type of data. `heap` holds the
clients that have been made and not been deleted, by their address, so a pointer that dangles is an
address that is not in it.

`Owned` is what every event keeps: the clients of the map are the live ones, each under one id. A
disconnection takes the client out of the subscriber before it deletes it; a connection under an id
that is still there deletes the old client and leaves it subscribed.
-/

namespace ArmOd

structure RPCClient where
  _id : Int := 0
  _type : Int := 0
  deriving DecidableEq, Repr

/-- The recipients of `_slotGetData` from the list on; `none` is the use of a deleted client. -/
def Subscriber.sendData (heap : QMap IClient RPCClient) : List IClient → Option (List IClient)
  | [] => some []
  | cl :: rest =>
    if cl = 0 then some []
    else
      match heap[cl]? with
      | none => none
      | some client =>
        if client._type = 1 ∨ client._id = 0 then (sendData heap rest).map fun sent => cl :: sent
        else sendData heap rest

def Subscriber.slotGetData (s : Subscriber) (heap : QMap IClient RPCClient) (type : Int) :
    Option (List IClient) :=
  sendData heap (s.getSubscribers type)

/-- A null pointer ends the loop, and whoever stands in front of it is live. -/
theorem Subscriber.sendData_ne_none {heap : QMap IClient RPCClient} {clients : List IClient}
    (h : ∀ cl ∈ clients, cl ∈ heap) : sendData heap clients ≠ none := by
  induction clients with
  | nil => simp [sendData]
  | cons cl rest ih =>
      have hrest := ih fun cl' hcl' => h cl' (List.mem_cons_of_mem cl hcl')
      obtain ⟨client, hclient⟩ := QMap.mem_iff.mp (h cl List.mem_cons_self)
      by_cases hnull : cl = 0
      · simp [sendData, hnull]
      · by_cases hsent : client._type = 1 ∨ client._id = 0
        · simpa [sendData, hnull, hclient, hsent] using hrest
        · simpa [sendData, hnull, hclient, hsent] using hrest

structure RPCServer where
  _map_clients : QMap Nat IClient := ∅
  _subscriber : Subscriber := {}
  heap : QMap IClient RPCClient := ∅

namespace RPCServer

/-! ### The slots -/

def KTR_BLA : Int := 3001
def ARM_R_SERVER_BPLA_COORDS : Int := 5001
def ARM_R_SERVER_BPLA_COORDS_AUTO : Int := 5002
def ARM_R_SERVER_BPLA_COORDS_SINGLE : Int := 5003
def ARM_R_SERVER_HYPERBOLA : Int := 5004
def NIIPP_ANSWER : Int := 6001
def ARM_R_SERVER_ATLANT_DIRECTION : Int := 7001
def ARM_R_SERVER_ATLANT_POSITION : Int := 7002
def AIS_DATA : Int := 801

/-- The types a client is subscribed to when it says its id, in order. -/
def subscribedTypes : List Int :=
  [KTR_BLA, ARM_R_SERVER_BPLA_COORDS, ARM_R_SERVER_BPLA_COORDS_AUTO,
    ARM_R_SERVER_BPLA_COORDS_SINGLE, ARM_R_SERVER_HYPERBOLA, NIIPP_ANSWER,
    ARM_R_SERVER_ATLANT_DIRECTION, ARM_R_SERVER_ATLANT_POSITION, AIS_DATA]

/-- The live clients after `delete _map_clients.value( client )`. -/
def freed (s : RPCServer) (client : Nat) : QMap IClient RPCClient :=
  match s._map_clients[client]? with
  | some old => s.heap.erase old
  | none => s.heap

/-- `cl` is the address of the new client. -/
def slotRPCConnetion (s : RPCServer) (client : Nat) (cl : IClient) : RPCServer :=
  { s with
    _map_clients := s._map_clients.insert client cl
    heap := (s.freed client).insert cl {} }

def slotRPCDisconnected (s : RPCServer) (client : Nat) : RPCServer :=
  let cl := s._map_clients[client]?.getD 0
  { _map_clients := s._map_clients.erase client
    _subscriber := s._subscriber.removeSubscriptionsOfClient cl
    heap := s.heap.erase cl }

/-- The calls of `add_subscription` for a client. -/
@[irreducible] def subscribe (sub : Subscriber) (cl : IClient) : Subscriber :=
  subscribedTypes.foldl (fun sub type => sub.addSubscription type cl) sub

def rpcSlotSetClientId (s : RPCServer) (client : Nat) (id : Int) : RPCServer :=
  match s._map_clients[client]? with
  | none => s
  | some cl =>
    { s with
      _subscriber := subscribe s._subscriber cl
      heap := s.heap.modify cl fun _ => { _id := id, _type := 1 } }

inductive Event where
  | connection (client : Nat) (cl : IClient)
  | setClientId (client : Nat) (id : Int)
  | disconnection (client : Nat)
  deriving DecidableEq, Repr

def step (s : RPCServer) : Event → RPCServer
  | .connection client cl => s.slotRPCConnetion client cl
  | .setClientId client id => s.rpcSlotSetClientId client id
  | .disconnection client => s.slotRPCDisconnected client

/-- A new client is at an address that is not null and not that of a live client. -/
def Allocates (s : RPCServer) (event : Event) : Prop :=
  ∀ client cl, event = .connection client cl → cl ≠ 0 ∧ cl ∉ s.freed client

/-! ### Who owns the clients -/

/-- The clients of the map are the live ones, each is there once, and no list of the subscriber
holds a client twice. -/
structure Owned (s : RPCServer) : Prop where
  live : ∀ cl, cl ∈ s.heap ↔ ∃ client : Nat, s._map_clients[client]? = some cl
  injective : s._map_clients.Injective
  notNull : 0 ∉ s.heap
  nodup : ∀ type, (s._subscriber.getSubscribers type).Nodup

/-- Every pointer of the subscriber is a value of the map of clients, and no message that is handed
to the subscriber meets a deleted client. -/
structure NoDangling (s : RPCServer) : Prop where
  value : ∀ type, ∀ cl ∈ s._subscriber.getSubscribers type,
    ∃ client : Nat, s._map_clients[client]? = some cl
  sent : ∀ type, s._subscriber.slotGetData s.heap type ≠ none

variable {s : RPCServer} {client : Nat} {cl : IClient} {id : Int} {event : Event}

theorem owned_empty : Owned {} where
  live := fun _ => iff_of_false Std.TreeMap.not_mem_emptyc
    fun ⟨_, h⟩ => absurd (QMap.mem_of_getElem? h) Std.TreeMap.not_mem_emptyc
  injective := QMap.injective_empty
  notNull := Std.TreeMap.not_mem_emptyc
  nodup := fun _ => List.nodup_nil

theorem noDangling_empty : NoDangling {} where
  value := fun _ _ hcl => absurd hcl List.not_mem_nil
  sent := fun _ => Option.some_ne_none _

theorem Owned.noDangling (h : s.Owned) (hvalue : ∀ type, ∀ cl ∈ s._subscriber.getSubscribers type,
    ∃ client : Nat, s._map_clients[client]? = some cl) : s.NoDangling where
  value := hvalue
  sent := fun type => Subscriber.sendData_ne_none fun cl hcl => (h.live cl).mpr (hvalue type cl hcl)

theorem Owned.mem_freed (h : s.Owned) :
    cl ∈ s.freed client ↔ ∃ client', client' ≠ client ∧ s._map_clients[client']? = some cl := by
  rw [freed]
  cases hold : s._map_clients[client]? with
  | none =>
      rw [h.live]
      constructor
      · intro hmem
        obtain ⟨client', hclient'⟩ := hmem
        exact ⟨client', fun heq => by simp [heq, hold] at hclient', hclient'⟩
      · intro hmem
        obtain ⟨client', -, hclient'⟩ := hmem
        exact ⟨client', hclient'⟩
  | some old =>
      rw [QMap.mem_erase, h.live]
      constructor
      · intro hmem
        obtain ⟨hne, client', hclient'⟩ := hmem
        refine ⟨client', ?_, hclient'⟩
        intro heq
        rw [heq, hold] at hclient'
        exact hne (Option.some.inj hclient')
      · intro hmem
        obtain ⟨client', hne, hclient'⟩ := hmem
        exact ⟨fun heq => hne (h.injective client' client old (heq ▸ hclient') hold),
          client', hclient'⟩

theorem Owned.slotRPCConnetion (h : s.Owned) (hnew : cl ≠ 0 ∧ cl ∉ s.freed client) :
    (s.slotRPCConnetion client cl).Owned where
  live := by
    intro cl'
    simp only [RPCServer.slotRPCConnetion, QMap.mem_insert, h.mem_freed, QMap.getElem?_insert]
    constructor
    · intro hmem
      rcases hmem with rfl | ⟨client', hne, hclient'⟩
      · exact ⟨client, if_pos rfl⟩
      · exact ⟨client', by rw [if_neg (Ne.symm hne), hclient']⟩
    · intro hmem
      obtain ⟨client', hclient'⟩ := hmem
      by_cases heq : client = client'
      · rw [if_pos heq] at hclient'
        exact Or.inl (Option.some.inj hclient')
      · rw [if_neg heq] at hclient'
        exact Or.inr ⟨client', Ne.symm heq, hclient'⟩
  injective := by
    intro a b v ha hb
    simp only [RPCServer.slotRPCConnetion, QMap.getElem?_insert] at ha hb
    have hother : ∀ a, client ≠ a → s._map_clients[a]? ≠ some cl := fun a hne ha =>
      hnew.2 (h.mem_freed.mpr ⟨a, Ne.symm hne, ha⟩)
    by_cases hca : client = a
    · by_cases hcb : client = b
      · exact hca.symm.trans hcb
      · rw [if_pos hca] at ha
        rw [if_neg hcb] at hb
        exact absurd (ha ▸ hb) (hother b hcb)
    · by_cases hcb : client = b
      · rw [if_neg hca] at ha
        rw [if_pos hcb] at hb
        exact absurd (hb ▸ ha) (hother a hca)
      · rw [if_neg hca] at ha
        rw [if_neg hcb] at hb
        exact h.injective a b v ha hb
  notNull := by
    simp only [RPCServer.slotRPCConnetion, QMap.mem_insert, h.mem_freed, not_or]
    refine ⟨hnew.1, fun hmem => ?_⟩
    obtain ⟨client', -, hclient'⟩ := hmem
    exact h.notNull ((h.live 0).mpr ⟨client', hclient'⟩)
  nodup := h.nodup

/-! ### Setting the id -/

/-- The calls of `add_subscription` keep what each of them keeps. -/
theorem subscribe_induction (inv : Subscriber → Prop)
    (hstep : ∀ sub type, inv sub → inv (sub.addSubscription type cl)) {sub : Subscriber}
    (h : inv sub) : inv (subscribe sub cl) := by
  rw [subscribe]
  exact List.foldlRecOn subscribedTypes _ h fun sub hsub type _ => hstep sub type hsub

theorem mem_subscribe {sub : Subscriber} {type : Int} {cl' : IClient}
    (hmem : cl' ∈ (subscribe sub cl).getSubscribers type) :
    cl' ∈ sub.getSubscribers type ∨ cl' = cl := by
  refine subscribe_induction (fun sub' => cl' ∈ sub'.getSubscribers type →
    cl' ∈ sub.getSubscribers type ∨ cl' = cl) ?_ Or.inl hmem
  intro sub' type' hsub' h
  rw [Subscriber.getSubscribers_addSubscription] at h
  split at h
  · exact (List.mem_append.mp h).elim hsub' fun h => Or.inr (List.mem_singleton.mp h)
  · exact hsub' h

theorem nodup_subscribe {sub : Subscriber} (h : ∀ type, (sub.getSubscribers type).Nodup) :
    ∀ type, ((subscribe sub cl).getSubscribers type).Nodup := by
  apply subscribe_induction (fun sub' => ∀ type, (sub'.getSubscribers type).Nodup) ?_ h
  intro sub' type' hsub' type
  rw [Subscriber.getSubscribers_addSubscription]
  split
  · rename_i hnew
    exact (hsub' type).append (List.nodup_singleton cl) (List.disjoint_singleton.mpr hnew.2)
  · exact hsub' type

theorem rpcSlotSetClientId_of_none (hclient : s._map_clients[client]? = none) :
    s.rpcSlotSetClientId client id = s := by
  simp only [RPCServer.rpcSlotSetClientId, hclient]

theorem rpcSlotSetClientId_of_some (hclient : s._map_clients[client]? = some cl) :
    s.rpcSlotSetClientId client id =
      { s with
        _subscriber := subscribe s._subscriber cl
        heap := s.heap.modify cl fun _ => { _id := id, _type := 1 } } := by
  simp only [RPCServer.rpcSlotSetClientId, hclient]

theorem Owned.rpcSlotSetClientId (h : s.Owned) : (s.rpcSlotSetClientId client id).Owned := by
  cases hclient : s._map_clients[client]? with
  | none => rwa [rpcSlotSetClientId_of_none hclient]
  | some cl =>
      rw [rpcSlotSetClientId_of_some hclient]
      exact {
        live := fun cl' => Std.TreeMap.mem_modify.trans (h.live cl')
        injective := h.injective
        notNull := fun hmem => h.notNull (Std.TreeMap.mem_modify.mp hmem)
        nodup := nodup_subscribe h.nodup }

theorem NoDangling.rpcSlotSetClientId (h : s.NoDangling) (howned : s.Owned) :
    (s.rpcSlotSetClientId client id).NoDangling := by
  refine howned.rpcSlotSetClientId.noDangling ?_
  cases hclient : s._map_clients[client]? with
  | none =>
      rw [rpcSlotSetClientId_of_none hclient]
      exact h.value
  | some cl =>
      rw [rpcSlotSetClientId_of_some hclient]
      intro type cl' hcl'
      rcases mem_subscribe hcl' with hold | rfl
      · exact h.value type cl' hold
      · exact ⟨client, hclient⟩

/-! ### Disconnection -/

theorem mem_removeSubscriptionsOfClient {sub : Subscriber} {type : Int} {cl' : IClient}
    (hnodup : (sub.getSubscribers type).Nodup) :
    cl' ∈ (sub.removeSubscriptionsOfClient cl).getSubscribers type ↔
      cl' ∈ sub.getSubscribers type ∧ cl' ≠ cl := by
  rw [Subscriber.getSubscribers_removeSubscriptionsOfClient, Subscriber.removeLoop_of_nodup hnodup]
  simp

theorem Owned.getD_ne (h : s.Owned) {client' : Nat} (hclient' : s._map_clients[client']? = some cl) :
    cl ≠ s._map_clients[client]?.getD 0 ↔ client ≠ client' := by
  cases hclient : s._map_clients[client]? with
  | none =>
      refine iff_of_true ?_ ?_
      · intro heq
        rw [Option.getD_none] at heq
        exact h.notNull ((h.live 0).mpr ⟨client', heq ▸ hclient'⟩)
      · intro heq
        simp [heq, hclient'] at hclient
  | some old =>
      refine not_congr ⟨?_, ?_⟩
      · intro heq
        obtain rfl : cl = old := heq
        exact h.injective client client' cl hclient hclient'
      · intro heq
        rw [← heq, hclient] at hclient'
        exact (Option.some.inj hclient').symm

theorem Owned.slotRPCDisconnected (h : s.Owned) : (s.slotRPCDisconnected client).Owned where
  live := by
    intro cl'
    simp only [RPCServer.slotRPCDisconnected, QMap.mem_erase, h.live, QMap.getElem?_erase]
    constructor
    · intro hmem
      obtain ⟨hne, client', hclient'⟩ := hmem
      exact ⟨client', by rw [if_neg ((h.getD_ne hclient').mp (Ne.symm hne)), hclient']⟩
    · intro hmem
      obtain ⟨client', hclient'⟩ := hmem
      by_cases heq : client = client'
      · rw [if_pos heq] at hclient'
        cases hclient'
      · rw [if_neg heq] at hclient'
        exact ⟨Ne.symm ((h.getD_ne hclient').mpr heq), client', hclient'⟩
  injective := h.injective.erase client
  notNull := fun hmem => h.notNull (QMap.mem_erase.mp hmem).2
  nodup := by
    intro type
    rw [RPCServer.slotRPCDisconnected, Subscriber.getSubscribers_removeSubscriptionsOfClient,
      Subscriber.removeLoop_of_nodup (h.nodup type)]
    exact (h.nodup type).filter _

theorem NoDangling.slotRPCDisconnected (h : s.NoDangling) (howned : s.Owned) :
    (s.slotRPCDisconnected client).NoDangling := by
  refine howned.slotRPCDisconnected.noDangling fun type cl' hcl' => ?_
  obtain ⟨hold, hne⟩ := (mem_removeSubscriptionsOfClient (howned.nodup type)).mp hcl'
  obtain ⟨client', hclient'⟩ := h.value type cl' hold
  refine ⟨client', ?_⟩
  rw [RPCServer.slotRPCDisconnected, QMap.getElem?_erase,
    if_neg ((howned.getD_ne hclient').mp hne), hclient']

/-! ### Connection -/

/-- A connection under an id that is still there finds its client not subscribed, or puts the new
client at the old one's address. -/
def KeepsSubscribers (s : RPCServer) (event : Event) : Prop :=
  ∀ client cl old, event = .connection client cl → s._map_clients[client]? = some old →
    (∃ type, old ∈ s._subscriber.getSubscribers type) → cl = old

theorem noDangling_slotRPCConnetion_iff (h : s.NoDangling) (howned : s.Owned)
    (hnew : cl ≠ 0 ∧ cl ∉ s.freed client) :
    (s.slotRPCConnetion client cl).NoDangling ↔ s.KeepsSubscribers (.connection client cl) := by
  constructor
  · intro hafter client' cl' old hevent hold hsub
    cases hevent
    obtain ⟨type, hsub⟩ := hsub
    obtain ⟨client', hclient'⟩ := hafter.value type old hsub
    rw [RPCServer.slotRPCConnetion, QMap.getElem?_insert] at hclient'
    by_cases heq : client = client'
    · rw [if_pos heq] at hclient'
      exact Option.some.inj hclient'
    · rw [if_neg heq] at hclient'
      exact absurd (howned.injective client client' old hold hclient') heq
  · intro hkeeps
    refine (howned.slotRPCConnetion hnew).noDangling fun type cl' hcl' => ?_
    obtain ⟨client', hclient'⟩ := h.value type cl' hcl'
    refine ⟨client', ?_⟩
    rw [RPCServer.slotRPCConnetion, QMap.getElem?_insert]
    by_cases heq : client = client'
    · rw [if_pos heq, hkeeps client cl cl' rfl (heq ▸ hclient') ⟨type, hcl'⟩]
    · rw [if_neg heq, hclient']

/-! ### Runs -/

theorem Owned.step (h : s.Owned) (hnew : s.Allocates event) : (s.step event).Owned := by
  cases event with
  | connection client cl => exact h.slotRPCConnetion (hnew client cl rfl)
  | setClientId client id => exact h.rpcSlotSetClientId
  | disconnection client => exact h.slotRPCDisconnected

theorem NoDangling.step_iff (h : s.NoDangling) (howned : s.Owned) (hnew : s.Allocates event) :
    (s.step event).NoDangling ↔ s.KeepsSubscribers event := by
  cases event with
  | connection client cl => exact noDangling_slotRPCConnetion_iff h howned (hnew client cl rfl)
  | setClientId client id =>
      exact iff_of_true (h.rpcSlotSetClientId howned) fun _ _ _ hevent => nomatch hevent
  | disconnection client =>
      exact iff_of_true (h.slotRPCDisconnected howned) fun _ _ _ hevent => nomatch hevent

/-- **No dangling subscriber.** Every pointer the subscriber holds is a client of the map, after
each event, exactly when no connection comes under an id whose client is still there and subscribed,
unless the new client is put at the address of the old one. -/
theorem noDangling_iff (events : List Event) (hnew : Along step Allocates {} events) :
    (∀ before, before <+: events → (before.foldl step {}).NoDangling) ↔
      Along step KeepsSubscribers {} events := by
  rw [Along.forall_prefix_iff, and_iff_right noDangling_empty]
  have hstep : ∀ (s : RPCServer) (event : Event), s.Owned ∧ s.NoDangling → s.Allocates event →
      (s.step event).NoDangling → (s.step event).Owned ∧ (s.step event).NoDangling :=
    fun s event hinv hop hcond => ⟨hinv.1.step hop, hcond⟩
  have hiff : ∀ (s : RPCServer) (event : Event), s.Owned ∧ s.NoDangling → s.Allocates event →
      ((s.step event).NoDangling ↔ s.KeepsSubscribers event) :=
    fun s event hinv hop => hinv.2.step_iff hinv.1 hop
  exact Along.congr_of hstep hiff ⟨owned_empty, noDangling_empty⟩ hnew

/-- A client says its id and connects again under the same number; the new client is not at the old
one's address. -/
def reconnection : List Event :=
  [.connection 5 100, .setClientId 5 1, .connection 5 101]

theorem allocates_reconnection : Along step Allocates {} reconnection := by
  refine ⟨?_, ?_, ?_, trivial⟩
  · intro client cl hevent
    cases hevent
    exact ⟨by decide, Std.TreeMap.not_mem_emptyc⟩
  · intro client cl hevent
    cases hevent
  · intro client cl hevent
    cases hevent
    refine ⟨by decide, ?_⟩
    decide +kernel

/-- The subscriber still holds the deleted client, and the next message meets it. -/
theorem not_noDangling : ¬∀ events, Along step Allocates {} events →
    ∀ before, before <+: events → (before.foldl step {}).NoDangling := by
  intro h
  have hafter := h reconnection allocates_reconnection reconnection (List.prefix_refl _)
  exact hafter.sent KTR_BLA (by decide +kernel)

/-- The same client disconnects in between. -/
def orderlyReconnection : List Event :=
  [.connection 5 100, .setClientId 5 1, .disconnection 5, .connection 5 101]

theorem noDangling_orderlyReconnection : (orderlyReconnection.foldl step {}).NoDangling := by
  refine (noDangling_iff orderlyReconnection ⟨?_, ?_, ?_, ?_, trivial⟩).mpr
    ⟨?_, ?_, ?_, ?_, trivial⟩ orderlyReconnection (List.prefix_refl _)
  · intro client cl hevent
    cases hevent
    exact ⟨by decide, Std.TreeMap.not_mem_emptyc⟩
  · intro client cl hevent
    cases hevent
  · intro client cl hevent
    cases hevent
  · intro client cl hevent
    cases hevent
    exact ⟨by decide, by decide +kernel⟩
  · intro client cl old hevent hold
    cases hevent
    exact absurd (QMap.mem_of_getElem? hold) Std.TreeMap.not_mem_emptyc
  · intro client cl old hevent
    cases hevent
  · intro client cl old hevent
    cases hevent
  · intro client cl old hevent hold
    cases hevent
    exact absurd (QMap.mem_of_getElem? hold) (by decide +kernel)

end RPCServer

end ArmOd
