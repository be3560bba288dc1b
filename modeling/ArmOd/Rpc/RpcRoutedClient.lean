import ArmOd.Rpc.RpcRoutedServer

/-!
# RpcRoutedClient

Any number of clients of one server. A client takes a route by a message and never hears whether the
server accepted it; messages of one connection arrive in order, and after a loss the server learns
of it at some later time, behind what still arrives of the lost connection. The server knows a
client by the id of its connection, and every connection gets a fresh one.

What a client believes about its route is what the server will hold for its connection once
everything in flight has been handled, provided that no registration arrives while the route is
still held. `Consistent` is that invariant.
-/

namespace ArmOd

/-- `m_routeId`, and the connection the peer has (`m_clientPeer->isClient()`). -/
structure RpcRoutedClient where
  m_routeId : RouteId := 0
  connection : Option ClientId := none
  deriving DecidableEq, Repr

/-- What a connection carries to the server; the last thing is the notification that it is closed.
-/
inductive Frame where
  | register (routeId : RouteId)
  | deregister
  | clientDisconnected
  deriving DecidableEq, Repr

namespace RpcRoutedClient

/-- `deregisterRoute`: the client, and what it sends. -/
def deregisterRoute (client : RpcRoutedClient) : RpcRoutedClient × List Frame :=
  if client.m_routeId = 0 then (client, [])
  else if client.connection.isNone then (client, [])
  else ({ client with m_routeId := 0 }, [.deregister])

/-- `registerRoute`: the client, and what it sends. -/
def registerRoute (client : RpcRoutedClient) (id : RouteId) : RpcRoutedClient × List Frame :=
  if id = 0 then (client, [])
  else if client.connection.isNone then (client, [])
  else
    let (client, sent) := if client.m_routeId ≠ 0 then client.deregisterRoute else (client, [])
    ({ client with m_routeId := id }, sent ++ [.register id])

end RpcRoutedClient

structure RpcNet where
  server : RpcRoutedServer := {}
  clients : Nat → RpcRoutedClient := fun _ => {}
  inbox : ClientId → List Frame := fun _ => []
  nextId : ClientId := 1

namespace RpcNet

inductive NetOp where
  /-- A connection is made; `onConnected` is the route a client registers as soon as it is
  connected, if it does. -/
  | connect (i : Nat) (onConnected : Option RouteId)
  /-- A connection is lost, and with it all but the first frames that are on their way. -/
  | lose (i : Nat) (arriving : Nat)
  | registerRoute (i : Nat) (id : RouteId)
  | deregisterRoute (i : Nat)
  /-- The server handles the next frame of a connection. -/
  | deliver (c : ClientId)
  | registerReceiver (receiver : Option IRpcListener) (routeId : RouteId)
  | deregisterReceiver (receiver : Option IRpcListener)
  deriving DecidableEq, Repr

/-- A client acts, and what it sends is put on its connection. -/
def act (n : RpcNet) (i : Nat) (f : RpcRoutedClient → RpcRoutedClient × List Frame) : RpcNet :=
  match (n.clients i).connection with
  | none => { n with clients := Function.update n.clients i (f (n.clients i)).1 }
  | some c =>
      { n with
        clients := Function.update n.clients i (f (n.clients i)).1
        inbox := Function.update n.inbox c (n.inbox c ++ (f (n.clients i)).2) }

/-- The server handles one frame of connection `c`. -/
def handle (s : RpcRoutedServer) (c : ClientId) : Frame → RpcRoutedServer
  | .register r => (s.registerClient c r).2
  | .deregister => s.deregisterClient c
  | .clientDisconnected => s.deregisterClient c

def step (n : RpcNet) : NetOp → RpcNet
  | .connect i onConnected =>
      match (n.clients i).connection with
      | some _ => n
      | none =>
          let connected : RpcNet :=
            { n with
              clients :=
                Function.update n.clients i { n.clients i with connection := some n.nextId }
              nextId := n.nextId + 1 }
          match onConnected with
          | none => connected
          | some r => connected.act i (·.registerRoute r)
  | .lose i arriving =>
      match (n.clients i).connection with
      | none => n
      | some c =>
          { n with
            clients := Function.update n.clients i { n.clients i with connection := none }
            inbox := Function.update n.inbox c
              ((n.inbox c).take arriving ++ [.clientDisconnected]) }
  | .registerRoute i r => n.act i (·.registerRoute r)
  | .deregisterRoute i => n.act i (·.deregisterRoute)
  | .deliver c =>
      match n.inbox c with
      | [] => n
      | frame :: rest =>
          { n with server := handle n.server c frame, inbox := Function.update n.inbox c rest }
  | .registerReceiver receiver routeId =>
      { n with server := (n.server.registerReceiver receiver routeId).2 }
  | .deregisterReceiver receiver => { n with server := n.server.deregisterReceiver receiver }

/-! ### What should hold, and when it does -/

/-- With nothing in flight, a connected client that has a route holds it on the server. -/
def Agrees (n : RpcNet) : Prop :=
  (∀ c < n.nextId, n.inbox c = []) → ∀ i c, (n.clients i).connection = some c →
    (n.clients i).m_routeId ≠ 0 →
    n.server.m_clientRoutes[(n.clients i).m_routeId]? = some c

/-- A client that had a route registers one when it is connected again, and a registration on a
connection that is up arrives when nobody holds the route. -/
def Undisturbed (n : RpcNet) : NetOp → Prop
  | .connect i onConnected => (n.clients i).connection = none → (n.clients i).m_routeId = 0 ∨
        ∃ r, r ≠ 0 ∧ onConnected = some r
  | .deliver c => ∀ i r rest, (n.clients i).connection = some c → n.inbox c = .register r :: rest →
        n.server.m_clientRoutes[r]? = none
  | _ => True

/-- The route a connection holds. -/
def heldBy (s : RpcRoutedServer) (c : ClientId) : Option RouteId := s.m_clientRoutes.key? c

theorem heldBy_eq_some {s : RpcRoutedServer} (h : s.Joined) {c : ClientId} {r : RouteId} :
    heldBy s c = some r ↔ s.m_clientRoutes[r]? = some c := by
  constructor
  · exact QMap.key?_eq_some
  · intro hr
    cases hheld : heldBy s c with
    | none => exact absurd hr (QMap.key?_eq_none hheld r)
    | some r' => rw [h.clients r' r c (QMap.key?_eq_some hheld) hr]

theorem heldBy_congr {s s' : RpcRoutedServer} (h : s.Joined) (h' : s'.Joined) {c : ClientId}
    (hsame : ∀ r : RouteId, s'.m_clientRoutes[r]? = some c ↔ s.m_clientRoutes[r]? = some c) :
    heldBy s' c = heldBy s c :=
  Option.ext fun r => by rw [heldBy_eq_some h', heldBy_eq_some h, hsame]

/-- What a connection holds after the frames in flight, if each registration finds the connection
without a route. -/
def settle : Option RouteId → List Frame → Option (Option RouteId)
  | held, [] => some held
  | none, .register r :: rest => settle (some r) rest
  | some _, .register _ :: _ => none
  | _, .deregister :: rest => settle none rest
  | _, .clientDisconnected :: _ => none

theorem settle_append {held after : Option RouteId} {frames more : List Frame}
    (h : settle held frames = some after) :
    settle held (frames ++ more) = settle after more := by
  induction frames generalizing held with
  | nil =>
      cases h
      rfl
  | cons frame rest ih =>
      cases frame with
      | register r =>
          cases held with
          | none => exact ih h
          | some r' => cases h
      | deregister => cases held <;> exact ih h
      | clientDisconnected => cases held <;> cases h

/-- The route a client believes in. -/
def believed (client : RpcRoutedClient) : Option RouteId :=
  if client.m_routeId = 0 then none else some client.m_routeId

/-- The invariant. -/
structure Consistent (n : RpcNet) : Prop where
  joined : n.server.Joined
  believed : ∀ i c, (n.clients i).connection = some c →
    settle (heldBy n.server c) (n.inbox c) = some (believed (n.clients i))
  distinct : ∀ i j c, (n.clients i).connection = some c → (n.clients j).connection = some c → i = j
  known : ∀ i c, (n.clients i).connection = some c → 0 < c ∧ c < n.nextId
  fresh : ∀ c, n.nextId ≤ c → n.inbox c = [] ∧ heldBy n.server c = none
  positive : 0 < n.nextId

theorem Consistent.agrees {n : RpcNet} (h : n.Consistent) : n.Agrees := by
  intro hquiet i c hc hroute
  have hsettled := h.believed i c hc
  rw [hquiet c (h.known i c hc).2, settle, RpcNet.believed, if_neg hroute,
    Option.some.injEq] at hsettled
  exact (heldBy_eq_some h.joined).mp hsettled

theorem consistent_initial : Consistent {} where
  joined := RpcRoutedServer.joined_empty
  believed := nofun
  distinct := nofun
  known := nofun
  fresh := fun _ _ => ⟨rfl, rfl⟩
  positive := Nat.one_pos

/-! ### The server's side of a step -/

variable {s : RpcRoutedServer} {c c' : ClientId}

theorem handle_joined (h : s.Joined) (frame : Frame) : (handle s c frame).Joined := by
  cases frame with
  | register r => exact h.registerClient c r
  | deregister => exact h.deregisterClient c
  | clientDisconnected => exact h.deregisterClient c

theorem linkClient_clientRoutes (r : RouteId) :
    (s.linkClient c r).m_clientRoutes = s.m_clientRoutes.insert r c := by
  rw [RpcRoutedServer.linkClient]
  split
  · rfl
  · split <;> rfl

theorem deregisterClient_clientRoutes (h : s.Joined) (hc : c ≠ 0) {r : RouteId} :
    (s.deregisterClient c).m_clientRoutes[r]? = some c' ↔ s.m_clientRoutes[r]? = some c' ∧
    c' ≠ c := by
  rw [RpcRoutedServer.deregisterClient, if_neg hc]
  exact h.clients.getElem?_eraseValue

theorem heldBy_handle_of_ne (h : s.Joined) (frame : Frame) (hne : c' ≠ c) : heldBy
    (handle s c frame) c' = heldBy s c' := by
  refine heldBy_congr h (handle_joined h frame) fun r => ?_
  have hderegister : (s.deregisterClient c).m_clientRoutes[r]? = some c' ↔
    s.m_clientRoutes[r]? = some c' := by
    by_cases hc : c = 0
    · rw [RpcRoutedServer.deregisterClient, if_pos hc]
    · rw [deregisterClient_clientRoutes h hc]
      exact and_iff_left hne
  cases frame with
  | register r' =>
      rw [handle]
      rcases s.registerClient_cases c r' with heq | ⟨-, hfree, -, heq⟩
      · rw [heq]
      · rw [heq]
        change (s.linkClient c r').m_clientRoutes[r]? = some c' ↔ _
        rw [linkClient_clientRoutes, QMap.getElem?_insert]
        by_cases hr : r' = r
        · subst hr
          rw [if_pos rfl, hfree, Option.some.injEq]
          exact ⟨fun heq => absurd heq.symm hne,
            fun hnone => absurd hnone.symm (Option.some_ne_none _)⟩
        · rw [if_neg hr]
  | deregister => exact hderegister
  | clientDisconnected => exact hderegister

theorem heldBy_register (h : s.Joined) (hc : 0 < c) {r : RouteId}
    (hfree : s.m_clientRoutes[r]? = none) (hheld : heldBy s c = none) :
    heldBy (handle s c (.register r)) c = some r := by
  have hnew : ∀ r' : RouteId, s.m_clientRoutes[r']? ≠ some c := fun r' => QMap.key?_eq_none hheld r'
  rw [heldBy_eq_some (handle_joined h _), handle]
  rcases s.registerClient_cases c r with heq | ⟨-, -, -, heq⟩
  · exfalso
    have hlinked : ¬s.m_routes.containsLeft c = true := by
      rw [BiMap.containsLeft_iff]
      rintro ⟨l, hlink⟩
      obtain ⟨r', -, hc', -⟩ := (h.join c l).mp hlink
      exact hnew r' hc'
    have hroute : ¬s.m_clientRoutes.contains r = true := fun hcontains => by
      obtain ⟨v, hv⟩ := QMap.mem_iff.mp hcontains
      rw [hfree] at hv
      cases hv
    have hvalue : ¬s.m_clientRoutes.hasValue c = true :=
      fun hhas => (QMap.hasValue_iff.mp hhas).elim hnew
    rw [RpcRoutedServer.registerClient, if_neg hc.ne', if_neg hroute, if_neg hvalue,
      if_neg hlinked] at heq
    cases congrArg Prod.fst heq
  · rw [heq]
    change (s.linkClient c r).m_clientRoutes[r]? = some c
    rw [linkClient_clientRoutes, QMap.getElem?_insert, if_pos rfl]

theorem heldBy_deregisterClient (h : s.Joined) (hc : 0 < c) : heldBy
    (s.deregisterClient c) c = none := by
  refine Option.eq_none_iff_forall_ne_some.mpr fun r hr => ?_
  rw [heldBy_eq_some (h.deregisterClient c), deregisterClient_clientRoutes h hc.ne'] at hr
  exact hr.2 rfl

/-- Handling a frame takes it from what is in flight to what is held. -/
theorem settle_handle (h : s.Joined) (hc : 0 < c) {frame : Frame} {rest : List Frame}
    {after : Option RouteId}
    (hsettle : settle (heldBy s c) (frame :: rest) = some after)
    (hfree : ∀ r, frame = .register r → s.m_clientRoutes[r]? = none) :
    settle (heldBy (handle s c frame) c) rest = some after := by
  cases frame with
  | register r =>
      cases hheld : heldBy s c with
      | none =>
          rw [hheld] at hsettle
          rw [heldBy_register h hc (hfree r rfl) hheld]
          exact hsettle
      | some r' =>
          rw [hheld] at hsettle
          cases hsettle
  | deregister =>
      rw [show heldBy (handle s c .deregister) c = none from heldBy_deregisterClient h hc]
      cases hheld : heldBy s c <;> rw [hheld] at hsettle <;> exact hsettle
  | clientDisconnected => cases hheld : heldBy s c <;> rw [hheld] at hsettle <;> cases hsettle

/-! ### The client's side of a step -/

variable {client : RpcRoutedClient}

theorem deregisterRoute_eq (hconnected : client.connection = some c) :
    client.deregisterRoute = if client.m_routeId = 0 then (client, [])
      else ({ client with m_routeId := 0 }, [.deregister]) := by
  rw [RpcRoutedClient.deregisterRoute, hconnected]
  rfl

theorem settle_deregisterRoute (hconnected : client.connection = some c) :
    settle (believed client) client.deregisterRoute.2 = some (believed client.deregisterRoute.1) ∧
      client.deregisterRoute.1.connection = some c := by
  rw [deregisterRoute_eq hconnected]
  by_cases hroute : client.m_routeId = 0
  · rw [if_pos hroute]
    exact ⟨rfl, hconnected⟩
  · rw [if_neg hroute, believed, if_neg hroute]
    exact ⟨rfl, hconnected⟩

/-- A registration leads to the route wherever the client had none, or knows that it had one. -/
theorem settle_registerRoute (hconnected : client.connection = some c) {r : RouteId} (hr : r ≠ 0)
    {held : Option RouteId}
    (hheld : client.m_routeId = 0 → held = none) :
    settle held (client.registerRoute r).2 = some (believed (client.registerRoute r).1) ∧
      (client.registerRoute r).1.connection = some c := by
  have hisSome : ¬client.connection.isNone = true := by rw [hconnected]; exact Bool.false_ne_true
  rw [RpcRoutedClient.registerRoute, if_neg hr, if_neg hisSome]
  by_cases hroute : client.m_routeId = 0
  · rw [if_neg (not_not.mpr hroute), hheld hroute]
    exact ⟨by rw [believed, if_neg hr]; rfl, hconnected⟩
  · rw [if_pos hroute, deregisterRoute_eq hconnected, if_neg hroute]
    refine ⟨?_, hconnected⟩
    rw [believed, if_neg hr]
    cases held <;> rfl

variable {n : RpcNet}

theorem connection_update {i j : Nat} {client : RpcRoutedClient} {c' : ClientId}
    (hconnected : client.connection = some c)
    (hothers : ∀ j, j ≠ i → (n.clients j).connection ≠ some c)
    (hj : (Function.update n.clients i client j).connection = some c') :
    j = i ∧ c' = c ∨ j ≠ i ∧ c' ≠ c ∧ (n.clients j).connection = some c' := by
  by_cases hji : j = i
  · rw [hji, Function.update_self, hconnected] at hj
    exact Or.inl ⟨hji, (Option.some.inj hj).symm⟩
  · rw [Function.update_of_ne hji] at hj
    exact Or.inr ⟨hji, fun heq => hothers j hji (heq ▸ hj), hj⟩

theorem Consistent.setClient (h : n.Consistent) {i : Nat} (client : RpcRoutedClient)
    (frames : List Frame) {nextId : ClientId} (hconnected : client.connection = some c)
    (hothers : ∀ j, j ≠ i → (n.clients j).connection ≠ some c) (hc : 0 < c ∧ c < nextId)
    (hnext : n.nextId ≤ nextId)
    (hsettle : settle (heldBy n.server c) frames = some (RpcNet.believed client)) :
    Consistent { n with
      clients := Function.update n.clients i client
      inbox := Function.update n.inbox c frames
      nextId } where
  joined := h.joined
  believed := by
    intro j c' hj
    rcases connection_update hconnected hothers hj with ⟨rfl, rfl⟩ | ⟨hji, hne, hold⟩
    · simp only [Function.update_self]
      exact hsettle
    · simp only [Function.update_of_ne hji, Function.update_of_ne hne]
      exact h.believed j c' hold
  distinct := by
    intro j k c' hj hk
    rcases connection_update hconnected hothers hj with ⟨rfl, rfl⟩ | ⟨-, hne, hold⟩
    · rcases connection_update hconnected hothers hk with ⟨rfl, -⟩ | ⟨-, hne, -⟩
      · rfl
      · exact absurd rfl hne
    · rcases connection_update hconnected hothers hk with ⟨-, rfl⟩ | ⟨-, -, hold'⟩
      · exact absurd rfl hne
      · exact h.distinct j k c' hold hold'
  known := by
    intro j c' hj
    rcases connection_update hconnected hothers hj with ⟨-, rfl⟩ | ⟨-, -, hold⟩
    · exact hc
    · exact (h.known j c' hold).imp_right fun hlt => lt_of_lt_of_le hlt hnext
  fresh := by
    intro c' hc'
    have hne : c' ≠ c := fun heq => absurd hc' (not_le.mpr (heq ▸ hc.2))
    simp only [Function.update_of_ne hne]
    exact h.fresh c' (hnext.trans hc')
  positive := lt_of_lt_of_le h.positive hnext

theorem Consistent.act (h : n.Consistent) {i : Nat}
    {f : RpcRoutedClient → RpcRoutedClient × List Frame}
    (hnothing : (n.clients i).connection = none → (f (n.clients i)).1 = n.clients i)
    (hf : ∀ c, (n.clients i).connection = some c →
      settle (RpcNet.believed (n.clients i)) (f (n.clients i)).2 = some
      (RpcNet.believed (f (n.clients i)).1) ∧ (f (n.clients i)).1.connection = some c) :
    (n.act i f).Consistent := by
  rw [RpcNet.act]
  split
  · rename_i hnone
    rw [hnothing hnone, Function.update_eq_self]
    exact h
  · rename_i c hc
    obtain ⟨hsettle, hconnected⟩ := hf c hc
    refine h.setClient _ _ hconnected (fun j hj hjc => hj (h.distinct j i c hjc hc))
      (h.known i c hc) le_rfl ?_
    rw [settle_append (h.believed i c hc)]
    exact hsettle

theorem Consistent.setServer (h : n.Consistent) (hjoined : s.Joined)
    (hsame : s.m_clientRoutes = n.server.m_clientRoutes) :
    Consistent { n with server := s } := by
  have hheld : ∀ c, heldBy s c = heldBy n.server c := fun c => by rw [heldBy, hsame, heldBy]
  refine ⟨hjoined, fun i c hc => ?_, h.distinct, h.known, fun c hc => ?_, h.positive⟩
  · change settle (heldBy s c) (n.inbox c) = _
    rw [hheld]
    exact h.believed i c hc
  · exact ⟨(h.fresh c hc).1, (hheld c).trans (h.fresh c hc).2⟩

theorem registerReceiver_clientRoutes (receiver : Option IRpcListener) (r : RouteId) :
    (s.registerReceiver receiver r).2.m_clientRoutes = s.m_clientRoutes := by
  rcases s.registerReceiver_cases receiver r with heq | ⟨l, -, -, -, heq⟩
  · rw [heq]
  · rw [heq]
    change (if r = 0 then _ else _ : RpcRoutedServer).m_clientRoutes = _
    split
    · rfl
    · rw [RpcRoutedServer.linkReceiver]
      split
      · rfl
      · split <;> rfl

theorem Consistent.connect (h : n.Consistent) {i : Nat} {onConnected : Option RouteId}
    (hop : Undisturbed n (.connect i onConnected)) :
    (n.step (.connect i onConnected)).Consistent := by
  rw [step]
  split
  · exact h
  · rename_i hnone
    have hothers : ∀ j, j ≠ i → (n.clients j).connection ≠ some n.nextId :=
      fun j _ hj => absurd (h.known j _ hj).2 (lt_irrefl _)
    obtain ⟨hinbox, hheld⟩ := h.fresh n.nextId le_rfl
    let connected : RpcRoutedClient := { n.clients i with connection := some n.nextId }
    have hsilent : (n.clients i).m_routeId = 0 →
        Consistent { n with
          clients := Function.update n.clients i connected, nextId := n.nextId + 1 } := by
      intro hroute
      have hset := h.setClient connected [] rfl hothers ⟨h.positive, Nat.lt_succ_self _⟩
        (Nat.le_succ _)
        (by rw [hheld, RpcNet.believed, if_pos hroute]; rfl)
      rwa [← hinbox, Function.update_eq_self] at hset
    cases onConnected with
    | none => exact hsilent ((hop hnone).resolve_right nofun)
    | some r =>
        change Consistent (RpcNet.act
          { n with clients := Function.update n.clients i connected, nextId := n.nextId + 1 } i
          (·.registerRoute r))
        by_cases hr : r = 0
        · have hroute : (n.clients i).m_routeId = 0 :=
            (hop hnone).resolve_right fun ⟨r', hr', heq⟩ =>
            hr' ((Option.some.inj heq).symm.trans hr)
          subst hr
          refine (hsilent hroute).act (fun _ => rfl) fun c hc => ⟨rfl, hc⟩
        · rw [RpcNet.act]
          simp only [Function.update_self, Function.update_idem, connected]
          have hregister : settle none (connected.registerRoute r).2 = some
            (RpcNet.believed (connected.registerRoute r).1) ∧
              (connected.registerRoute r).1.connection = some n.nextId :=
              settle_registerRoute rfl hr fun _ => rfl
          refine h.setClient _ _ hregister.2 hothers ⟨h.positive, Nat.lt_succ_self _⟩
            (Nat.le_succ _) ?_
          rw [hinbox, hheld]
          exact hregister.1

/-- A connection is lost: its client has none, and what it carried changes for nobody else. -/
theorem Consistent.lose (h : n.Consistent) (i arriving : Nat) :
    (n.step (.lose i arriving)).Consistent := by
  rw [step]
  split
  · exact h
  · rename_i c hc
    have hleft : ∀ j c', (Function.update n.clients i { n.clients i with connection := none }
      j).connection = some c' →
        j ≠ i ∧ (n.clients j).connection = some c' := by
      intro j c' hj
      by_cases hji : j = i
      · subst hji
        rw [Function.update_self] at hj
        cases hj
      · rw [Function.update_of_ne hji] at hj
        exact ⟨hji, hj⟩
    refine ⟨h.joined, fun j c' hj => ?_, fun j k c' hj hk => ?_, fun j c' hj =>
      h.known j c' (hleft j c' hj).2, fun c' hc' => ?_, h.positive⟩
    · obtain ⟨hji, hj'⟩ := hleft j c' hj
      have hne : c' ≠ c := fun heq => hji (h.distinct j i c (heq ▸ hj') hc)
      simp only [Function.update_of_ne hne, Function.update_of_ne hji]
      exact h.believed j c' hj'
    · exact h.distinct j k c' (hleft j c' hj).2 (hleft k c' hk).2
    · have hne : c' ≠ c := fun heq => absurd hc' (not_le.mpr (heq ▸ (h.known i c hc).2))
      simp only [Function.update_of_ne hne]
      exact h.fresh c' hc'

theorem Consistent.deliver (h : n.Consistent) {c : ClientId} (hop : Undisturbed n (.deliver c)) :
    (n.step (.deliver c)).Consistent := by
  rw [step]
  split
  · exact h
  · rename_i frame rest hinbox
    refine ⟨handle_joined h.joined frame, fun i c' hc' => ?_, h.distinct, h.known,
      fun c' hc' => ?_, h.positive⟩
    · by_cases hne : c' = c
      · subst hne
        have hsettle := h.believed i c' hc'
        rw [hinbox] at hsettle
        simp only [Function.update_self]
        refine settle_handle h.joined (h.known i c' hc').1 hsettle fun r hr => hop i r rest hc' ?_
        rw [hinbox, hr]
      · simp only [Function.update_of_ne hne, heldBy_handle_of_ne h.joined frame hne]
        exact h.believed i c' hc'
    · have hne : c' ≠ c := by
        rintro rfl
        rw [(h.fresh c' hc').1] at hinbox
        cases hinbox
      simp only [Function.update_of_ne hne, heldBy_handle_of_ne h.joined frame hne]
      exact h.fresh c' hc'

/-- **One step** that nothing disturbs. -/
theorem Consistent.step (h : n.Consistent) {op : NetOp} (hop : Undisturbed n op) :
    (n.step op).Consistent := by
  cases op with
  | connect i onConnected => exact h.connect hop
  | lose i arriving => exact h.lose i arriving
  | registerRoute i r =>
      change (n.act i (·.registerRoute r)).Consistent
      refine h.act (fun hnone => ?_) fun c hc => ?_
      · rw [RpcRoutedClient.registerRoute, hnone]
        split <;> rfl
      · by_cases hr : r = 0
        · subst hr
          exact ⟨rfl, hc⟩
        · exact settle_registerRoute hc hr fun hroute => if_pos hroute
  | deregisterRoute i =>
      change (n.act i (·.deregisterRoute)).Consistent
      refine h.act (fun hnone => ?_) fun c hc => settle_deregisterRoute hc
      rw [RpcRoutedClient.deregisterRoute, hnone]
      split <;> rfl
  | deliver c => exact h.deliver hop
  | registerReceiver receiver r =>
      exact h.setServer (h.joined.registerReceiver receiver r)
        (registerReceiver_clientRoutes receiver r)
  | deregisterReceiver receiver =>
      refine h.setServer (h.joined.deregisterReceiver receiver) ?_
      cases receiver <;> rfl

/-- **Clients and server agree.** In every run that nothing disturbs, a client that is connected
when nothing is in flight holds the route it believes in. -/
theorem agrees_of_undisturbed (ops : List NetOp) (hrun : Along step Undisturbed {} ops) :
    ∀ before, before <+: ops → (before.foldl step {}).Agrees := by
  refine (Along.forall_prefix_iff RpcNet.Agrees).mpr ⟨consistent_initial.agrees, ?_⟩
  exact hrun.imp (fun _ _ h hop => h.step hop) (fun _ _ h hop => (h.step hop).agrees)
    consistent_initial

/-- The route of a registration. -/
def routeId? : Frame → Option RouteId
  | .register r => some r
  | _ => none

theorem undisturbed_deliver (h : ∀ r ∈ (n.inbox c).head?.bind routeId?,
      n.server.m_clientRoutes[r]? = none) : Undisturbed n (.deliver c) :=
  fun _ r _ _ hinbox => h r (by rw [hinbox]; rfl)

/-- A client with route 701 is connected, loses its connection, and is connected again after the
server has noticed. -/
theorem agrees_of_undisturbed_reconnect :
    (List.foldl step {} [.connect 0 (some 701), .deliver 1, .lose 0 0, .deliver 1,
      .connect 0 (some 701), .deliver 2, .deliver 2]).Agrees := by
  refine agrees_of_undisturbed _ ?_ _ (List.prefix_refl _)
  exact ⟨fun _ => Or.inl rfl, undisturbed_deliver (by decide +kernel), trivial,
    undisturbed_deliver (by decide +kernel),
    fun _ => Or.inr ⟨701, by decide, rfl⟩, undisturbed_deliver (by decide +kernel),
      undisturbed_deliver (by decide +kernel), trivial⟩

/-- The client is back before the server has noticed the loss: its registration is refused, and then
the old one is dropped. -/
theorem not_agrees_reconnect :
    ¬(List.foldl step {} [.connect 0 (some 701), .deliver 1, .lose 0 0, .connect 0 (some 701),
      .deliver 2, .deliver 2, .deliver 1]).Agrees := by
  intro h
  have hroute := h (by decide +kernel) 0 2 (by decide +kernel) (by decide +kernel)
  revert hroute
  decide +kernel

end RpcNet

end ArmOd
