import ArmOd.Base.BiMap
import ArmOd.Base.Run

/-!
# RpcRoutedServer

The routing tables of `RpcRoutedServer.cpp`. A listener registers under a route and a client under a
route, in any order; whoever comes second is linked with the other in `m_routes`. A listener may
also register under route 0, which enters it into the list of receivers only.

`Joined` says what the tables mean: `m_routes` is the join of the other two over the routes that are
not 0. Every operation keeps it.
-/

namespace ArmOd

abbrev ClientId := Nat
abbrev RouteId := Nat

/-- A pointer to a listener; the null pointer is `none` where it can be passed. -/
abbrev IRpcListener := Nat

structure RpcRoutedServer where
  m_receiversList : List IRpcListener := []
  m_routes : BiMap ClientId IRpcListener := .empty
  m_clientRoutes : QMap RouteId ClientId := ∅
  m_listenerRoutes : QMap RouteId IRpcListener := ∅

namespace RpcRoutedServer

/-- The listeners whose `onMethodCalled` a message from client `id` calls, in order. -/
def dispatch (s : RpcRoutedServer) (id : ClientId) : List IRpcListener :=
  if id = 0 then s.m_receiversList else s.m_routes.m_left[id]?.toList

/-- The second half of `registerReceiver`: the route is not 0. -/
def linkReceiver (s : RpcRoutedServer) (receiver : IRpcListener) (routeId : RouteId) :
    RpcRoutedServer :=
  let s := { s with m_listenerRoutes := s.m_listenerRoutes.insert routeId receiver }
  match s.m_clientRoutes[routeId]? with
  | none => s
  | some clientId =>
    if s.m_routes.containsLeft clientId then s
      else { s with m_routes := s.m_routes.insert clientId receiver }

def registerReceiver (s : RpcRoutedServer) (receiver : Option IRpcListener) (routeId : RouteId) :
    Bool × RpcRoutedServer :=
  match receiver with
  | none => (false, s)
  | some receiver =>
    if s.m_listenerRoutes.contains routeId then (false, s)
    else if s.m_listenerRoutes.hasValue receiver then (false, s)
    else if s.m_routes.containsRight receiver then (false, s)
    else
      let s := { s with m_receiversList := s.m_receiversList ++ [receiver] }
      if routeId = 0 then (true, s) else (true, s.linkReceiver receiver routeId)

def deregisterReceiver (s : RpcRoutedServer) (receiver : Option IRpcListener) : RpcRoutedServer :=
  match receiver with
  | none => s
  | some receiver =>
    { s with
      m_receiversList := s.m_receiversList.filter (· != receiver)
      m_routes := s.m_routes.removeByRight receiver
      m_listenerRoutes := s.m_listenerRoutes.eraseValue receiver }

/-- The second half of `registerClient`. -/
def linkClient (s : RpcRoutedServer) (clientId : ClientId) (routeId : RouteId) : RpcRoutedServer :=
  let s := { s with m_clientRoutes := s.m_clientRoutes.insert routeId clientId }
  match s.m_listenerRoutes[routeId]? with
  | none => s
  | some listener =>
    if s.m_routes.containsRight listener then s
      else { s with m_routes := s.m_routes.insert clientId listener }

def registerClient (s : RpcRoutedServer) (clientId : ClientId) (routeId : RouteId) :
    Bool × RpcRoutedServer :=
  if clientId = 0 then (false, s)
  else if s.m_clientRoutes.contains routeId then (false, s)
  else if s.m_clientRoutes.hasValue clientId then (false, s)
  else if s.m_routes.containsLeft clientId then (false, s)
  else (true, s.linkClient clientId routeId)

def deregisterClient (s : RpcRoutedServer) (clientId : ClientId) : RpcRoutedServer :=
  if clientId = 0 then s
  else { s with m_routes := s.m_routes.removeByLeft clientId, m_clientRoutes := s.m_clientRoutes.eraseValue clientId }

/-! ### What the tables mean -/

/-- The routing table is the join of the other two over the routes that are not 0; no route is held
twice. -/
structure Joined (s : RpcRoutedServer) : Prop where
  join : ∀ c l, s.m_routes.Links c l ↔ ∃ r, r ≠ 0 ∧ s.m_clientRoutes[r]? = some c ∧
    s.m_listenerRoutes[r]? = some l
  clients : s.m_clientRoutes.Injective
  listeners : s.m_listenerRoutes.Injective
  noZero : s.m_listenerRoutes[0]? = none

variable {s : RpcRoutedServer}

theorem joined_empty : Joined {} where
  join := fun _ _ => ⟨fun h => absurd h BiMap.links_empty, fun ⟨_, _, h, _⟩ =>
    absurd (QMap.mem_of_getElem? h) Std.TreeMap.not_mem_emptyc⟩
  clients := QMap.injective_empty
  listeners := QMap.injective_empty
  noZero := Std.TreeMap.getElem?_emptyc

theorem Joined.not_links_client (h : s.Joined) {c : ClientId} {r : RouteId}
    (hc : s.m_clientRoutes[r]? = some c)
    (hr : s.m_listenerRoutes[r]? = none) (l : IRpcListener) : ¬s.m_routes.Links c l := by
  intro hlink
  obtain ⟨r', -, hc', hl⟩ := (h.join c l).mp hlink
  rw [h.clients r' r c hc' hc, hr] at hl
  cases hl

theorem Joined.not_links_listener (h : s.Joined) {l : IRpcListener} {r : RouteId}
    (hl : s.m_listenerRoutes[r]? = some l)
    (hr : s.m_clientRoutes[r]? = none) (c : ClientId) : ¬s.m_routes.Links c l := by
  intro hlink
  obtain ⟨r', -, hc, hl'⟩ := (h.join c l).mp hlink
  rw [h.listeners r' r l hl' hl, hr] at hc
  cases hc

theorem exists_insert_iff {κ ν : Type} [Ord κ] [Std.TransOrd κ] [Std.LawfulEqOrd κ] [DecidableEq κ]
    {m : QMap κ ν} {k : κ} (hfree : m[k]? = none) (v v' : ν) (P : κ → Prop) :
    (∃ a, P a ∧ (m.insert k v)[a]? = some v') ↔ P k ∧ v' = v ∨ ∃ a, P a ∧ m[a]? = some v' := by
  constructor
  · intro h
    obtain ⟨a, ha, hget⟩ := h
    rw [QMap.getElem?_insert] at hget
    split at hget
    · rename_i heq
      exact Or.inl ⟨heq ▸ ha, (Option.some.inj hget).symm⟩
    · exact Or.inr ⟨a, ha, hget⟩
  · intro h
    rcases h with ⟨hk, rfl⟩ | ⟨a, ha, hget⟩
    · exact ⟨k, hk, by rw [QMap.getElem?_insert, if_pos rfl]⟩
    · have hne : k ≠ a := fun heq => Option.some_ne_none v' (hget.symm.trans (heq ▸ hfree))
      exact ⟨a, ha, by rw [QMap.getElem?_insert, if_neg hne, hget]⟩

theorem Joined.linkReceiver (h : s.Joined) {l : IRpcListener} {r : RouteId} (hr : r ≠ 0)
    (hfree : s.m_listenerRoutes[r]? = none)
    (hnew : ∀ r' : RouteId, s.m_listenerRoutes[r']? ≠ some l) : (s.linkReceiver l r).Joined := by
  have hunlinked : ∀ c, ¬s.m_routes.Links c l := by
    intro c hlink
    obtain ⟨r', -, -, hl⟩ := (h.join c l).mp hlink
    exact hnew r' hl
  have hlisteners : QMap.Injective (s.m_listenerRoutes.insert r l) := h.listeners.insert hnew
  have hzero : (s.m_listenerRoutes.insert r l)[0]? = none := by
    rw [QMap.getElem?_insert, if_neg hr, h.noZero]
  -- the pairs of the new join: those of the old one, and the new route's
  have hjoin : ∀ c l', (∃ r', r' ≠ 0 ∧ s.m_clientRoutes[r']? = some c ∧
    (s.m_listenerRoutes.insert r l)[r']? = some l') ↔
      s.m_clientRoutes[r]? = some c ∧ l' = l ∨ s.m_routes.Links c l' := by
    intro c l'
    have hroutes := exists_insert_iff hfree l l' fun r' =>
      r' ≠ 0 ∧ s.m_clientRoutes[r']? = some c
    simp only [and_assoc] at hroutes
    rw [hroutes, and_iff_right hr, h.join]
  rw [RpcRoutedServer.linkReceiver]
  cases hclient : s.m_clientRoutes[r]? with
  | none =>
      refine ⟨fun c l' => ?_, h.clients, hlisteners, hzero⟩
      rw [hjoin, hclient]
      exact ⟨Or.inr, fun hor => hor.resolve_left nofun⟩
  | some c =>
      have hc := h.not_links_client hclient hfree
      have hleft : ¬s.m_routes.containsLeft c = true :=
        fun hcontains => (BiMap.containsLeft_iff.mp hcontains).elim hc
      simp only [if_neg hleft]
      refine ⟨fun c' l' => ?_, h.clients, hlisteners, hzero⟩
      rw [hjoin, hclient, Option.some.injEq, eq_comm (a := c)]
      exact BiMap.links_insert hc hunlinked

theorem Joined.linkClient (h : s.Joined) {c : ClientId} {r : RouteId}
    (hfree : s.m_clientRoutes[r]? = none)
    (hnew : ∀ r' : RouteId, s.m_clientRoutes[r']? ≠ some c) : (s.linkClient c r).Joined := by
  have hunlinked : ∀ l, ¬s.m_routes.Links c l := by
    intro l hlink
    obtain ⟨r', -, hc, -⟩ := (h.join c l).mp hlink
    exact hnew r' hc
  have hclients : QMap.Injective (s.m_clientRoutes.insert r c) := h.clients.insert hnew
  have hjoin : ∀ c' l, (∃ r', r' ≠ 0 ∧ (s.m_clientRoutes.insert r c)[r']? = some c' ∧
    s.m_listenerRoutes[r']? = some l) ↔
      c' = c ∧ s.m_listenerRoutes[r]? = some l ∨ s.m_routes.Links c' l := by
    intro c' l
    have hroutes := exists_insert_iff hfree c c' fun r' =>
      r' ≠ 0 ∧ s.m_listenerRoutes[r']? = some l
    -- no listener has the route zero
    have hr : s.m_listenerRoutes[r]? = some l → r ≠ 0 := by
      intro hl hzero
      rw [hzero, h.noZero] at hl
      cases hl
    have hpair : (r ≠ 0 ∧ s.m_listenerRoutes[r]? = some l) ∧ c' = c ↔
        c' = c ∧ s.m_listenerRoutes[r]? = some l := by
      rw [and_iff_right_of_imp hr, and_comm]
    rw [hpair] at hroutes
    simp only [and_assoc, and_comm (a := s.m_listenerRoutes[_]? = some l)] at hroutes
    rw [hroutes, h.join]
  rw [RpcRoutedServer.linkClient]
  cases hlistener : s.m_listenerRoutes[r]? with
  | none =>
      refine ⟨fun c' l => ?_, hclients, h.listeners, h.noZero⟩
      rw [hjoin, hlistener]
      exact ⟨Or.inr, fun hor => hor.resolve_left nofun⟩
  | some l =>
      have hl := h.not_links_listener hlistener hfree
      have hright : ¬s.m_routes.containsRight l = true :=
        fun hcontains => (BiMap.containsRight_iff.mp hcontains).elim hl
      simp only [if_neg hright]
      refine ⟨fun c' l' => ?_, hclients, h.listeners, h.noZero⟩
      rw [hjoin, hlistener, Option.some.injEq, eq_comm (a := l)]
      exact BiMap.links_insert hunlinked hl

theorem registerReceiver_cases (s : RpcRoutedServer) (receiver : Option IRpcListener)
    (r : RouteId) :
    s.registerReceiver receiver r = (false, s) ∨
      ∃ l, receiver = some l ∧ s.m_listenerRoutes[r]? = none ∧
      (∀ r' : RouteId, s.m_listenerRoutes[r']? ≠ some l) ∧
        s.registerReceiver receiver r =
        (true, let s' := { s with m_receiversList := s.m_receiversList ++ [l] }
          if r = 0 then s' else s'.linkReceiver l r) := by
  cases receiver with
  | none => exact Or.inl rfl
  | some l =>
      rw [registerReceiver]
      by_cases hr : s.m_listenerRoutes.contains r = true
      · exact Or.inl (if_pos hr)
      rw [if_neg hr]
      by_cases hl : s.m_listenerRoutes.hasValue l = true
      · exact Or.inl (if_pos hl)
      rw [if_neg hl]
      by_cases hlinked : s.m_routes.containsRight l = true
      · exact Or.inl (if_pos hlinked)
      rw [if_neg hlinked]
      refine Or.inr ⟨l, rfl, ?_, fun r' hr' => hl (QMap.hasValue_iff.mpr ⟨r', hr'⟩), ?_⟩
      · exact Option.eq_none_iff_forall_ne_some.mpr fun v hv => hr (QMap.mem_of_getElem? hv)
      · split <;> rfl

theorem registerClient_cases (s : RpcRoutedServer) (c : ClientId) (r : RouteId) :
    s.registerClient c r = (false, s) ∨
      c ≠ 0 ∧ s.m_clientRoutes[r]? = none ∧ (∀ r' : RouteId, s.m_clientRoutes[r']? ≠ some c) ∧
      s.registerClient c r = (true, s.linkClient c r) := by
  rw [registerClient]
  by_cases hc : c = 0
  · exact Or.inl (if_pos hc)
  rw [if_neg hc]
  by_cases hr : s.m_clientRoutes.contains r = true
  · exact Or.inl (if_pos hr)
  rw [if_neg hr]
  by_cases hvalue : s.m_clientRoutes.hasValue c = true
  · exact Or.inl (if_pos hvalue)
  rw [if_neg hvalue]
  by_cases hlinked : s.m_routes.containsLeft c = true
  · exact Or.inl (if_pos hlinked)
  rw [if_neg hlinked]
  refine Or.inr ⟨hc, ?_, fun r' hr' => hvalue (QMap.hasValue_iff.mpr ⟨r', hr'⟩), rfl⟩
  exact Option.eq_none_iff_forall_ne_some.mpr fun v hv => hr (QMap.mem_of_getElem? hv)

theorem Joined.registerReceiver (h : s.Joined) (receiver : Option IRpcListener) (r : RouteId) :
    (s.registerReceiver receiver r).2.Joined := by
  rcases s.registerReceiver_cases receiver r with heq | ⟨l, -, hfree, hnew, heq⟩
  · rw [heq]
    exact h
  · rw [heq]
    have hlisted : Joined { s with m_receiversList := s.m_receiversList ++ [l] } :=
      ⟨h.join, h.clients, h.listeners, h.noZero⟩
    change Joined (if r = 0 then _ else _)
    split
    · exact hlisted
    · exact hlisted.linkReceiver ‹_› hfree hnew

theorem Joined.registerClient (h : s.Joined) (c : ClientId) (r : RouteId) :
    (s.registerClient c r).2.Joined := by
  rcases s.registerClient_cases c r with heq | ⟨-, hfree, hnew, heq⟩
  · rw [heq]
    exact h
  · rw [heq]
    exact h.linkClient hfree hnew

theorem Joined.deregisterReceiver (h : s.Joined) (receiver : Option IRpcListener) :
    (s.deregisterReceiver receiver).Joined := by
  cases receiver with
  | none => exact h
  | some l =>
      refine ⟨fun c l' => ?_, h.clients, h.listeners.eraseValue, ?_⟩
      · change (s.m_routes.removeByRight l).Links c l' ↔ ∃ r, r ≠ 0 ∧
          s.m_clientRoutes[r]? = some c ∧ (s.m_listenerRoutes.eraseValue l)[r]? = some l'
        rw [BiMap.links_removeByRight, h.join]
        simp only [h.listeners.getElem?_eraseValue]
        exact ⟨fun ⟨⟨r, hr, hc, hl⟩, hne⟩ => ⟨r, hr, hc, hl, hne⟩,
          fun ⟨r, hr, hc, hl, hne⟩ => ⟨⟨r, hr, hc, hl⟩, hne⟩⟩
      · refine Option.eq_none_iff_forall_ne_some.mpr fun l' hl' => ?_
        have hzero := (h.listeners.getElem?_eraseValue.mp hl').1
        rw [h.noZero] at hzero
        cases hzero

theorem Joined.deregisterClient (h : s.Joined) (c : ClientId) : (s.deregisterClient c).Joined := by
  rw [RpcRoutedServer.deregisterClient]
  split
  · exact h
  · refine ⟨fun c' l => ?_, h.clients.eraseValue, h.listeners, h.noZero⟩
    change (s.m_routes.removeByLeft c).Links c' l ↔ ∃ r, r ≠ 0 ∧
      (s.m_clientRoutes.eraseValue c)[r]? = some c' ∧ s.m_listenerRoutes[r]? = some l
    rw [BiMap.links_removeByLeft, h.join]
    simp only [h.clients.getElem?_eraseValue]
    exact ⟨fun ⟨⟨r, hr, hc, hl⟩, hne⟩ => ⟨r, hr, ⟨hc, hne⟩, hl⟩,
      fun ⟨r, hr, ⟨hc, hne⟩, hl⟩ => ⟨⟨r, hr, hc, hl⟩, hne⟩⟩

/-! ### Any number of registrations -/

inductive RouteOp where
  | registerReceiver (receiver : Option IRpcListener) (routeId : RouteId)
  | deregisterReceiver (receiver : Option IRpcListener)
  | registerClient (clientId : ClientId) (routeId : RouteId)
  | deregisterClient (clientId : ClientId)
  deriving DecidableEq, Repr

def step (s : RpcRoutedServer) : RouteOp → RpcRoutedServer
  | .registerReceiver receiver routeId => (s.registerReceiver receiver routeId).2
  | .deregisterReceiver receiver => s.deregisterReceiver receiver
  | .registerClient clientId routeId => (s.registerClient clientId routeId).2
  | .deregisterClient clientId => s.deregisterClient clientId

theorem Joined.step (h : s.Joined) (op : RouteOp) : (s.step op).Joined := by
  cases op with
  | registerReceiver receiver routeId => exact h.registerReceiver receiver routeId
  | deregisterReceiver receiver => exact h.deregisterReceiver receiver
  | registerClient clientId routeId => exact h.registerClient clientId routeId
  | deregisterClient clientId => exact h.deregisterClient clientId

theorem joined_run (ops : List RouteOp) : (ops.foldl step {}).Joined := by
  have hrun : Along step (fun _ _ => True) {} ops := Along.of_forall fun _ _ => trivial
  exact hrun.invariant (fun _ op h _ => h.step op) joined_empty

/-- **The tables stay a join.** After any registrations and deregistrations the routing table is the
join of the two route tables, its halves are inverse, and a registration that is refused changes
nothing. -/
theorem tables_stay_join (ops : List RouteOp) :
    (ops.foldl step {}).Joined ∧
      (∀ (c : ClientId) (l : IRpcListener), (ops.foldl step {}).m_routes.m_left[c]? = some l ↔
      (ops.foldl step {}).m_routes.m_right[l]? = some c) ∧
      (∀ receiver r, ((ops.foldl step {}).registerReceiver receiver r).1 = false →
        ((ops.foldl step {}).registerReceiver receiver r).2 = ops.foldl step {}) ∧
      ∀ c r, ((ops.foldl step {}).registerClient c r).1 = false →
        ((ops.foldl step {}).registerClient c r).2 = ops.foldl step {} := by
  refine ⟨joined_run ops, (ops.foldl step {}).m_routes.inverse, fun receiver r hfalse => ?_,
    fun c r hfalse => ?_⟩
  · rcases (ops.foldl step {}).registerReceiver_cases receiver r with heq | ⟨l, -, -, -, heq⟩
    · rw [heq]
    · rw [heq] at hfalse
      cases hfalse
  · rcases (ops.foldl step {}).registerClient_cases c r with heq | ⟨-, -, -, heq⟩
    · rw [heq]
    · rw [heq] at hfalse
      cases hfalse

/-! ### Dispatch -/

/-- The registration of `l` is in force: some call registered it, and it has not been deregistered
since. -/
def InForce (ops : List RouteOp) (l : IRpcListener) : Prop :=
  ∃ before r after, ops = before ++ .registerReceiver (some l) r :: after ∧
    ((before.foldl step {}).registerReceiver (some l) r).1 = true ∧ .deregisterReceiver
    (some l) ∉ after

/-- Client `c` and listener `l` are linked by a route. -/
def Linked (s : RpcRoutedServer) (c : ClientId) (l : IRpcListener) : Prop :=
  ∃ r, r ≠ 0 ∧ s.m_clientRoutes[r]? = some c ∧ s.m_listenerRoutes[r]? = some l

/-- A message for everybody reaches every listener in force once and nobody else, and a message from
a client reaches the listener linked to it once and nobody else. -/
structure DeliversOnce (ops : List RouteOp) : Prop where
  inForce : ∀ l, InForce ops l → ((ops.foldl step {}).dispatch 0).count l = 1
  others : ∀ l, ¬InForce ops l → ((ops.foldl step {}).dispatch 0).count l = 0
  linked : ∀ c l, c ≠ 0 → (ops.foldl step {}).Linked c l → (ops.foldl step {}).dispatch c = [l]
  unlinked : ∀ c, c ≠ 0 → (∀ l, ¬(ops.foldl step {}).Linked c l) →
    (ops.foldl step {}).dispatch c = []

/-- A listener that would be registered is not in the list of receivers already. -/
def RegistersOnce (s : RpcRoutedServer) : RouteOp → Prop
  | .registerReceiver (some l) r => s.m_listenerRoutes.contains r = true ∨
        s.m_listenerRoutes.hasValue l = true ∨ l ∉ s.m_receiversList
  | _ => True

instance (s : RpcRoutedServer) (op : RouteOp) : Decidable (RegistersOnce s op) := by
  unfold RegistersOnce
  split <;> infer_instance

theorem linkReceiver_receivers (l : IRpcListener) (r : RouteId) :
    (s.linkReceiver l r).m_receiversList = s.m_receiversList := by
  rw [linkReceiver]
  split
  · rfl
  · split <;> rfl

theorem linkClient_receivers (c : ClientId) (r : RouteId) :
    (s.linkClient c r).m_receiversList = s.m_receiversList := by
  rw [linkClient]
  split
  · rfl
  · split <;> rfl

theorem step_receivers (s : RpcRoutedServer) (op : RouteOp) :
    (s.step op).m_receiversList = match op with
      | .registerReceiver (some l) r => if (s.registerReceiver (some l) r).1 = true then
            s.m_receiversList ++ [l] else s.m_receiversList
      | .deregisterReceiver (some l) => s.m_receiversList.filter (· != l)
      | _ => s.m_receiversList := by
  cases op with
  | registerReceiver receiver r =>
      rw [step]
      cases receiver with
      | none => rfl
      | some l =>
          rcases s.registerReceiver_cases (some l) r with heq | ⟨l', hl', -, -, heq⟩
          · simp only [heq, Bool.false_eq_true, if_false]
          · cases hl'
            simp only [heq, if_true]
            split
            · rfl
            · exact linkReceiver_receivers l r
  | deregisterReceiver receiver => cases receiver <;> rfl
  | registerClient c r =>
      rw [step]
      rcases s.registerClient_cases c r with heq | ⟨-, -, -, heq⟩
      · rw [heq]
      · rw [heq]
        exact linkClient_receivers c r
  | deregisterClient c =>
      rw [step, deregisterClient]
      split <;> rfl

/-- One more operation: it registers `l`, or `l` was in force and it does not deregister `l`. -/
theorem inForce_concat {ops : List RouteOp} {op : RouteOp} {l : IRpcListener} :
    InForce (ops ++ [op]) l ↔ (∃ r, op = .registerReceiver (some l) r ∧
      ((ops.foldl step {}).registerReceiver (some l) r).1 = true) ∨
      InForce ops l ∧ op ≠ .deregisterReceiver (some l) := by
  constructor
  · rintro ⟨before, r, after, heq, haccepted, hafter⟩
    rcases List.eq_nil_or_concat after with rfl | ⟨after, op', rfl⟩
    · obtain ⟨rfl, hop⟩ := List.append_inj' heq rfl
      exact Or.inl ⟨r, List.singleton_inj.mp hop, haccepted⟩
    · rw [List.concat_eq_append, ← List.cons_append, ← List.append_assoc] at heq
      obtain ⟨rfl, hop⟩ := List.append_inj' heq rfl
      rw [List.concat_eq_append, List.mem_append, not_or] at hafter
      refine Or.inr ⟨⟨before, r, after, rfl, haccepted, hafter.1⟩, fun hdereg => hafter.2 ?_⟩
      rw [← hdereg, List.singleton_inj.mp hop]
      exact List.mem_singleton_self _
  · rintro (⟨r, rfl, haccepted⟩ | ⟨⟨before, r, after, rfl, haccepted, hafter⟩, hop⟩)
    · exact ⟨ops, r, [], rfl, haccepted, List.not_mem_nil⟩
    · refine ⟨before, r, after ++ [op], by rw [List.append_assoc, List.cons_append], haccepted,
        fun hmem => ?_⟩
      rcases List.mem_append.mp hmem with hmem | hmem
      · exact hafter hmem
      · exact hop (List.mem_singleton.mp hmem).symm

/-- **The list of receivers holds exactly the listeners in force.** -/
theorem mem_receivers_iff (ops : List RouteOp) (l : IRpcListener) : l ∈
    (ops.foldl step {}).m_receiversList ↔ InForce ops l := by
  -- the last operation decides, so the induction goes from the right
  induction ops using List.reverseRecOn with
  | nil =>
      refine ⟨fun h => absurd h List.not_mem_nil, ?_⟩
      rintro ⟨before, r, after, heq, -⟩
      exact absurd heq (by simp)
  | append_singleton ops op ih =>
      rw [List.foldl_concat, step_receivers, inForce_concat, ← ih]
      cases op with
      | registerReceiver receiver r =>
          cases receiver with
          | none => simp
          | some l' =>
              by_cases haccepted : ((ops.foldl step {}).registerReceiver (some l') r).1 = true
              · simp only [haccepted, if_true, List.mem_append, List.mem_singleton]
                constructor
                · rintro (hold | rfl)
                  · exact Or.inr ⟨hold, nofun⟩
                  · exact Or.inl ⟨r, rfl, haccepted⟩
                · rintro (⟨r', heq, -⟩ | ⟨hold, -⟩)
                  · cases heq
                    exact Or.inr rfl
                  · exact Or.inl hold
              · simp only [haccepted, Bool.false_eq_true, if_false]
                refine ⟨fun hold => Or.inr ⟨hold, nofun⟩, ?_⟩
                rintro (⟨r', heq, haccepted'⟩ | ⟨hold, -⟩)
                · cases heq
                  exact absurd haccepted' haccepted
                · exact hold
      | deregisterReceiver receiver =>
          cases receiver with
          | none => simp
          | some l' =>
              simp only [List.mem_filter, bne_iff_ne, ne_eq, RouteOp.deregisterReceiver.injEq,
                Option.some.injEq, reduceCtorEq, false_and,
                exists_false, false_or]
              exact and_congr_right fun _ => not_congr eq_comm
      | registerClient c r => simp
      | deregisterClient c => simp

theorem dispatch_linked (h : s.Joined) {c : ClientId} (hc : c ≠ 0) (l : IRpcListener) :
    l ∈ s.dispatch c ↔ s.Linked c l := by
  rw [dispatch, if_neg hc, Option.mem_toList]
  exact h.join c l

/-- Delivery is once for each exactly where no listener is in the list twice. -/
theorem deliversOnce_iff (ops : List RouteOp) : DeliversOnce ops ↔
    (ops.foldl step {}).m_receiversList.Nodup := by
  have hjoined := joined_run ops
  constructor
  · intro h
    rw [List.nodup_iff_count_le_one]
    intro l
    by_cases hl : InForce ops l
    · exact le_of_eq (h.inForce l hl)
    · exact le_trans (le_of_eq (h.others l hl)) (Nat.zero_le 1)
  · intro hnodup
    refine ⟨fun l hl => ?_, fun l hl => ?_, fun c l hc hlinked => ?_, fun c hc hnobody => ?_⟩
    · exact List.count_eq_one_of_mem hnodup ((mem_receivers_iff ops l).mpr hl)
    · exact List.count_eq_zero.mpr fun hmem => hl ((mem_receivers_iff ops l).mp hmem)
    · have hmem := (dispatch_linked hjoined hc l).mpr hlinked
      rw [dispatch, if_neg hc] at hmem ⊢
      rw [Option.mem_toList.mp hmem]
      rfl
    · exact List.eq_nil_iff_forall_not_mem.mpr fun l hl =>
        hnobody l ((dispatch_linked hjoined hc l).mp hl)

theorem registerReceiver_accepted_iff (h : s.Joined) (l : IRpcListener) (r : RouteId) :
    (s.registerReceiver (some l) r).1 = true ↔ ¬s.m_listenerRoutes.contains r = true ∧
    ¬s.m_listenerRoutes.hasValue l = true := by
  by_cases hr : s.m_listenerRoutes.contains r = true
  · simp only [registerReceiver, hr, if_true, not_true, false_and, Bool.false_eq_true]
  by_cases hl : s.m_listenerRoutes.hasValue l = true
  · simp only [registerReceiver, hr, hl, if_true, ite_self, not_true, and_false, Bool.false_eq_true]
  have hlinked : ¬s.m_routes.containsRight l = true := by
    rw [BiMap.containsRight_iff]
    rintro ⟨c, hlink⟩
    obtain ⟨r', -, -, hl'⟩ := (h.join c l).mp hlink
    exact hl (QMap.hasValue_iff.mpr ⟨r', hl'⟩)
  simp only [registerReceiver, hr, hl, hlinked, if_false, Bool.false_eq_true, not_false_eq_true,
    and_self, iff_true]
  split <;> rfl

/-- **One step**: the list stays without repetition exactly where the step registers nobody again.
-/
theorem nodup_step_iff (hjoined : s.Joined) (hnodup : s.m_receiversList.Nodup) (op : RouteOp) :
    (s.step op).m_receiversList.Nodup ↔ RegistersOnce s op := by
  rw [step_receivers]
  cases op with
  | registerReceiver receiver r =>
      cases receiver with
      | none => exact iff_of_true hnodup trivial
      | some l =>
          by_cases haccepted : (s.registerReceiver (some l) r).1 = true
          · obtain ⟨hr, hl⟩ := (registerReceiver_accepted_iff hjoined l r).mp haccepted
            simp only [haccepted, if_true]
            rw [RegistersOnce, or_iff_right hr, or_iff_right hl, ← List.concat_eq_append,
              List.nodup_concat]
            exact and_iff_left hnodup
          · simp only [haccepted, Bool.false_eq_true, if_false]
            refine iff_of_true hnodup ?_
            rw [registerReceiver_accepted_iff hjoined, not_and_or, not_not, not_not] at haccepted
            exact haccepted.imp_right Or.inl
  | deregisterReceiver receiver =>
      cases receiver with
      | none => exact iff_of_true hnodup trivial
      | some l => exact iff_of_true (hnodup.filter _) trivial
  | registerClient c r => exact iff_of_true hnodup trivial
  | deregisterClient c => exact iff_of_true hnodup trivial

/-- **Delivery once.** At every point of a history messages are delivered once to whom they are for,
exactly when no step of it registers a listener that is in the list already. -/
theorem deliversOnce_along_iff (ops : List RouteOp) :
    (∀ before, before <+: ops → DeliversOnce before) ↔ Along step RegistersOnce {} ops := by
  simp only [deliversOnce_iff]
  rw [Along.forall_prefix_iff fun s : RpcRoutedServer => s.m_receiversList.Nodup,
    and_iff_right List.nodup_nil]
  have hstep : ∀ (s : RpcRoutedServer) (op : RouteOp), s.Joined ∧ s.m_receiversList.Nodup →
    (s.step op).m_receiversList.Nodup →
      (s.step op).Joined ∧ (s.step op).m_receiversList.Nodup :=
      fun s op h hnodup => ⟨h.1.step op, hnodup⟩
  exact Along.congr hstep (fun s op h => nodup_step_iff h.1 h.2 op) ⟨joined_empty, List.nodup_nil⟩

/-- A listener registered for everybody twice hears every message twice, and so does one registered
for everybody and then under a route. -/
theorem not_deliversOnce :
    ¬DeliversOnce [.registerReceiver (some 5) 0, .registerReceiver (some 5) 0] ∧
      ¬DeliversOnce [.registerReceiver (some 5) 0, .registerReceiver (some 5) 1] := by
  rw [deliversOnce_iff, deliversOnce_iff]
  decide +kernel

end RpcRoutedServer

end ArmOd
