import ArmOd.Base.Roster
import ArmOd.Base.Run
import ArmOd.Qt.Values

/-!
# Subscriber

The subscriptions of `Subscriber.cpp`: for every type of data the vector of the clients that get it.
What the component is for is a roster of pairs of a type and a client, and `Represents` ties the map
of vectors to it. Adding a subscription, removing a type and removing a client keep the tie;
removing one pair changes a copy of the vector only, so it keeps the tie exactly when the client is
not subscribed to the type.
-/

namespace ArmOd

/-- A pointer to a client; 0 is the null pointer. -/
abbrev IClient := Nat

structure Subscriber where
  _map_subscribe : QMap Int (List IClient) := ∅

namespace Subscriber

def getSubscribers (s : Subscriber) (type : Int) : List IClient :=
  s._map_subscribe[type]?.getD []

def addSubscription (s : Subscriber) (type : Int) (client : IClient) : Subscriber :=
  match s._map_subscribe[type]? with
  | none => { s with _map_subscribe := s._map_subscribe.insert type [client] }
  | some clients =>
    if clients.contains client then s
    else { s with _map_subscribe := s._map_subscribe.insert type (clients ++ [client]) }

/-- `remove_subscription( type, client )`. The vector it removes the client from is a copy, which is
not written back. -/
def removeSubscription (s : Subscriber) (type : Int) (client : IClient) : Subscriber :=
  let clients := s.getSubscribers type
  let _clients := if clients.contains client then clients.eraseIdx (clients.idxOf client) else clients
  s

/-- `remove_subscription( type )`. -/
def removeSubscriptionsOfType (s : Subscriber) (type : Int) : Subscriber :=
  { s with _map_subscribe := s._map_subscribe.erase type }

/-- The loop over one vector. The element that moves into the place of a removed one is stepped
over. -/
def removeLoop (client : IClient) : List IClient → List IClient
  | [] => []
  | [cl] => if cl = client then [] else [cl]
  | cl :: next :: rest =>
    if cl = client then next :: removeLoop client rest else cl :: removeLoop client (next :: rest)

/-- `remove_subscription( client )`. -/
def removeSubscriptionsOfClient (s : Subscriber) (client : IClient) : Subscriber :=
  { s with _map_subscribe := s._map_subscribe.map fun _ vec => removeLoop client vec }

inductive Op where
  | addSubscription (type : Int) (client : IClient)
  | removeSubscription (type : Int) (client : IClient)
  | removeSubscriptionsOfType (type : Int)
  | removeSubscriptionsOfClient (client : IClient)
  deriving DecidableEq

def step (s : Subscriber) : Op → Subscriber
  | .addSubscription type client => s.addSubscription type client
  | .removeSubscription type client => s.removeSubscription type client
  | .removeSubscriptionsOfType type => s.removeSubscriptionsOfType type
  | .removeSubscriptionsOfClient client => s.removeSubscriptionsOfClient client

/-- The subscriber after a sequence of operations. -/
def after (ops : List Op) : Subscriber := ops.foldl step {}

/-! ### The subscription relation -/

/-- What an operation means for the roster of subscriptions. -/
def Op.entry : Op → Entry (Int × IClient)
  | addSubscription type client => .enter (type, client)
  | removeSubscription type client => .strike fun p => p == (type, client)
  | removeSubscriptionsOfType type => .strike fun p => p.1 == type
  | removeSubscriptionsOfClient client => .strike fun p => p.2 == client

/-- The client was added for the type and not removed since, by pair, by type or by client. -/
def Subscribed (ops : List Op) (type : Int) (client : IClient) : Prop :=
  Roster.Standing (ops.map Op.entry) (type, client)

/-- The list is that of the clients subscribed to the type, without duplicates and in the order of
their subscription. -/
structure IsSubscribers (ops : List Op) (type : Int) (clients : List IClient) : Prop where
  nodup : clients.Nodup
  ordered : clients.Pairwise fun client client' =>
    Roster.Earlier (ops.map Op.entry) (type, client) (type, client')
  mem : ∀ client, client ∈ clients ↔ Subscribed ops type client

/-- The clients of a type on the roster. -/
def clientsOf (roster : List (Int × IClient)) (type : Int) : List IClient :=
  (roster.filter fun p => p.1 == type).map Prod.snd

variable {s : Subscriber} {ops : List Op} {type type' : Int} {client client' : IClient}
  {roster : List (Int × IClient)}

theorem mem_clientsOf : client ∈ clientsOf roster type ↔ (type, client) ∈ roster := by
  simp [clientsOf]

theorem pairwise_clientsOf {r : Int × IClient → Int × IClient → Prop} (h : roster.Pairwise r) :
    (clientsOf roster type).Pairwise fun client client' => r (type, client) (type, client') := by
  rw [clientsOf, List.pairwise_map]
  refine List.Pairwise.imp_of_mem ?_ (h.filter _)
  intro p q hp hq hr
  have htype : ∀ x ∈ roster.filter (fun p => p.1 == type), x = (type, x.2) := by
    intro x hx
    exact Prod.ext (by simpa using (List.mem_filter.mp hx).2) rfl
  rwa [htype p hp, htype q hq] at hr

theorem nodup_clientsOf (h : roster.Nodup) : (clientsOf roster type).Nodup := by
  have hpairs : (clientsOf roster type).Pairwise fun client client' =>
      (type, client) ≠ (type, client') := pairwise_clientsOf h
  exact hpairs.imp fun hne heq => hne (congrArg (Prod.mk type) heq)

theorem isSubscribers_clientsOf :
    IsSubscribers ops type (clientsOf (Roster.after (ops.map Op.entry)) type) where
  nodup := nodup_clientsOf Roster.nodup_after
  ordered := pairwise_clientsOf Roster.pairwise_after
  mem := fun _ => mem_clientsOf.trans Roster.mem_after

/-! ### The operations, on the lists that are read back -/

theorem getSubscribers_empty : getSubscribers {} type = [] := rfl

theorem getSubscribers_insert {vec : List IClient} :
    getSubscribers { s with _map_subscribe := s._map_subscribe.insert type' vec } type =
      if type' = type then vec else s.getSubscribers type := by
  rw [getSubscribers, QMap.getElem?_insert]
  split
  · rfl
  · rfl

theorem getSubscribers_addSubscription :
    (s.addSubscription type' client).getSubscribers type =
      if type' = type ∧ client ∉ s.getSubscribers type then s.getSubscribers type ++ [client]
      else s.getSubscribers type := by
  cases hget : s._map_subscribe[type']? with
  | none =>
      simp only [addSubscription, hget, getSubscribers_insert]
      by_cases htype : type' = type
      · subst htype
        simp [getSubscribers, hget]
      · simp [htype]
  | some clients =>
      by_cases htype : type' = type
      · subst htype
        by_cases hclient : client ∈ clients
        · simp [addSubscription, getSubscribers, hget, hclient]
        · simp [addSubscription, getSubscribers, hget, hclient]
      · by_cases hclient : client ∈ clients
        · simp [addSubscription, hget, hclient, htype]
        · simp [addSubscription, hget, hclient, htype, getSubscribers_insert]

theorem getSubscribers_removeSubscription :
    (s.removeSubscription type' client).getSubscribers type = s.getSubscribers type := rfl

theorem getSubscribers_removeSubscriptionsOfType :
    (s.removeSubscriptionsOfType type').getSubscribers type =
      if type' = type then [] else s.getSubscribers type := by
  rw [removeSubscriptionsOfType, getSubscribers, QMap.getElem?_erase]
  split
  · rfl
  · rfl

theorem removeLoop_of_notMem {vec : List IClient} (h : client ∉ vec) :
    removeLoop client vec = vec := by
  fun_induction removeLoop client vec with
  | case1 => rfl
  | case2 => simp at h
  | case3 => rfl
  | case4 => simp at h
  | case5 cl next rest hne ih => rw [ih fun hmem => h (List.mem_cons_of_mem cl hmem)]

/-- In a vector without duplicates the loop steps over no further copy of the client. -/
theorem removeLoop_of_nodup {vec : List IClient} (h : vec.Nodup) :
    removeLoop client vec = vec.filter fun cl => !cl == client := by
  fun_induction removeLoop client vec with
  | case1 => rfl
  | case2 => simp
  | case3 cl hne => simp [hne]
  | case4 next rest ih =>
      have hnotMem : client ∉ next :: rest := (List.nodup_cons.mp h).1
      have hkept : (next :: rest).filter (fun cl => !cl == client) = next :: rest := by
        refine List.filter_eq_self.mpr fun cl hcl => ?_
        simpa using fun heq : cl = client => hnotMem (heq ▸ hcl)
      rw [removeLoop_of_notMem fun hmem => hnotMem (List.mem_cons_of_mem next hmem),
        List.filter_cons_of_neg (by simp), hkept]
  | case5 cl next rest hne ih =>
      rw [ih (List.nodup_cons.mp h).2, ← List.filter_cons_of_pos (by simpa using hne)]

theorem getSubscribers_removeSubscriptionsOfClient :
    (s.removeSubscriptionsOfClient client).getSubscribers type =
      removeLoop client (s.getSubscribers type) := by
  rw [removeSubscriptionsOfClient, getSubscribers, Std.TreeMap.getElem?_map, getSubscribers]
  cases s._map_subscribe[type]? with
  | none => rfl
  | some vec => rfl

/-! ### The map of vectors represents the roster -/

theorem clientsOf_enter : clientsOf (Roster.step roster (.enter (type', client))) type =
    if type' = type ∧ client ∉ clientsOf roster type then clientsOf roster type ++ [client]
    else clientsOf roster type := by
  by_cases hmem : (type', client) ∈ roster
  · have hkept : ¬(type' = type ∧ client ∉ clientsOf roster type) := fun h =>
      h.2 (mem_clientsOf.mpr (h.1 ▸ hmem))
    rw [Roster.step, if_pos hmem, if_neg hkept]
  · rw [Roster.step, if_neg hmem, clientsOf, List.filter_append, List.map_append, ← clientsOf]
    by_cases htype : type' = type
    · subst htype
      simp [mem_clientsOf, hmem]
    · simp [htype]

theorem clientsOf_strike {p : Int × IClient → Bool} :
    clientsOf (Roster.step roster (.strike p)) type =
      (clientsOf roster type).filter fun client => !p (type, client) := by
  rw [Roster.step, clientsOf, clientsOf, List.filter_map, List.filter_filter, List.filter_filter]
  refine congrArg _ (List.filter_congr fun x _ => ?_)
  by_cases htype : x.1 = type
  · subst htype
    simp [Bool.and_comm]
  · have hfalse : (x.1 == type) = false := beq_eq_false_iff_ne.mpr htype
    simp [hfalse]

/-- Every vector is the list of the type's clients on the roster. -/
def Represents (s : Subscriber) (roster : List (Int × IClient)) : Prop :=
  ∀ type, s.getSubscribers type = clientsOf roster type

theorem Represents.addSubscription (h : s.Represents roster) :
    (s.addSubscription type client).Represents (Roster.step roster (.enter (type, client))) := by
  intro type'
  rw [getSubscribers_addSubscription, clientsOf_enter, h type']

theorem Represents.removeSubscriptionsOfType (h : s.Represents roster) :
    (s.removeSubscriptionsOfType type).Represents
      (Roster.step roster (.strike fun p => p.1 == type)) := by
  intro type'
  rw [getSubscribers_removeSubscriptionsOfType, clientsOf_strike, h type']
  by_cases htype : type = type'
  · simp [htype]
  · have hfalse : (type' == type) = false := beq_eq_false_iff_ne.mpr fun heq => htype heq.symm
    simp [htype, hfalse]

theorem Represents.removeSubscriptionsOfClient (h : s.Represents roster) (hnodup : roster.Nodup) :
    (s.removeSubscriptionsOfClient client).Represents
      (Roster.step roster (.strike fun p => p.2 == client)) := by
  intro type
  rw [getSubscribers_removeSubscriptionsOfClient, clientsOf_strike, h type,
    removeLoop_of_nodup (nodup_clientsOf hnodup)]

/-- Removing a pair changes nothing, so what is represented stays represented when the pair is not
on the roster. -/
theorem Represents.removeSubscription (h : s.Represents roster) (hmem : (type, client) ∉ roster) :
    (s.removeSubscription type client).Represents
      (Roster.step roster (.strike fun p => p == (type, client))) := by
  intro type'
  have hkept : ∀ cl ∈ clientsOf roster type', (!(type', cl) == (type, client)) = true := by
    intro cl hcl
    have hne : (type', cl) ≠ (type, client) := fun heq => hmem (heq ▸ mem_clientsOf.mp hcl)
    simpa using hne
  rw [getSubscribers_removeSubscription, clientsOf_strike, h type', List.filter_eq_self.mpr hkept]

theorem Represents.step {op : Op} (h : s.Represents roster) (hnodup : roster.Nodup)
    (hop : ∀ type client, op = .removeSubscription type client → (type, client) ∉ roster) :
    (s.step op).Represents (Roster.step roster op.entry) := by
  cases op with
  | addSubscription type client => exact h.addSubscription
  | removeSubscription type client => exact h.removeSubscription (hop type client rfl)
  | removeSubscriptionsOfType type => exact h.removeSubscriptionsOfType
  | removeSubscriptionsOfClient client => exact h.removeSubscriptionsOfClient hnodup

/-! ### Sequences of operations -/

/-- No client is removed by pair from a type to which it is subscribed at that time. -/
def NoPairRemoved (ops : List Op) : Prop :=
  ∀ before type client, before ++ [.removeSubscription type client] <+: ops →
    ¬Subscribed before type client

theorem after_snoc {op : Op} : after (ops ++ [op]) = (after ops).step op := by
  rw [after, List.foldl_append]
  rfl

theorem represents_after (h : NoPairRemoved ops) :
    (after ops).Represents (Roster.after (ops.map Op.entry)) := by
  induction ops using List.reverseRecOn with
  | nil => exact fun type => getSubscribers_empty
  | append_singleton ops op ih =>
      rw [after_snoc, List.map_append, List.map_singleton, Roster.after_snoc]
      have hbefore : NoPairRemoved ops := fun before type client hbegin =>
        h before type client (hbegin.trans (List.prefix_append ops [op]))
      refine (ih hbefore).step Roster.nodup_after fun type client hop => ?_
      rw [Roster.mem_after]
      exact h ops type client (hop ▸ List.prefix_refl _)

theorem isSubscribers_after (h : NoPairRemoved ops) :
    IsSubscribers ops type ((after ops).getSubscribers type) := by
  rw [represents_after h type]
  exact isSubscribers_clientsOf

/-- A client removed by pair from a type to which it is subscribed stays in the vector. -/
theorem not_isSubscribers_removeSubscription (hsub : Subscribed ops type client)
    (hbefore : IsSubscribers ops type ((after ops).getSubscribers type)) :
    ¬IsSubscribers (ops ++ [.removeSubscription type client]) type
      ((after (ops ++ [.removeSubscription type client])).getSubscribers type) := by
  intro hafter
  have hstays : client ∈ (after (ops ++ [.removeSubscription type client])).getSubscribers type := by
    rw [after_snoc]
    exact (hbefore.mem client).mpr hsub
  have hremoved := (hafter.mem client).mp hstays
  rw [Subscribed, List.map_append, List.map_singleton, Roster.standing_snoc] at hremoved
  obtain hadded | ⟨-, hkeeps⟩ := hremoved
  · cases hadded
  · simp [Op.entry, Entry.Keeps] at hkeeps

/-- **The subscription relation.** `get_subscribers` returns the clients that were added and not
removed since, after every step of a sequence of operations, exactly when no client is removed by
pair from a type to which it is subscribed. -/
theorem getSubscribers_iff (ops : List Op) :
    (∀ before, before <+: ops → ∀ type, IsSubscribers before type
      ((after before).getSubscribers type)) ↔ NoPairRemoved ops := by
  constructor
  · intro h before type client hbegin hsub
    have hbefore := h before ((List.prefix_append _ _).trans hbegin) type
    exact not_isSubscribers_removeSubscription hsub hbefore (h _ hbegin type)
  · intro h before hbegin type
    exact isSubscribers_after fun earlier type client hearlier =>
      h earlier type client (hearlier.trans hbegin)

/-- The client 7 is removed from the type 1 and still returned. -/
theorem getSubscribers_of_removed_pair :
    ¬∀ ops type, IsSubscribers ops type ((after ops).getSubscribers type) := by
  intro h
  have hsub : Subscribed [.addSubscription 1 7] 1 7 := Roster.mem_after.mp (by decide)
  exact not_isSubscribers_removeSubscription hsub (h _ 1) (h _ 1)

end Subscriber

end ArmOd
