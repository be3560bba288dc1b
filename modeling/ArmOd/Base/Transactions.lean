import Mathlib

/-!
# Transactions on one connection

The part of a connection's history that matters for durability: `BEGIN`, `COMMIT` and the writes
between them. Outside a transaction a write is durable at once; inside one it waits for the commit.
Beginning a transaction inside an open one commits the open one first, which is what makes a nested
`BEGIN` harmful: the writes before it become durable without the ones after it.

`Disciplined` is the discipline that rules this out: no transaction is begun inside an open one, and
none is left open.
-/

namespace ArmOd

/-- One event of a connection's history. -/
inductive TxEvent (W : Type) where
  | begin
  | commit
  | write (w : W)
  deriving DecidableEq, Repr

/-- Whether a transaction is open, the writes that wait for its commit, and the durable writes. -/
structure TxState (W : Type) where
  isOpen : Bool
  pending : List W
  durable : List W
  deriving DecidableEq, Repr

namespace TxState

variable {W : Type}

/-- No transaction open, nothing written. -/
def initial : TxState W := ⟨false, [], []⟩

def step (s : TxState W) : TxEvent W → TxState W
  | .begin => ⟨true, [], s.durable ++ s.pending⟩
  | .commit => ⟨false, [], s.durable ++ s.pending⟩
  | .write w => if s.isOpen then { s with pending := s.pending ++ [w] }
        else { s with durable := s.durable ++ [w] }

/-- The state after a history. -/
def replay (s : TxState W) (history : List (TxEvent W)) : TxState W := history.foldl step s

@[simp] theorem replay_nil (s : TxState W) : s.replay [] = s := rfl

@[simp] theorem replay_cons (s : TxState W) (e : TxEvent W) (history : List (TxEvent W)) :
    s.replay (e :: history) = (s.step e).replay history := rfl

theorem replay_append (s : TxState W) (history more : List (TxEvent W)) :
    s.replay (history ++ more) = (s.replay history).replay more := List.foldl_append

/-- Outside a transaction nothing waits for a commit. -/
def Settled (s : TxState W) : Prop := s.isOpen = false → s.pending = []

theorem settled_initial : (initial : TxState W).Settled := fun _ => rfl

theorem Settled.replay {s : TxState W} (h : s.Settled) (history : List (TxEvent W)) :
    (s.replay history).Settled := by
  induction history generalizing s with
  | nil => exact h
  | cons e history ih =>
      refine ih ?_
      cases e with
      | begin => exact fun hopen => Bool.noConfusion hopen
      | commit => exact fun _ => rfl
      | write w =>
          intro hopen
          by_cases hs : s.isOpen = true
          · rw [step, if_pos hs] at hopen
            exact absurd (hs.symm.trans hopen) Bool.noConfusion
          · rw [step, if_neg hs] at hopen ⊢
            exact h hopen

/-- No transaction is begun in an open one. -/
def Unnested (s : TxState W) (history : List (TxEvent W)) : Prop :=
  ∀ before after, history = before ++ TxEvent.begin :: after → (s.replay before).isOpen = false

/-- No transaction is begun in an open one, and none is open at the end. -/
def Disciplined (s : TxState W) (history : List (TxEvent W)) : Prop :=
  s.Unnested history ∧ (s.replay history).isOpen = false

/-- The events between two transaction statements. -/
def IsWrite : TxEvent W → Prop
  | .write _ => True
  | _ => False

theorem isOpen_replay_of_writes (s : TxState W) {history : List (TxEvent W)}
    (h : ∀ e ∈ history, IsWrite e) :
    (s.replay history).isOpen = s.isOpen := by
  induction history generalizing s with
  | nil => rfl
  | cons e history ih =>
      rw [replay_cons, ih _ fun e he => h e (List.mem_cons_of_mem _ he)]
      cases e with
      | write w => rw [step]; split <;> rfl
      | begin => exact absurd (h _ List.mem_cons_self) id
      | commit => exact absurd (h _ List.mem_cons_self) id

theorem unnested_of_writes (s : TxState W) {history : List (TxEvent W)}
    (h : ∀ e ∈ history, IsWrite e) : s.Unnested history := by
  rintro before after rfl
  exact absurd (h .begin (List.mem_append_right _ List.mem_cons_self)) id

theorem unnested_commit (s : TxState W) : s.Unnested [.commit] := by
  intro before after hsplit
  rcases List.append_eq_singleton_iff.mp hsplit.symm with ⟨-, h⟩ | ⟨-, h⟩ <;> simp at h

theorem unnested_begin {s : TxState W} (hs : s.isOpen = false) : s.Unnested [.begin] := by
  intro before after hsplit
  rcases List.append_eq_singleton_iff.mp hsplit.symm with ⟨rfl, -⟩ | ⟨-, h⟩
  · exact hs
  · simp at h

theorem Unnested.append {s : TxState W} {history more : List (TxEvent W)} (h : s.Unnested history)
    (hmore : (s.replay history).Unnested more) : s.Unnested (history ++ more) := by
  intro before after hsplit
  rcases List.append_eq_append_iff.mp hsplit with ⟨middle, rfl, rfl⟩ | ⟨middle, rfl, hmiddle⟩
  · rw [replay_append]
    exact hmore middle after rfl
  · cases middle with
    | nil =>
        rw [List.append_nil] at hmore
        exact hmore [] after hmiddle.symm
    | cons e middle =>
        obtain ⟨rfl, -⟩ := List.cons.inj hmiddle
        exact h before middle rfl

theorem not_unnested_begin_begin {s : TxState W} {history : List (TxEvent W)} : ¬s.Unnested
    (.begin :: .begin :: history) :=
  fun h => Bool.noConfusion (h [.begin] history rfl)

/-- After a disciplined history everything written is durable. -/
theorem pending_of_disciplined {s : TxState W} {history : List (TxEvent W)} (hsettled : s.Settled)
    (hdisc : s.Disciplined history) : (s.replay history).pending = [] :=
  hsettled.replay history hdisc.2

/-- The durable writes change at most once: they are the old ones up to some point, and everything
from then on. -/
def Atomic (s : TxState W) (history : List (TxEvent W)) : Prop :=
  ∀ before, before <+: history → (s.replay before).durable = s.durable ∨
    (s.replay before).durable = (s.replay history).durable

theorem durable_replay_of_writes {s : TxState W} (hopen : s.isOpen = true)
    {history : List (TxEvent W)} (h : ∀ e ∈ history, IsWrite e) :
    (s.replay history).durable = s.durable := by
  induction history generalizing s with
  | nil => rfl
  | cons e history ih =>
      cases e with
      | write w =>
          rw [replay_cons, step, if_pos hopen]
          exact ih (s := { s with pending := s.pending ++ [w] }) hopen fun e he =>
            h e (List.mem_cons_of_mem _ he)
      | begin => exact absurd (h _ List.mem_cons_self) id
      | commit => exact absurd (h _ List.mem_cons_self) id

/-- **One transaction is durable all together or not at all.** -/
theorem atomic_begin_writes_commit {s : TxState W} (hsettled : s.pending = [])
    {history : List (TxEvent W)} (h : ∀ e ∈ history, IsWrite e) :
    s.Atomic (.begin :: (history ++ [.commit])) := by
  intro before hbefore
  cases before with
  | nil => exact Or.inl rfl
  | cons e before =>
      obtain ⟨rfl, hrest⟩ := List.cons_prefix_cons.mp hbefore
      rcases List.prefix_concat_iff.mp hrest with rfl | hrest
      · exact Or.inr rfl
      · refine Or.inl ?_
        rw [replay_cons, durable_replay_of_writes rfl fun e he => h e (hrest.subset he)]
        simp only [step, hsettled, List.append_nil]

end TxState

end ArmOd
