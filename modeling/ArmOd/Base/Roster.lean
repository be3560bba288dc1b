import Mathlib

/-!
# Rosters

A roster lists the elements that have been entered and not struck off since, in the order of their
entry; entering an element that is on the roster changes nothing. `Standing` and `Earlier` say which
elements these are and in which order, from the history of entries alone, and `mem_after`,
`nodup_after` and `pairwise_after` say that the roster is just that.
-/

namespace ArmOd

universe u

variable {α : Type u}

/-- What is done to a roster: an element is entered, or all elements of a kind are struck off. -/
inductive Entry (α : Type u) where
  | enter (a : α)
  | strike (p : α → Bool)

/-- The entry does not strike off `a`. -/
def Entry.Keeps : Entry α → α → Prop
  | enter _, _ => True
  | strike p, a => p a = false

namespace Roster

/-- `a` was entered, and nothing later strikes it off. -/
def Standing (history : List (Entry α)) (a : α) : Prop :=
  ∃ before later, history = before ++ .enter a :: later ∧ ∀ e ∈ later, e.Keeps a

/-- The entry of index `n` is the one by which `a` stands on the roster: `a` did not stand before
it. -/
def Since (history : List (Entry α)) (a : α) (n : Nat) : Prop :=
  ∃ before later, history = before ++ .enter a :: later ∧ before.length = n ∧
    ¬Standing before a ∧ ∀ e ∈ later, e.Keeps a

/-- `a` stands on the roster by an earlier entry than `b`. -/
def Earlier (history : List (Entry α)) (a b : α) : Prop :=
  ∃ m n, Since history a m ∧ Since history b n ∧ m < n

variable {history : List (Entry α)} {e : Entry α} {a b : α} {n : Nat}

/-! ### One more entry -/

theorem not_standing_nil : ¬Standing [] a := by
  intro h
  obtain ⟨before, later, hnil, -⟩ := h
  simp at hnil

theorem standing_snoc :
    Standing (history ++ [e]) a ↔ e = .enter a ∨ Standing history a ∧ e.Keeps a := by
  constructor
  · intro h
    obtain ⟨before, later, hsplit, hkeeps⟩ := h
    rcases List.eq_nil_or_concat' later with rfl | ⟨later, last, rfl⟩
    · exact Or.inl (List.singleton_inj.mp (List.append_inj' hsplit rfl).2)
    · rw [← List.cons_append, ← List.append_assoc] at hsplit
      obtain ⟨hhistory, hlast⟩ := List.append_inj' hsplit rfl
      obtain rfl : e = last := List.singleton_inj.mp hlast
      refine Or.inr ⟨⟨before, later, hhistory, fun e' he' => hkeeps e' ?_⟩, hkeeps e ?_⟩
      · exact List.mem_append_left _ he'
      · exact List.mem_append_right _ (List.mem_singleton_self e)
  · intro h
    rcases h with rfl | ⟨⟨before, later, hhistory, hkeeps⟩, he⟩
    · exact ⟨history, [], rfl, fun e he => absurd he List.not_mem_nil⟩
    · refine ⟨before, later ++ [e], by rw [hhistory, List.append_assoc, List.cons_append], ?_⟩
      intro e' he'
      rcases List.mem_append.mp he' with h | h
      · exact hkeeps e' h
      · rwa [List.mem_singleton.mp h]

theorem Since.lt (h : Since history a n) : n < history.length := by
  obtain ⟨before, later, hsplit, hlength, -⟩ := h
  rw [hsplit, List.length_append, List.length_cons]
  omega

theorem Since.snoc (h : Since history a n) (he : e.Keeps a) : Since (history ++ [e]) a n := by
  obtain ⟨before, later, hsplit, hlength, hnew, hkeeps⟩ := h
  refine ⟨before, later ++ [e], by rw [hsplit, List.append_assoc, List.cons_append], hlength,
    hnew, ?_⟩
  intro e' he'
  rcases List.mem_append.mp he' with h | h
  · exact hkeeps e' h
  · rwa [List.mem_singleton.mp h]

theorem since_enter (h : ¬Standing history a) :
    Since (history ++ [.enter a]) a history.length :=
  ⟨history, [], rfl, rfl, h, fun _ he => absurd he List.not_mem_nil⟩

theorem Standing.exists_since (h : Standing history a) : ∃ n, Since history a n := by
  induction history using List.reverseRecOn with
  | nil => exact absurd h not_standing_nil
  | append_singleton history e ih =>
      by_cases hold : Standing history a
      · obtain ⟨n, hn⟩ := ih hold
        rcases standing_snoc.mp h with rfl | ⟨-, he⟩
        · exact ⟨n, hn.snoc trivial⟩
        · exact ⟨n, hn.snoc he⟩
      · rcases standing_snoc.mp h with rfl | ⟨h', -⟩
        · exact ⟨_, since_enter hold⟩
        · exact absurd h' hold

theorem Earlier.snoc (h : Earlier history a b) (ha : e.Keeps a) (hb : e.Keeps b) :
    Earlier (history ++ [e]) a b := by
  obtain ⟨m, n, hm, hn, hlt⟩ := h
  exact ⟨m, n, hm.snoc ha, hn.snoc hb, hlt⟩

theorem Standing.earlier_enter (ha : Standing history a) (hb : ¬Standing history b) :
    Earlier (history ++ [.enter b]) a b := by
  obtain ⟨m, hm⟩ := ha.exists_since
  exact ⟨m, history.length, hm.snoc trivial, since_enter hb, hm.lt⟩

/-! ### The roster -/

variable [DecidableEq α]

def step (roster : List α) : Entry α → List α
  | .enter a => if a ∈ roster then roster else roster ++ [a]
  | .strike p => roster.filter fun a => !p a

/-- The roster after the entries of a history. -/
def after (history : List (Entry α)) : List α := history.foldl step []

theorem after_snoc : after (history ++ [e]) = step (after history) e := by
  rw [after, List.foldl_append]
  rfl

theorem mem_step {roster : List α} : a ∈ step roster e ↔ e = .enter a ∨ a ∈ roster ∧ e.Keeps a := by
  cases e with
  | enter b =>
      by_cases hb : b ∈ roster
      · simp only [step, if_pos hb, Entry.Keeps, and_true, Entry.enter.injEq]
        exact ⟨Or.inr, fun h => h.elim (fun h => h ▸ hb) id⟩
      · simp only [step, if_neg hb, Entry.Keeps, and_true, Entry.enter.injEq, List.mem_append,
          List.mem_singleton]
        rw [or_comm, eq_comm]
  | strike p => simp [step, Entry.Keeps]

theorem mem_after : a ∈ after history ↔ Standing history a := by
  induction history using List.reverseRecOn with
  | nil => exact iff_of_false List.not_mem_nil not_standing_nil
  | append_singleton history e ih => rw [after_snoc, mem_step, standing_snoc, ih]

theorem nodup_after : (after history).Nodup := by
  induction history using List.reverseRecOn with
  | nil => exact List.nodup_nil
  | append_singleton history e ih =>
      rw [after_snoc]
      cases e with
      | enter a =>
          by_cases ha : a ∈ after history
          · simpa only [step, if_pos ha] using ih
          · simp only [step, if_neg ha]
            exact ih.append (List.nodup_singleton a) (List.disjoint_singleton.mpr ha)
      | strike p => exact ih.filter _

theorem pairwise_after : (after history).Pairwise (Earlier history) := by
  induction history using List.reverseRecOn with
  | nil => exact List.Pairwise.nil
  | append_singleton history e ih =>
      rw [after_snoc]
      cases e with
      | enter a =>
          have hkept : (after history).Pairwise (Earlier (history ++ [.enter a])) :=
            ih.imp fun h => h.snoc trivial trivial
          by_cases ha : a ∈ after history
          · simpa only [step, if_pos ha] using hkept
          · simp only [step, if_neg ha]
            refine List.pairwise_append.mpr ⟨hkept, List.pairwise_singleton _ a, ?_⟩
            intro b hb c hc
            rw [List.mem_singleton.mp hc]
            exact (mem_after.mp hb).earlier_enter (mt mem_after.mpr ha)
      | strike p =>
          refine List.Pairwise.imp_of_mem ?_ (ih.filter _)
          intro b c hb hc h
          have hkeeps : ∀ x ∈ (after history).filter (fun x => !p x), p x = false := by
            intro x hx
            simpa using (List.mem_filter.mp hx).2
          exact h.snoc (hkeeps b hb) (hkeeps c hc)

end Roster

end ArmOd
