import Mathlib

/-!
# Loops

`while (cond) body` as the states after so many rounds; a loop that has ended stays where it is. The
rule for total correctness is the usual one, an invariant and a measure that every round lowers, and
`Begins` collects the states in which a round begins.
-/

namespace ArmOd

universe u

variable {σ : Type u}

/-- The state after so many rounds. -/
def rounds (cond : σ → Bool) (body : σ → σ) : Nat → σ → σ
  | 0, s => s
  | n + 1, s => if cond s then rounds cond body n (body s) else s

/-- A round of the loop from `s` begins in `t`. -/
def Begins (cond : σ → Bool) (body : σ → σ) (s t : σ) : Prop :=
  cond t = true ∧ ∃ n, rounds cond body n s = t

variable {cond : σ → Bool} {body : σ → σ} {s t : σ}

theorem rounds_of_cond (h : cond s = true) (n : Nat) :
    rounds cond body (n + 1) s = rounds cond body n (body s) := by
  rw [rounds, if_pos h]

theorem rounds_of_not_cond (h : cond s = false) (n : Nat) : rounds cond body n s = s := by
  cases n with
  | zero => rfl
  | succ n => rw [rounds, if_neg (by rw [h]; exact Bool.false_ne_true)]

/-- **The invariant rule.** -/
theorem rounds_invariant {inv : σ → Prop} (hround : ∀ s, inv s → cond s = true → inv (body s))
    (h : inv s) (n : Nat) : inv (rounds cond body n s) := by
  induction n generalizing s with
  | zero => exact h
  | succ n ih =>
      cases hcond : cond s with
      | false => rwa [rounds_of_not_cond hcond]
      | true =>
          rw [rounds_of_cond hcond]
          exact ih (hround s h hcond)

/-- **Total correctness.** What an invariant and the end of the loop give, the loop comes to, in as
many rounds as the measure says. -/
theorem exists_ended (μ : σ → Nat) (inv post : σ → Prop)
    (hround : ∀ s, inv s → cond s = true → inv (body s) ∧ μ (body s) < μ s)
    (hend : ∀ s, inv s → cond s = false → post s) (h : inv s) :
    ∃ n ≤ μ s, cond (rounds cond body n s) = false ∧ post (rounds cond body n s) := by
  induction hμ : μ s using Nat.strong_induction_on generalizing s with
  | _ m ih =>
      cases hcond : cond s with
      | false => exact ⟨0, Nat.zero_le _, hcond, hend s h hcond⟩
      | true =>
          obtain ⟨hinv, hlt⟩ := hround s h hcond
          obtain ⟨n, hn, hended⟩ := ih (μ (body s)) (hμ ▸ hlt) hinv rfl
          refine ⟨n + 1, by omega, ?_⟩
          rwa [rounds_of_cond hcond]

theorem rounds_of_ended {n m : Nat} (h : cond (rounds cond body n s) = false) (hle : n ≤ m) :
    rounds cond body m s = rounds cond body n s := by
  induction n generalizing s m with
  | zero => exact rounds_of_not_cond h m
  | succ n ih =>
      cases hcond : cond s with
      | false => rw [rounds_of_not_cond hcond, rounds_of_not_cond hcond]
      | true =>
          obtain ⟨k, rfl⟩ := Nat.exists_eq_add_of_le' hle
          rw [rounds_of_cond hcond] at h
          rw [← Nat.add_assoc, rounds_of_cond hcond, rounds_of_cond hcond]
          exact ih h (Nat.le_add_left n k)

theorem begins_iff : Begins cond body s t ↔ cond s = true ∧ (t = s ∨ Begins cond body (body s) t) := by
  constructor
  · rintro ⟨hcond, n, rfl⟩
    cases hs : cond s with
    | false =>
        rw [rounds_of_not_cond hs, hs] at hcond
        cases hcond
    | true =>
        refine ⟨rfl, ?_⟩
        cases n with
        | zero => exact Or.inl rfl
        | succ n => exact Or.inr ⟨hcond, n, (rounds_of_cond hs n).symm⟩
  · rintro ⟨hs, rfl | ⟨hcond, n, rfl⟩⟩
    · exact ⟨hs, 0, rfl⟩
    · exact ⟨hcond, n + 1, rounds_of_cond hs n⟩

theorem not_begins (h : cond s = false) : ¬Begins cond body s t := by
  intro hbegins
  rw [begins_iff, h] at hbegins
  cases hbegins.1

end ArmOd
