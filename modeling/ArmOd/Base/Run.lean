import Mathlib

/-!
# Runs of a step function

A run is a left fold of a step function over the operations taken. `Along step cond s ops` says that
every step of the run from `s` meets `cond` in the state it is taken from, which is how an
assumption about a schedule or about the inputs is written. The two rules are the invariant rule,
and the rule that exchanges the condition for an equivalent one under an invariant.
-/

namespace ArmOd

universe u v w

variable {σ : Type u} {α : Type v}

/-- Every step of the run from `s` along `ops` meets `cond` in the state it is taken from. -/
def Along (step : σ → α → σ) (cond : σ → α → Prop) : σ → List α → Prop
  | _, [] => True
  | s, op :: ops => cond s op ∧ Along step cond (step s op) ops

/-- The steps of a run: each operation with the state it is taken from. -/
def transitions (step : σ → α → σ) : σ → List α → List (σ × α)
  | _, [] => []
  | s, op :: ops => (s, op) :: transitions step (step s op) ops

theorem transitions_append {step : σ → α → σ} {s : σ} {ops more : List α} :
    transitions step s (ops ++ more) =
      transitions step s ops ++ transitions step (ops.foldl step s) more := by
  induction ops generalizing s with
  | nil => rfl
  | cons op ops ih =>
      rw [List.cons_append, transitions, transitions, ih, List.foldl_cons, List.cons_append]

theorem foldl_keeps {τ : Type w} (step : σ → α → σ) (π : σ → τ)
    (hstep : ∀ s op, π (step s op) = π s) (s : σ)
    (ops : List α) : π (ops.foldl step s) = π s := by
  induction ops generalizing s with
  | nil => rfl
  | cons op ops ih => rw [List.foldl_cons, ih, hstep]

namespace Along

variable {step : σ → α → σ} {cond cond' : σ → α → Prop} {s : σ} {op : α} {ops : List α}

@[simp] theorem nil : Along step cond s [] := trivial

@[simp] theorem cons : Along step cond s (op :: ops) ↔ cond s op ∧
  Along step cond (step s op) ops := Iff.rfl

theorem append {more : List α} :
    Along step cond s (ops ++ more) ↔ Along step cond s ops ∧
      Along step cond (ops.foldl step s) more := by
  induction ops generalizing s with
  | nil => simp
  | cons op ops ih => simp only [List.cons_append, cons, List.foldl_cons, ih, and_assoc]

/-- **The invariant rule.** What the first state has and every allowed step keeps, the last state
has. -/
theorem invariant {inv : σ → Prop} (hstep : ∀ s op, inv s → cond s op → inv (step s op))
    (hinit : inv s) (hrun : Along step cond s ops) : inv (ops.foldl step s) := by
  induction ops generalizing s with
  | nil => exact hinit
  | cons op ops ih => exact ih (hstep s op hinit hrun.1) hrun.2

/-- Under an invariant of the allowed steps, a condition on the steps follows from another one. -/
theorem imp {inv : σ → Prop} (hstep : ∀ s op, inv s → cond s op → inv (step s op))
    (himp : ∀ s op, inv s → cond s op → cond' s op) (hinit : inv s) (hrun : Along step cond s ops) :
    Along step cond' s ops := by
  induction ops generalizing s with
  | nil => exact trivial
  | cons op ops ih => exact ⟨himp s op hinit hrun.1, ih (hstep s op hinit hrun.1) hrun.2⟩

/-- What holds in every state of a run, said step by step. -/
theorem forall_prefix_iff (inv : σ → Prop) :
    (∀ before, before <+: ops → inv (before.foldl step s)) ↔ inv s ∧ Along step
    (fun s op => inv (step s op)) s ops := by
  induction ops generalizing s with
  | nil =>
      refine ⟨fun h => ⟨h [] (List.prefix_refl _), trivial⟩, fun h before hbefore => ?_⟩
      rw [List.prefix_nil.mp hbefore]
      exact h.1
  | cons op ops ih =>
      refine ⟨fun h => ⟨h [] List.nil_prefix, ?_⟩, fun h before hbefore => ?_⟩
      · have hrest := ih.mp fun before hbefore =>
          h (op :: before) (List.cons_prefix_cons.mpr ⟨rfl, hbefore⟩)
        exact ⟨hrest.1, hrest.2⟩
      · cases before with
        | nil => exact h.1
        | cons op' before =>
            obtain ⟨rfl, hrest⟩ := List.cons_prefix_cons.mp hbefore
            exact ih.mpr h.2 before hrest

theorem of_forall (h : ∀ s op, cond s op) : Along step cond s ops := by
  induction ops generalizing s with
  | nil => exact trivial
  | cons op ops ih => exact ⟨h s op, ih⟩

/-- A condition on the operations alone. -/
theorem forall_mem_iff {allowed : α → Prop} :
    Along step (fun _ op => allowed op) s ops ↔ ∀ op ∈ ops, allowed op := by
  induction ops generalizing s with
  | nil => exact iff_of_true trivial (List.forall_mem_nil _)
  | cons op ops ih => rw [cons, ih, List.forall_mem_cons]

/-- A condition on a part of the state that steps by itself. -/
theorem project {τ : Type w} {part : σ → τ} {step' : τ → α → τ} {cond : τ → α → Prop}
    (hpart : ∀ s op, part (step s op) = step' (part s) op) :
    Along step (fun s op => cond (part s) op) s ops ↔ Along step' cond (part s) ops := by
  induction ops generalizing s with
  | nil => exact Iff.rfl
  | cons op ops ih => rw [cons, cons, ih, hpart]

/-- Two conditions that agree on the states an invariant allows hold along the same runs, where the
steps of the run are known to meet an assumption. The invariant may be one that only the runs
meeting the condition keep. -/
theorem congr_of {assumed : σ → α → Prop} {inv : σ → Prop}
    (hstep : ∀ s op, inv s → assumed s op → cond s op → inv (step s op))
    (hiff : ∀ s op, inv s → assumed s op → (cond s op ↔ cond' s op)) (hinit : inv s)
    (hrun : Along step assumed s ops) :
    Along step cond s ops ↔ Along step cond' s ops := by
  induction ops generalizing s with
  | nil => simp
  | cons op ops ih =>
      obtain ⟨hop, hrest⟩ := hrun
      simp only [cons, ← hiff s op hinit hop]
      exact and_congr_right fun hcond => ih (hstep s op hinit hop hcond) hrest

/-- As `congr_of`, with nothing assumed. -/
theorem congr {inv : σ → Prop} (hstep : ∀ s op, inv s → cond s op → inv (step s op))
    (hiff : ∀ s op, inv s → (cond s op ↔ cond' s op)) (hinit : inv s) :
    Along step cond s ops ↔ Along step cond' s ops :=
  congr_of (fun s op hs _ => hstep s op hs) (fun s op hs _ => hiff s op hs) hinit
    (forall_mem_iff.mpr fun _ _ => trivial)

end Along

end ArmOd
