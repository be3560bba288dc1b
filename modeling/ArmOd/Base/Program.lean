import Mathlib

/-!
# Relations for stateful programs

A program here is a `StateM σ` computation. `Moves R f` says that every run of `f` moves the state
along the preorder `R`: what it may append to a log, which part of the state it keeps. `Commutes φ
f` says that `f` does not see what `φ` does to the state: what came before, say. `Simulates good abs
f g` says that every run of `f` that ends in a good state is a run of the abstract program `g`,
which works on the abstraction of the state and may be undefined. All are closed under sequencing,
so a program is classified by reading its text once.
-/

namespace ArmOd

universe u v

variable {σ τ : Type} {α β : Type}

/-! ### Running a stateful program -/

theorem run_pure (a : α) (s : σ) : (Pure.pure a : StateM σ α).run s = (a, s) := rfl

theorem run_bind (f : StateM σ α) (g : α → StateM σ β) (s : σ) : (f >>= g).run s =
    (g (f.run s).1).run (f.run s).2 := rfl

theorem run_get (s : σ) : (get : StateM σ σ).run s = (s, s) := rfl

theorem run_forM_cons (f : α → StateM σ PUnit) (a : α) (as : List α) (s : σ) :
    ((a :: as).forM f).run s = (as.forM f).run ((f a).run s).2 := rfl

theorem run_ite {c : Prop} [Decidable c] (f g : StateM σ α) (s : σ) :
    (if c then f else g).run s = if c then f.run s else g.run s := by
  split <;> rfl

/-! ### What the steps of a program have in common -/

/-- Every run of `f` moves the state along `R`. -/
def Moves (R : σ → σ → Prop) (f : StateM σ α) : Prop := ∀ s, R s (f.run s).2

namespace Moves

variable {R R' : σ → σ → Prop} {f : StateM σ α} {g : α → StateM σ β}

theorem pure [IsPreorder σ R] (a : α) : Moves R (Pure.pure a : StateM σ α) := fun s => refl_of R s

theorem bind [IsPreorder σ R] (hf : Moves R f) (hg : ∀ a, Moves R (g a)) : Moves R (f >>= g) :=
  fun s => trans_of R (hf s) (hg (f.run s).1 (f.run s).2)

theorem ite {c : Prop} [Decidable c] {f' : StateM σ α} (hf : c → Moves R f)
    (hf' : ¬c → Moves R f') :
    Moves R (if c then f else f') := by
  split
  · exact hf ‹_›
  · exact hf' ‹_›

theorem mono (hf : Moves R f) (h : ∀ s s', R s s' → R' s s') : Moves R' f := fun s => h s _ (hf s)

theorem forM [IsPreorder σ R] {xs : List α} {body : α → StateM σ PUnit}
    (h : ∀ a ∈ xs, Moves R (body a)) : Moves R (xs.forM body) := by
  induction xs with
  | nil => exact pure _
  | cons x xs ih =>
      exact (h x List.mem_cons_self).bind fun _ => ih fun a ha => h a (List.mem_cons_of_mem x ha)

theorem foldlM [IsPreorder σ R] {γ : Type} {xs : List γ} {body : α → γ → StateM σ α}
    (h : ∀ a c, Moves R (body a c)) (a : α) :
    Moves R (xs.foldlM body a) := by
  induction xs generalizing a with
  | nil => exact pure a
  | cons x xs ih =>
      rw [List.foldlM_cons]
      exact (h a x).bind ih

end Moves

/-! ### What a program does not see -/

/-- A run of `f` from `φ s` is the run from `s`, with `φ` at its end. -/
def Commutes (φ : σ → σ) (f : StateM σ α) : Prop := ∀ s, f.run (φ s) = ((f.run s).1, φ (f.run s).2)

namespace Commutes

variable {φ : σ → σ} {f f' : StateM σ α} {g : α → StateM σ β}

theorem pure (a : α) : Commutes φ (Pure.pure a : StateM σ α) := fun _ => rfl

theorem bind (hf : Commutes φ f) (hg : ∀ a, Commutes φ (g a)) : Commutes φ (f >>= g) := by
  intro s
  rw [run_bind, run_bind, hf s]
  exact hg (f.run s).1 (f.run s).2

theorem ite {c : Prop} [Decidable c] (hf : Commutes φ f) (hf' : Commutes φ f') :
    Commutes φ (if c then f else f') := by
  split
  · exact hf
  · exact hf'

end Commutes

/-! ### Abstract programs -/

/-- Every run of `f` that ends in a good state started in one, and is the run of `g` on the abstract
states. -/
structure Simulates (good : σ → Prop) (abs : σ → τ) (f : StateM σ α)
    (g : StateT τ Option α) : Prop where
  back : ∀ s, good (f.run s).2 → good s
  run : ∀ s, good (f.run s).2 → g.run (abs s) = some ((f.run s).1, abs (f.run s).2)

namespace Simulates

variable {good : σ → Prop} {abs : σ → τ} {f : StateM σ α} {g : StateT τ Option α}

theorem pure (a : α) : Simulates good abs (Pure.pure a : StateM σ α) (Pure.pure a) :=
  ⟨fun _ h => h, fun _ _ => rfl⟩

theorem bind {f' : α → StateM σ β} {g' : α → StateT τ Option β} (hf : Simulates good abs f g)
    (hf' : ∀ a, Simulates good abs (f' a) (g' a)) : Simulates good abs (f >>= f') (g >>= g') where
  back := fun s h => hf.back s ((hf' _).back _ h)
  run := by
    intro s h
    -- the good end state is pulled back through the second program to the state between
    have hmid := (hf' (f.run s).1).back _ h
    rw [StateT.run_bind, hf.run s hmid]
    exact (hf' (f.run s).1).run (f.run s).2 h

theorem ite {c : Prop} [Decidable c] {f' : StateM σ α} {g' : StateT τ Option α}
    (hf : c → Simulates good abs f g)
    (hf' : ¬c → Simulates good abs f' g') : Simulates good abs (if c then f else f')
    (if c then g else g') := by
  split
  · exact hf ‹_›
  · exact hf' ‹_›

/-- A test that the good runs pass. -/
theorem guard {t : StateM σ Bool} {a : α} (ht : Simulates good abs t (Pure.pure true))
    (hf : Simulates good abs f g) :
    Simulates good abs (t >>= fun passed => if (!passed) = true then Pure.pure a else f) g := by
  have hmid : Simulates good abs (t >>= fun passed => if (!passed) = true then Pure.pure a else f)
      (Pure.pure true >>= fun passed => if (!passed) = true then Pure.pure a else g) :=
    ht.bind fun _ => ite (fun _ => pure a) fun _ => hf
  rwa [pure_bind] at hmid

theorem foldlM {γ : Type} {body : α → γ → StateM σ α} {body' : α → γ → StateT τ Option α}
    (h : ∀ a c, Simulates good abs (body a c) (body' a c)) (xs : List γ) (a : α) :
    Simulates good abs (xs.foldlM body a) (xs.foldlM body' a) := by
  induction xs generalizing a with
  | nil => exact pure a
  | cons x xs ih =>
      rw [List.foldlM_cons, List.foldlM_cons]
      exact (h a x).bind ih

theorem of_abs_eq {g' : StateT τ Option α} (hf : Simulates good abs f g) (h : g = g') :
    Simulates good abs f g' := h ▸ hf

end Simulates

/-- A loop each step of which drops some of what the state stands for. -/
theorem foldlM_filter {γ ζ : Type} {R : τ → List ζ → Prop} {body : α → γ → StateT τ Option α}
    {p : γ → ζ → Bool}
    (hbody : ∀ {a x t zs r t'}, R t zs → (body a x).run t = some (r, t') → R t' (zs.filter (p x)))
    {xs : List γ} {a r : α} {t t' : τ} {zs : List ζ} (h : R t zs)
    (hrun : (xs.foldlM body a).run t = some (r, t')) :
    R t' (zs.filter fun z => xs.all fun x => p x z) := by
  induction xs generalizing a t zs with
  | nil =>
      obtain ⟨rfl, rfl⟩ : a = r ∧ t = t' := by simpa using hrun
      simpa using h
  | cons x xs ih =>
      rw [List.foldlM_cons, StateT.run_bind] at hrun
      obtain ⟨⟨mid, tmid⟩, hstep, hrest⟩ := Option.bind_eq_some_iff.mp hrun
      have hfilter := ih (hbody h hstep) hrest
      rw [List.filter_filter] at hfilter
      convert hfilter using 3 with z
      rw [List.all_cons, Bool.and_comm]

end ArmOd
