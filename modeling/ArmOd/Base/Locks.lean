import Mathlib

/-!
# Mutexes taken in a fixed order

Threads take and release mutexes that are not recursive, one step at a time. `Code` is what a
function does to the mutexes: it locks one around a body, calls other functions one after the other,
branches and repeats; `Runs` are the sequences of steps it can take. When every function takes its
mutexes in the order of a rank, no thread waits for a mutex it holds itself and no threads wait for
each other in a circle, for any number of threads and any interleaving.
-/

namespace ArmOd

variable {μ ι : Type}

inductive LockStep (μ : Type) where
  | acquire (m : μ)
  | release (m : μ)
  deriving DecidableEq, Repr

inductive Code (μ : Type) where
  | skip
  | seq (a b : Code μ)
  | choice (a b : Code μ)
  | loop (a : Code μ)
  | lock (m : μ) (a : Code μ)
  deriving DecidableEq, Repr

namespace Code

def sequence (codes : List (Code μ)) : Code μ := codes.foldr seq skip

/-- A branch that is taken or not. -/
def opt (a : Code μ) : Code μ := choice skip a

/-- A mutex that guards a body without further mutexes. -/
def guard (m : μ) : Code μ := lock m skip

end Code

/-- The sequences of steps of a code. -/
inductive Runs : Code μ → List (LockStep μ) → Prop
  | skip : Runs .skip []
  | seq {a b : Code μ} {es fs : List (LockStep μ)} (ha : Runs a es) (hb : Runs b fs) : Runs
        (.seq a b) (es ++ fs)
  | left {a b : Code μ} {es : List (LockStep μ)} (ha : Runs a es) : Runs (.choice a b) es
  | right {a b : Code μ} {es : List (LockStep μ)} (hb : Runs b es) : Runs (.choice a b) es
  | done {a : Code μ} : Runs (.loop a) []
  | again {a : Code μ} {es fs : List (LockStep μ)} (ha : Runs a es) (hloop : Runs (.loop a) fs) :
        Runs (.loop a) (es ++ fs)
  | lock {m : μ} {a : Code μ} {es : List (LockStep μ)} (ha : Runs a es) : Runs (.lock m a)
        (.acquire m :: (es ++ [.release m]))

/-! ### The order of a rank -/

/-- Every mutex the code takes ranks at least `n` and above those it is taken under. -/
def Code.Rising (rank : μ → Nat) : Nat → Code μ → Prop
  | _, .skip => True
  | n, .seq a b => a.Rising rank n ∧ b.Rising rank n
  | n, .choice a b => a.Rising rank n ∧ b.Rising rank n
  | n, .loop a => a.Rising rank n
  | n, .lock m a => n ≤ rank m ∧ a.Rising rank (rank m + 1)

instance Code.decidableRising (rank : μ → Nat) : (n : Nat) → (c : Code μ) → Decidable
    (c.Rising rank n)
  | _, .skip => isTrue trivial
  | n, .seq a b => @instDecidableAnd _ _ (decidableRising rank n a) (decidableRising rank n b)
  | n, .choice a b => @instDecidableAnd _ _ (decidableRising rank n a) (decidableRising rank n b)
  | n, .loop a => decidableRising rank n a
  | n, .lock m a =>
      @instDecidableAnd _ _ (Nat.decLe n (rank m)) (decidableRising rank (rank m + 1) a)

/-- The steps take each mutex above those that are held, the last one first, and release the last
one taken. -/
def Ordered (rank : μ → Nat) : List μ → List (LockStep μ) → Prop
  | _, [] => True
  | held, .acquire m :: es => (∀ h ∈ held, rank h < rank m) ∧ Ordered rank (m :: held) es
  | h :: held, .release m :: es => h = m ∧ Ordered rank held es
  | [], .release _ :: _ => False

variable {rank : μ → Nat} {held : List μ} {c : Code μ} {es rest : List (LockStep μ)}

theorem ordered_of_runs (hruns : Runs c es) {n : Nat} (hc : c.Rising rank n)
    (hheld : ∀ h ∈ held, rank h < n)
    (hrest : Ordered rank held rest) : Ordered rank held (es ++ rest) := by
  induction hruns generalizing n held rest with
  | skip => exact hrest
  | seq _ _ iha ihb =>
      rw [List.append_assoc]
      exact iha hc.1 hheld (ihb hc.2 hheld hrest)
  | left _ iha => exact iha hc.1 hheld hrest
  | right _ ihb => exact ihb hc.2 hheld hrest
  | done => exact hrest
  | again _ _ iha ihloop =>
      rw [List.append_assoc]
      exact iha hc hheld (ihloop hc hheld hrest)
  | lock _ iha =>
      rw [List.cons_append, List.append_assoc]
      refine ⟨fun h hh => (hheld h hh).trans_le hc.1, iha hc.2 (fun h hh => ?_) ⟨rfl, hrest⟩⟩
      obtain rfl | hh := List.mem_cons.mp hh
      · exact Nat.lt_succ_self _
      · exact ((hheld h hh).trans_le hc.1).trans (Nat.lt_succ_self _)

theorem rising_sequence {n : Nat} {codes : List (Code μ)} (h : ∀ c ∈ codes, c.Rising rank n) :
    (Code.sequence codes).Rising rank n := by
  induction codes with
  | nil => exact trivial
  | cons c codes ih =>
      exact ⟨h c List.mem_cons_self, ih fun c' hc' => h c' (List.mem_cons_of_mem c hc')⟩

/-! ### Threads -/

structure Threads (ι μ : Type) where
  /-- The steps a thread has still to take. -/
  pending : ι → List (LockStep μ)
  owner : μ → Option ι

namespace Threads

def WaitsFor (s : Threads ι μ) (i j : ι) : Prop :=
  ∃ m es, s.pending i = .acquire m :: es ∧ s.owner m = some j

/-- A thread waits for itself, or threads wait for each other in a circle. -/
def Deadlock (s : Threads ι μ) : Prop := ∃ i, Relation.TransGen s.WaitsFor i i

/-- What a thread holds, and that it goes on in the order of the rank. -/
def Holds (rank : μ → Nat) (s : Threads ι μ) (i : ι) (held : List μ) : Prop :=
  held.Pairwise (fun a b => rank b < rank a) ∧ (∀ m, m ∈ held ↔ s.owner m = some i) ∧
    Ordered rank held (s.pending i)

def InOrder (rank : μ → Nat) (s : Threads ι μ) : Prop := ∀ i, ∃ held, Holds rank s i held

variable {s : Threads ι μ}

/-- A thread that another one waits for waits itself, if it does, for a mutex of higher rank. -/
theorem InOrder.rank_lt (h : InOrder rank s) {j : ι} {m m' : μ} (howner : s.owner m = some j)
    {es : List (LockStep μ)}
    (hpending : s.pending j = .acquire m' :: es) : rank m < rank m' := by
  obtain ⟨held, -, hmem, hordered⟩ := h j
  rw [hpending] at hordered
  exact hordered.1 m ((hmem m).mpr howner)

theorem InOrder.not_deadlock (h : InOrder rank s) : ¬ s.Deadlock := by
  have hrising : ∀ i k, Relation.TransGen s.WaitsFor i k →
      ∃ m es, s.pending i = .acquire m :: es ∧ ∀ m' es', s.pending k = .acquire m' :: es' →
      rank m < rank m' := by
    intro i k hwaits
    induction hwaits with
    | single hik =>
        obtain ⟨m, es, hpending, howner⟩ := hik
        exact ⟨m, es, hpending, fun m' es' => h.rank_lt howner⟩
    | tail _ hjk ih =>
        obtain ⟨m, es, hpending, hlt⟩ := ih
        obtain ⟨m₁, es₁, hpending₁, howner₁⟩ := hjk
        exact ⟨m, es, hpending, fun m' es' hpending' =>
          (hlt m₁ es₁ hpending₁).trans (h.rank_lt howner₁ hpending')⟩
  intro hdeadlock
  obtain ⟨i, hcycle⟩ := hdeadlock
  obtain ⟨m, es, hpending, hlt⟩ := hrising i i hcycle
  exact lt_irrefl _ (hlt m es hpending)

/-- A mutex that `j` does not hold changes hands without `j`. -/
theorem update_owner_iff [DecidableEq μ] {j : ι} {m : μ} {o : Option ι}
    (hbefore : s.owner m ≠ some j) (hafter : o ≠ some j) (m' : μ) :
    Function.update s.owner m o m' = some j ↔ s.owner m' = some j := by
  by_cases hm : m' = m
  · subst hm
    simp [hbefore, hafter]
  · simp [hm]

variable [DecidableEq ι]

theorem Holds.other {i j : ι} (h : Holds rank s j held) (hij : j ≠ i) {es : List (LockStep μ)}
    {owner : μ → Option ι}
    (howner : ∀ m, owner m = some j ↔ s.owner m = some j) :
    Holds rank ⟨Function.update s.pending i es, owner⟩ j held := by
  refine ⟨h.1, fun m => (h.2.1 m).trans (howner m).symm, ?_⟩
  simp only [Function.update_of_ne hij]
  exact h.2.2

variable [DecidableEq μ]

theorem Holds.acquire {i : ι} {m : μ} {es : List (LockStep μ)} (h : Holds rank s i held)
    (hpending : s.pending i = .acquire m :: es) :
    Holds rank ⟨Function.update s.pending i es, Function.update s.owner m (some i)⟩ i
      (m :: held) := by
  obtain ⟨hsorted, howner, hordered⟩ := h
  rw [hpending] at hordered
  refine ⟨List.pairwise_cons.mpr ⟨hordered.1, hsorted⟩, fun m' => ?_, by simpa using hordered.2⟩
  by_cases hm : m' = m
  · simp [hm]
  · simp [hm, howner]

theorem Holds.release {i : ι} {m : μ} {es : List (LockStep μ)} (h : Holds rank s i held)
    (hpending : s.pending i = .release m :: es) :
    s.owner m = some i ∧ ∃ held', Holds rank
      ⟨Function.update s.pending i es, Function.update s.owner m none⟩ i held' := by
  obtain ⟨hsorted, howner, hordered⟩ := h
  rw [hpending] at hordered
  cases held with
  | nil => exact hordered.elim
  | cons last rest =>
      obtain ⟨rfl, hordered⟩ := hordered
      obtain ⟨hlast, hsorted⟩ := List.pairwise_cons.mp hsorted
      refine ⟨(howner last).mp List.mem_cons_self, rest, hsorted, fun m' => ?_,
        by simpa using hordered⟩
      by_cases hm : m' = last
      · subst hm
        simp only [Function.update_self, reduceCtorEq, iff_false]
        exact fun hmem => lt_irrefl _ (hlast m' hmem)
      · simp only [Function.update_of_ne hm, ← howner m', List.mem_cons, hm, false_or]

/-- Nothing is locked at the start. -/
def start (program : ι → List (LockStep μ)) : Threads ι μ := ⟨program, fun _ => none⟩

/-- The next step of a thread; it stays where it is while the mutex it wants is held. -/
def step (s : Threads ι μ) (i : ι) : Threads ι μ :=
  match s.pending i with
  | [] => s
  | .acquire m :: es => if s.owner m = none then
        ⟨Function.update s.pending i es, Function.update s.owner m (some i)⟩ else s
  | .release m :: es => ⟨Function.update s.pending i es, Function.update s.owner m none⟩

theorem InOrder.step (h : InOrder rank s) (i : ι) : InOrder rank (s.step i) := by
  intro j
  obtain ⟨held, hheld⟩ := h j
  obtain ⟨heldi, hheldi⟩ := h i
  rw [Threads.step]
  split
  · exact ⟨held, hheld⟩
  next m es hpending =>
    split
    next hfree =>
      by_cases hij : j = i
      · subst hij
        exact ⟨m :: held, hheld.acquire hpending⟩
      · exact ⟨held, hheld.other hij (update_owner_iff (by simp [hfree]) (by simp [Ne.symm hij]))⟩
    · exact ⟨held, hheld⟩
  next m es hpending =>
    obtain ⟨howner, hrest⟩ := hheldi.release hpending
    by_cases hij : j = i
    · subst hij
      exact hrest
    · exact ⟨held, hheld.other hij
        (update_owner_iff (by simp [howner, Ne.symm hij]) (by simp))⟩

/-- **No deadlock** of threads whose programs keep the order of a rank. -/
theorem not_deadlock_of_rising {program : ι → List (LockStep μ)} {codes : ι → List (Code μ)}
    (hprogram : ∀ i, Runs (Code.sequence (codes i)) (program i))
    (hcodes : ∀ i, ∀ c ∈ codes i, c.Rising rank 0) (schedule : List ι) :
    ¬ (schedule.foldl step (start program)).Deadlock := by
  have hstart : InOrder rank (start program) := by
    intro i
    refine ⟨[], List.Pairwise.nil, fun m => by simp [start], ?_⟩
    have hordered : Ordered rank [] (program i ++ []) :=
      ordered_of_runs (hprogram i) (rising_sequence (hcodes i))
        (fun _ hmem => absurd hmem List.not_mem_nil) trivial
    rwa [List.append_nil] at hordered
  have hrun : InOrder rank (schedule.foldl step (start program)) := by
    induction schedule using List.reverseRecOn with
    | nil => exact hstart
    | append_singleton schedule i ih =>
        rw [List.foldl_append]
        exact ih.step i
  exact hrun.not_deadlock

end Threads

end ArmOd
