import Mathlib

/-!
# Bracketed words

What an observer of one object sees is a word over three marks: it appears, it changes, it
disappears. The protocol is a regular language: any number of closed blocks `added changed*
removed`, then at most one unfinished block `added changed*`. `scan` is its automaton, whose state
says whether a block is open, and `scan_eq_some_iff` reads the automaton back as the language.
-/

namespace ArmOd

/-- What an observer can be told about one object. -/
inductive Mark where
  | added
  | changed
  | removed
  deriving DecidableEq, Repr

namespace Blocks

/-- A complete life: appeared, changed `n` times, disappeared. -/
def closed (n : Nat) : List Mark := .added :: (List.replicate n .changed ++ [.removed])

/-- A life that goes on: appeared, changed `n` times. -/
def unfinished (n : Nat) : List Mark := .added :: List.replicate n .changed

/-- A word of the protocol: closed blocks, then an unfinished one exactly when `isOpen`. -/
def WellBracketed (word : List Mark) (isOpen : Bool) : Prop :=
  ∃ blocks : List Nat, ∃ n : Nat, word = blocks.flatMap closed ++ if isOpen then
    unfinished n else []

/-- One mark: whether a block is open afterwards, or nothing where the protocol forbids the mark. -/
def next : Bool → Mark → Option Bool
  | false, .added => some true
  | true, .changed => some true
  | true, .removed => some false
  | _, _ => none

/-- The automaton of the protocol, from a state that says whether a block is open. -/
def scan (isOpen : Bool) (word : List Mark) : Option Bool := word.foldlM next isOpen

@[simp] theorem scan_nil (isOpen : Bool) : scan isOpen [] = some isOpen := rfl

@[simp] theorem scan_cons (isOpen : Bool) (mark : Mark) (word : List Mark) :
    scan isOpen (mark :: word) = (next isOpen mark).bind (scan · word) := rfl

theorem scan_append (isOpen : Bool) (word more : List Mark) :
    scan isOpen (word ++ more) = (scan isOpen word).bind (scan · more) := by
  simp only [scan, List.foldlM_append]
  rfl

theorem scan_append_of_scan {isOpen mid : Bool} {word more : List Mark}
    (h : scan isOpen word = some mid) :
    scan isOpen (word ++ more) = scan mid more := by
  rw [scan_append, h, Option.bind_some]

theorem scan_replicate_changed (n : Nat) : scan true (List.replicate n .changed) = some true := by
  induction n with
  | zero => rfl
  | succ n ih => rw [List.replicate_succ, scan_cons]; exact ih

theorem scan_unfinished (n : Nat) : scan false (unfinished n) = some true :=
  scan_replicate_changed n

theorem scan_closed (n : Nat) : scan false (closed n) = some false := by
  rw [closed, scan_cons]
  change scan true _ = _
  rw [scan_append_of_scan (scan_replicate_changed n)]
  rfl

theorem scan_flatMap_closed (blocks : List Nat) : scan false
    (blocks.flatMap closed) = some false := by
  induction blocks with
  | nil => rfl
  | cons n blocks ih => rw [List.flatMap_cons, scan_append_of_scan (scan_closed n), ih]

/-- Extending a word of the protocol by one allowed mark gives a word of the protocol. -/
theorem WellBracketed.snoc {word : List Mark} {isOpen isOpen' : Bool} {mark : Mark}
    (h : WellBracketed word isOpen)
    (hnext : next isOpen mark = some isOpen') : WellBracketed (word ++ [mark]) isOpen' := by
  obtain ⟨blocks, n, rfl⟩ := h
  cases isOpen <;> cases mark <;> simp only [next, reduceCtorEq, Option.some.injEq] at hnext
    <;> subst hnext
  · exact ⟨blocks, 0, by simp [unfinished]⟩
  · refine ⟨blocks, n + 1, ?_⟩
    simp only [if_true, unfinished, List.append_assoc, List.cons_append, List.replicate_succ']
  · refine ⟨blocks ++ [n], 0, ?_⟩
    simp [unfinished, closed, List.flatMap_append]

/-- **The automaton accepts exactly the protocol's words.** -/
theorem scan_eq_some_iff {word : List Mark} {isOpen : Bool} : scan false word = some isOpen ↔
    WellBracketed word isOpen := by
  constructor
  · intro h
    -- the last mark is the one that extends the language, so the induction goes from the right
    induction word using List.reverseRecOn generalizing isOpen with
    | nil =>
        cases h
        exact ⟨[], 0, rfl⟩
    | append_singleton word mark ih =>
        rw [scan_append, Option.bind_eq_some_iff] at h
        obtain ⟨mid, hword, hmark⟩ := h
        refine WellBracketed.snoc (ih hword) ?_
        rw [scan_cons] at hmark
        cases hnext : next mid mark with
        | none => rw [hnext] at hmark; cases hmark
        | some after => rw [hnext] at hmark; exact hmark
  · rintro ⟨blocks, n, rfl⟩
    rw [scan_append_of_scan (scan_flatMap_closed blocks)]
    cases isOpen
    · rfl
    · exact scan_unfinished n

/-- A disappearance the protocol allows comes while a block is open. -/
theorem isOpen_of_scan_removed {isOpen : Bool} {more : List Mark} {after : Bool}
    (h : scan isOpen (.removed :: more) = some after) : isOpen = true := by
  cases isOpen
  · cases h
  · rfl

/-- Added, and not removed since. -/
def Alive (word : List Mark) : Prop := (word.filter (· ≠ .changed)).getLast? = some .added

instance (word : List Mark) : Decidable (Alive word) := inferInstanceAs (Decidable (_ = _))

theorem alive_of_scan {word : List Mark} (h : scan false word = some true) : Alive word := by
  obtain ⟨blocks, n, rfl⟩ := scan_eq_some_iff.mp h
  have hlast : (unfinished n).filter (· ≠ .changed) = [.added] := by
    rw [unfinished, List.filter_cons_of_pos (by decide), List.filter_replicate_of_neg (by decide)]
  rw [Alive, if_pos rfl, List.filter_append, hlast, List.getLast?_concat]

end Blocks

end ArmOd
