import Mathlib

/-!
# Files in numbered slots

Contents under names, with the two calls that move them: removing a file, and renaming it to a name
that is free. The files of a rotation stand in slots, of which the first is the current one. The
contents move up by one slot, from the last one down, and the rotation ends at the first call that
fails. What it does where no call fails is said slot by slot (`Rotated`); what it keeps in any case
is counted (`entries`).
-/

namespace ArmOd

/-- The contents of the files there are. -/
abbrev Files (ν κ : Type) := ν → Option κ

namespace Files

variable {ν κ : Type} [DecidableEq ν]

def remove (files : Files ν κ) (n : ν) : Files ν κ := Function.update files n none

/-- The file gets a name that no file has. -/
def rename (files : Files ν κ) (source target : ν) : Option (Files ν κ) :=
  if (files source).isSome ∧ files target = none then
    some (Function.update (Function.update files source none) target (files source))
  else none

/-- The files in the slots from `i` to one move up, as far as the calls succeed. -/
def moveUp (slot : Nat → ν) (fails : ν → Bool) : Nat → Files ν κ → Files ν κ × Bool
  | 0, files => (files, true)
  | i + 1, files =>
    if (files (slot (i + 1))).isSome then
      match if fails (slot (i + 1)) then none else files.rename (slot (i + 1)) (slot (i + 2)) with
      | some files => moveUp slot fails i files
      | none => (files, false)
    else moveUp slot fails i files

/-- The last file is removed, the slots from `first` down move up, and the current file after
them. -/
def rotate (slot : Nat → ν) (fails : ν → Bool) (last : ν) (first : Nat) (files : Files ν κ) :
    Files ν κ × Bool :=
  if (files last).isSome ∧ fails last = true then (files, false)
  else
    match moveUp slot fails first (files.remove last) with
    | (files, false) => (files, false)
    | (files, true) =>
      match if fails (slot 0) then none else files.rename (slot 0) (slot 1) with
      | some files => (files, true)
      | none => (files, false)

/-- No call fails: the current file is there, and no file up to the slot `max` refuses. -/
def NoFailure (slot : Nat → ν) (fails : ν → Bool) (max : Nat) (files : Files ν κ) : Prop :=
  (files (slot 0)).isSome ∧ ∀ k ≤ max, (files (slot k)).isSome → fails (slot k) = false

/-- The contents have moved up from the current file to the slot `max`, whose content is dropped. -/
structure Rotated (slot : Nat → ν) (max : Nat) (files files' : Files ν κ) : Prop where
  next : ∀ k < max, files' (slot (k + 1)) = files (slot k)
  current : files' (slot 0) = none
  frame : ∀ n, (∀ k ≤ max, n ≠ slot k) → files' n = files n

variable {slot : Nat → ν} {fails : ν → Bool} {files files' : Files ν κ} {n source target : ν}
  {i j max : Nat}

/-! ### One call -/

theorem rename_eq_some (h : files.rename source target = some files') :
    files target = none ∧ (files source).isSome ∧ source ≠ target ∧ files' source = none ∧
      files' target = files source ∧ ∀ n, n ≠ source → n ≠ target → files' n = files n := by
  rw [rename] at h
  split at h
  · rename_i hfree
    obtain ⟨hsome, hnone⟩ := hfree
    have hne : source ≠ target := by
      rintro rfl
      rw [hnone] at hsome
      cases hsome
    obtain rfl := Option.some.inj h
    refine ⟨hnone, hsome, hne, ?_, Function.update_self .., fun n hsource htarget => ?_⟩
    · rw [Function.update_of_ne hne, Function.update_self]
    · rw [Function.update_of_ne htarget, Function.update_of_ne hsource]
  · cases h

theorem exists_rename (hsource : (files source).isSome) (htarget : files target = none) :
    ∃ files', files.rename source target = some files' := by
  rw [rename, if_pos ⟨hsource, htarget⟩]
  exact ⟨_, rfl⟩

/-! ### The slots that move up -/

/-- What happens at a slot: it is empty, it is moved, or the loop ends there. -/
theorem moveUp_succ (slot : Nat → ν) (fails : ν → Bool) (i : Nat) (files : Files ν κ) :
    (files (slot (i + 1)) = none ∧
      moveUp slot fails (i + 1) files = moveUp slot fails i files) ∨
    (∃ moved, fails (slot (i + 1)) = false ∧
      files.rename (slot (i + 1)) (slot (i + 2)) = some moved ∧
      moveUp slot fails (i + 1) files = moveUp slot fails i moved) ∨
    ((files (slot (i + 1))).isSome ∧
      (fails (slot (i + 1)) = false → files.rename (slot (i + 1)) (slot (i + 2)) = none) ∧
      moveUp slot fails (i + 1) files = (files, false)) := by
  rw [moveUp]
  cases hthere : files (slot (i + 1)) with
  | none => exact Or.inl ⟨rfl, rfl⟩
  | some content =>
      rw [Option.isSome_some, if_pos rfl]
      cases hfails : fails (slot (i + 1)) with
      | true => exact Or.inr (Or.inr ⟨rfl, nofun, rfl⟩)
      | false =>
          rw [if_neg Bool.false_ne_true]
          cases hmoved : files.rename (slot (i + 1)) (slot (i + 2)) with
          | none => exact Or.inr (Or.inr ⟨rfl, fun _ => rfl, rfl⟩)
          | some moved => exact Or.inr (Or.inl ⟨moved, rfl, rfl, rfl⟩)

/-- The contents of the slots from one to `i` have moved up. -/
structure MovedUp (slot : Nat → ν) (i : Nat) (files files' : Files ν κ) : Prop where
  next : ∀ k, 1 ≤ k → k ≤ i → files' (slot (k + 1)) = files (slot k)
  first : files' (slot 1) = none
  frame : ∀ n, (∀ k, 1 ≤ k → k ≤ i + 1 → n ≠ slot k) → files' n = files n

/-- The slot above is empty when a slot is moved, so that nothing is in the way. -/
theorem movedUp_moveUp (hinj : Function.Injective slot) (hempty : files (slot (i + 1)) = none)
    (hok : ∀ k, 1 ≤ k → k ≤ i → (files (slot k)).isSome → fails (slot k) = false) :
    (moveUp slot fails i files).2 = true ∧ MovedUp slot i files (moveUp slot fails i files).1 := by
  induction i generalizing files with
  | zero =>
      exact ⟨rfl, fun k hk hle => absurd (hk.trans hle) (by decide), hempty, fun _ _ => rfl⟩
  | succ i ih =>
      rcases moveUp_succ slot fails i files with
        ⟨hleft, heq⟩ | ⟨moved, -, hmoved, heq⟩ | ⟨hthere, hfailed, -⟩
      · obtain ⟨hdone, hrest⟩ := ih hleft fun k hk hle => hok k hk (Nat.le_succ_of_le hle)
        rw [heq]
        refine ⟨hdone, fun k hk hle => ?_, hrest.first, fun n hn =>
          hrest.frame n fun j hj hle => hn j hj (Nat.le_succ_of_le hle)⟩
        rcases Nat.lt_or_eq_of_le hle with hlt | rfl
        · exact hrest.next k hk (Nat.le_of_lt_succ hlt)
        · rw [hrest.frame _ fun j _ hj => hinj.ne (by omega), hempty, hleft]
      · obtain ⟨-, -, hne, hleft, htaken, hothers⟩ := rename_eq_some hmoved
        have hsame : ∀ k, k ≤ i → moved (slot k) = files (slot k) := fun k hk =>
          hothers _ (hinj.ne (by omega)) (hinj.ne (by omega))
        obtain ⟨hdone, hrest⟩ := ih hleft fun k hk hle hsome =>
          hok k hk (Nat.le_succ_of_le hle) (hsame k hle ▸ hsome)
        rw [heq]
        refine ⟨hdone, fun k hk hle => ?_, hrest.first, fun n hn => ?_⟩
        · rcases Nat.lt_or_eq_of_le hle with hlt | rfl
          · rw [hrest.next k hk (Nat.le_of_lt_succ hlt), hsame k (Nat.le_of_lt_succ hlt)]
          · rw [hrest.frame _ fun j _ hj => hinj.ne (by omega), htaken]
        · rw [hrest.frame n fun j hj hle => hn j hj (Nat.le_succ_of_le hle)]
          exact hothers n (hn _ (by omega) (by omega)) (hn _ (by omega) (by omega))
      · obtain ⟨moved, hmoved⟩ := exists_rename hthere hempty
        rw [hfailed (hok (i + 1) (by omega) le_rfl hthere)] at hmoved
        cases hmoved

/-- Whatever fails, the other files are not touched. -/
theorem moveUp_frame (hn : ∀ k, 1 ≤ k → k ≤ i + 1 → n ≠ slot k) :
    (moveUp slot fails i files).1 n = files n := by
  induction i generalizing files with
  | zero => rfl
  | succ i ih =>
      have hrest : ∀ k, 1 ≤ k → k ≤ i + 1 → n ≠ slot k := fun k hk hle =>
        hn k hk (Nat.le_succ_of_le hle)
      rcases moveUp_succ slot fails i files with
        ⟨-, heq⟩ | ⟨moved, -, hmoved, heq⟩ | ⟨-, -, heq⟩
      · rw [heq, ih hrest]
      · obtain ⟨-, -, -, -, -, hothers⟩ := rename_eq_some hmoved
        rw [heq, ih hrest, hothers n (hn _ (by omega) (by omega)) (hn _ (by omega) (by omega))]
      · rw [heq]

theorem fails_of_moveUp (hinj : Function.Injective slot)
    (h : (moveUp slot fails i files).2 = true) :
    ∀ k, 1 ≤ k → k ≤ i → (files (slot k)).isSome → fails (slot k) = false := by
  induction i generalizing files with
  | zero => exact fun k hk hle => absurd (hk.trans hle) (by decide)
  | succ i ih =>
      intro k hk hle hsome
      rcases moveUp_succ slot fails i files with
        ⟨hleft, heq⟩ | ⟨moved, hfails, hmoved, heq⟩ | ⟨-, -, heq⟩
      · rw [heq] at h
        rcases Nat.lt_or_eq_of_le hle with hlt | rfl
        · exact ih h k hk (Nat.le_of_lt_succ hlt) hsome
        · rw [hleft] at hsome
          cases hsome
      · rw [heq] at h
        rcases Nat.lt_or_eq_of_le hle with hlt | rfl
        · obtain ⟨-, -, -, -, -, hothers⟩ := rename_eq_some hmoved
          have hsame : moved (slot k) = files (slot k) :=
            hothers _ (hinj.ne (by omega)) (hinj.ne (by omega))
          exact ih h k hk (Nat.le_of_lt_succ hlt) (hsame ▸ hsome)
        · exact hfails
      · rw [heq] at h
        cases h

/-! ### The rotation -/

theorem remove_of_ne (h : n ≠ source) : files.remove source n = files n :=
  Function.update_of_ne h _ _

theorem moveUp_current (hinj : Function.Injective slot) :
    (moveUp slot fails i (files.remove (slot (i + 1)))).1 (slot 0) = files (slot 0) := by
  rw [moveUp_frame fun k hk _ => hinj.ne (by omega), remove_of_ne (hinj.ne (by omega))]

/-- The ways out of the rotation: nothing is done, the current file is not reached or not moved, or
it is moved after the others. -/
theorem rotate_cases (slot : Nat → ν) (fails : ν → Bool) (last : ν) (i : Nat)
    (files : Files ν κ) :
    ((files last).isSome ∧ fails last = true ∧ rotate slot fails last i files = (files, false)) ∨
    (((files last).isSome → fails last = false) ∧
      ((moveUp slot fails i (files.remove last)).2 = true → fails (slot 0) = false →
        (moveUp slot fails i (files.remove last)).1.rename (slot 0) (slot 1) = none) ∧
      rotate slot fails last i files = ((moveUp slot fails i (files.remove last)).1, false)) ∨
    (∃ files', ((files last).isSome → fails last = false) ∧
      (moveUp slot fails i (files.remove last)).2 = true ∧ fails (slot 0) = false ∧
      (moveUp slot fails i (files.remove last)).1.rename (slot 0) (slot 1) = some files' ∧
      rotate slot fails last i files = (files', true)) := by
  rw [rotate]
  by_cases hguard : (files last).isSome ∧ fails last = true
  · exact Or.inl ⟨hguard.1, hguard.2, if_pos hguard⟩
  · have hremoved : (files last).isSome → fails last = false := fun hsome =>
      Bool.eq_false_iff.mpr fun hfails => hguard ⟨hsome, hfails⟩
    rw [if_neg hguard]
    obtain ⟨⟨moved, done⟩, hmove⟩ :
      ∃ answer, moveUp slot fails i (files.remove last) = answer := ⟨_, rfl⟩
    rw [hmove]
    cases done with
    | false => exact Or.inr (Or.inl ⟨hremoved, nofun, rfl⟩)
    | true =>
        dsimp only
        cases hfails : fails (slot 0) with
        | true => exact Or.inr (Or.inl ⟨hremoved, nofun, rfl⟩)
        | false =>
            rw [if_neg Bool.false_ne_true]
            cases hrename : moved.rename (slot 0) (slot 1) with
            | none => exact Or.inr (Or.inl ⟨hremoved, fun _ _ => rfl, rfl⟩)
            | some files' => exact Or.inr (Or.inr ⟨files', hremoved, rfl, rfl, rfl, rfl⟩)

/-- **The rotation without a failure.** -/
theorem rotated_rotate (hinj : Function.Injective slot) (h : NoFailure slot fails (i + 1) files) :
    (rotate slot fails (slot (i + 1)) i files).2 = true ∧
      Rotated slot (i + 1) files (rotate slot fails (slot (i + 1)) i files).1 := by
  obtain ⟨hcurrent, hok⟩ := h
  have hremoved : ∀ k ≤ i, files.remove (slot (i + 1)) (slot k) = files (slot k) := fun k hk =>
    remove_of_ne (hinj.ne (by omega))
  obtain ⟨hdone, hmoved⟩ := @movedUp_moveUp _ _ _ slot fails (files.remove (slot (i + 1))) i hinj
    (Function.update_self ..) fun k _ hk hsome =>
      hok k (Nat.le_succ_of_le hk) (hremoved k hk ▸ hsome)
  have hzero := @moveUp_current _ _ _ slot fails files i hinj
  rcases rotate_cases slot fails (slot (i + 1)) i files with
    ⟨hsome, hfails, -⟩ | ⟨-, hfailed, -⟩ | ⟨files', -, -, -, hrename, heq⟩
  · exact absurd ((hok _ le_rfl hsome).symm.trans hfails) Bool.false_ne_true
  · obtain ⟨files', hrename⟩ := exists_rename (hzero ▸ hcurrent) hmoved.first
    rw [hfailed hdone (hok 0 (Nat.zero_le _) hcurrent)] at hrename
    cases hrename
  · obtain ⟨-, -, -, hleft, htaken, hothers⟩ := rename_eq_some hrename
    rw [heq]
    refine ⟨rfl, fun k hk => ?_, hleft, fun n hn => ?_⟩
    · rcases Nat.eq_zero_or_pos k with rfl | hpos
      · exact htaken.trans hzero
      · have hother := hothers (slot (k + 1)) (hinj.ne (by omega)) (hinj.ne (by omega))
        have hnext := hmoved.next k hpos (Nat.le_of_lt_succ hk)
        exact hother.trans (hnext.trans (hremoved k (Nat.le_of_lt_succ hk)))
    · dsimp only
      rw [hothers n (hn 0 (Nat.zero_le _)) (hn 1 (by omega)),
        hmoved.frame n fun k _ hk => hn k hk, remove_of_ne (hn _ le_rfl)]

theorem rotate_frame (hn : ∀ k ≤ i + 1, n ≠ slot k) :
    (rotate slot fails (slot (i + 1)) i files).1 n = files n := by
  have hmoved : (moveUp slot fails i (files.remove (slot (i + 1)))).1 n = files n := by
    rw [moveUp_frame fun k _ hk => hn k hk, remove_of_ne (hn _ le_rfl)]
  rcases rotate_cases slot fails (slot (i + 1)) i files with
    ⟨-, -, heq⟩ | ⟨-, -, heq⟩ | ⟨files', -, -, -, hrename, heq⟩
  · rw [heq]
  · rw [heq, hmoved]
  · obtain ⟨-, -, -, -, -, hothers⟩ := rename_eq_some hrename
    rw [heq]
    exact (hothers n (hn 0 (Nat.zero_le _)) (hn 1 (by omega))).trans hmoved

theorem noFailure_of_rotate (hinj : Function.Injective slot)
    (h : (rotate slot fails (slot (i + 1)) i files).2 = true) :
    NoFailure slot fails (i + 1) files := by
  have hremoved : ∀ k ≤ i, files.remove (slot (i + 1)) (slot k) = files (slot k) := fun k hk =>
    remove_of_ne (hinj.ne (by omega))
  rcases rotate_cases slot fails (slot (i + 1)) i files with
    ⟨-, -, heq⟩ | ⟨-, -, heq⟩ | ⟨files', hlast, hdone, hcurrent, hrename, -⟩
  · rw [heq] at h
    cases h
  · rw [heq] at h
    cases h
  · obtain ⟨-, hthere, -⟩ := rename_eq_some hrename
    rw [moveUp_current hinj] at hthere
    refine ⟨hthere, fun k hk hsome => ?_⟩
    rcases Nat.lt_or_eq_of_le hk with hlt | rfl
    · rcases Nat.eq_zero_or_pos k with rfl | hpos
      · exact hcurrent
      · have hle := Nat.le_of_lt_succ hlt
        exact fails_of_moveUp hinj hdone k hpos hle ((hremoved k hle).symm ▸ hsome)
    · exact hlast hsome

theorem current_rotate (hinj : Function.Injective slot)
    (h : (rotate slot fails (slot (i + 1)) i files).2 = false) :
    (rotate slot fails (slot (i + 1)) i files).1 (slot 0) = files (slot 0) := by
  rcases rotate_cases slot fails (slot (i + 1)) i files with
    ⟨-, -, heq⟩ | ⟨-, -, heq⟩ | ⟨files', -, -, -, -, heq⟩
  · rw [heq]
  · rw [heq, moveUp_current hinj]
  · rw [heq] at h
    cases h

/-! ### What the files hold -/

section

variable {β : Type} {files files' : Files ν (List β)}

/-- What is in a file. -/
def content (files : Files ν (List β)) (n : ν) : Multiset β := ((files n).getD [] : List β)

/-- What is in the files of the slots up to `max`. -/
def entries (slot : Nat → ν) (max : Nat) (files : Files ν (List β)) : Multiset β :=
  ∑ k ∈ Finset.range (max + 1), files.content (slot k)

omit [DecidableEq ν] in
theorem content_congr (h : files n = files' n) : files.content n = files'.content n := by
  rw [content, content, h]

/-- Renaming exchanges a file with an empty one. -/
theorem entries_rename (hinj : Function.Injective slot) (hi : i ≤ max) (hj : j ≤ max)
    (h : files.rename (slot i) (slot j) = some files') :
    entries slot max files' = entries slot max files := by
  obtain ⟨hnone, -, hne, hsource, htarget, hothers⟩ := rename_eq_some h
  have hswap : ∀ k, files'.content (slot k) = files.content (slot (Equiv.swap i j k)) := by
    intro k
    by_cases hki : k = i
    · rw [hki, Equiv.swap_apply_left, content, content, hsource, hnone]
    · by_cases hkj : k = j
      · rw [hkj, Equiv.swap_apply_right, content, content, htarget]
      · rw [Equiv.swap_apply_of_ne_of_ne hki hkj, content, content,
          hothers _ (hinj.ne hki) (hinj.ne hkj)]
  rw [entries, entries, Finset.sum_congr rfl fun k _ => hswap k]
  refine (Equiv.swap i j).sum_comp (Finset.range (max + 1))
    (fun k => files.content (slot k)) fun k hk => ?_
  rw [Finset.coe_range, Set.mem_Iio]
  by_contra hlt
  exact hk (Equiv.swap_apply_of_ne_of_ne (by omega) (by omega))

theorem entries_moveUp (hinj : Function.Injective slot) (hi : i + 1 ≤ max) :
    entries slot max (moveUp slot fails i files).1 = entries slot max files := by
  induction i generalizing files with
  | zero => rfl
  | succ i ih =>
      rcases moveUp_succ slot fails i files with
        ⟨-, heq⟩ | ⟨moved, -, hmoved, heq⟩ | ⟨-, -, heq⟩
      · rw [heq, ih (by omega)]
      · rw [heq, ih (by omega), entries_rename hinj (by omega) hi hmoved]
      · rw [heq]

theorem entries_remove (hinj : Function.Injective slot) :
    entries slot max files =
      entries slot max (files.remove (slot max)) + files.content (slot max) := by
  have hlast : (files.remove (slot max)).content (slot max) = 0 := by
    rw [content, remove, Function.update_self]
    rfl
  have hothers : ∀ k ∈ Finset.range max,
      (files.remove (slot max)).content (slot k) = files.content (slot k) := fun k hk =>
    content_congr (remove_of_ne (hinj.ne (Nat.ne_of_lt (Finset.mem_range.mp hk))))
  rw [entries, entries, Finset.sum_range_succ, Finset.sum_range_succ, Finset.sum_congr rfl hothers,
    hlast, add_zero]

theorem entries_clear (hinj : Function.Injective slot) : entries slot max files =
    entries slot max (Function.update files (slot 0) (some [])) + files.content (slot 0) := by
  have hcleared : content (Function.update files (slot 0) (some [])) (slot 0) = 0 := by
    rw [content, Function.update_self]
    rfl
  have hothers : ∀ k ∈ Finset.range max,
      content (Function.update files (slot 0) (some [])) (slot (k + 1)) =
        files.content (slot (k + 1)) := fun k _ =>
    content_congr (Function.update_of_ne (hinj.ne (Nat.succ_ne_zero k)) _ _)
  rw [entries, entries, Finset.sum_range_succ', Finset.sum_range_succ',
    Finset.sum_congr rfl hothers, hcleared, add_zero]

/-- **Nothing is lost in the rotation** but the file that is removed. -/
theorem entries_rotate (hinj : Function.Injective slot) :
    entries slot (i + 1) files = entries slot (i + 1) (rotate slot fails (slot (i + 1)) i files).1 +
      if fails (slot (i + 1)) then 0 else files.content (slot (i + 1)) := by
  have hdropped : ((files (slot (i + 1))).isSome → fails (slot (i + 1)) = false) →
      (if fails (slot (i + 1)) then 0 else files.content (slot (i + 1))) =
        files.content (slot (i + 1)) := by
    intro hremoved
    cases hthere : files (slot (i + 1)) with
    | none =>
        rw [content, hthere]
        exact ite_self _
    | some there => rw [hremoved (hthere ▸ rfl), if_neg Bool.false_ne_true]
  have hmoved := @entries_moveUp _ _ slot fails i (i + 1) _ (files.remove (slot (i + 1))) hinj
    le_rfl
  rcases rotate_cases slot fails (slot (i + 1)) i files with
    ⟨-, hfails, heq⟩ | ⟨hremoved, -, heq⟩ | ⟨files', hremoved, -, -, hrename, heq⟩
  · rw [heq, if_pos hfails, add_zero]
  · rw [heq, hdropped hremoved, hmoved, ← entries_remove hinj]
  · rw [heq, hdropped hremoved, entries_rename hinj (Nat.zero_le _) (by omega) hrename, hmoved,
      ← entries_remove hinj]

end

end Files

end ArmOd
