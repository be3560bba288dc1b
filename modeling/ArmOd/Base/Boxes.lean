import Mathlib

/-!
# Boxes that are checked and unchecked

A sequence of actions checks and unchecks boxes. `lastChecked` is what a box shows, the last thing
done to it. A program may keep a list instead: checking appends, so that a box checked twice stands
there twice, and unchecking takes out every copy. The two agree on which boxes are there.
-/

namespace ArmOd

namespace Boxes

universe u

variable {α : Type u} [DecidableEq α]

/-- Whether the last action on the box was a check. -/
def lastChecked (actions : List (α × Bool)) (a : α) : Bool :=
  ((actions.filter fun action => action.1 = a).getLast?.map Prod.snd).getD false

/-- One action on the list. -/
def step (held : List α) (action : α × Bool) : List α :=
  if action.2 then held ++ [action.1] else held.filter (· ≠ action.1)

def held (actions : List (α × Bool)) : List α := actions.foldl step []

theorem held_concat (actions : List (α × Bool)) (action : α × Bool) :
    held (actions ++ [action]) = step (held actions) action := by
  rw [held, List.foldl_append]
  rfl

theorem lastChecked_concat (actions : List (α × Bool)) (action : α × Bool) (a : α) :
    lastChecked (actions ++ [action]) a =
      if action.1 = a then action.2 else lastChecked actions a := by
  rw [lastChecked, List.filter_append]
  by_cases ha : action.1 = a
  · rw [if_pos ha, List.filter_cons_of_pos (by simpa using ha), List.getLast?_append]
    rfl
  · rw [if_neg ha, List.filter_cons_of_neg (by simpa using ha), List.filter_nil, List.append_nil]
    rfl

theorem mem_step {held : List α} {action : α × Bool} {a : α} :
    a ∈ step held action ↔ if action.1 = a then action.2 = true else a ∈ held := by
  obtain ⟨box, checked⟩ := action
  by_cases ha : a = box
  · subst ha
    cases checked <;> simp [step]
  · cases checked <;> simp [step, ha, Ne.symm ha]

/-- **The list holds what is checked.** -/
theorem mem_held_iff (actions : List (α × Bool)) (a : α) :
    a ∈ held actions ↔ lastChecked actions a = true := by
  induction actions using List.reverseRecOn with
  | nil => exact ⟨fun h => absurd h List.not_mem_nil, fun h => absurd h Bool.noConfusion⟩
  | append_singleton actions action ih =>
      rw [held_concat, lastChecked_concat, mem_step]
      split
      · rfl
      · exact ih

end Boxes

end ArmOd
