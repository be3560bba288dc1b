import Mathlib

/-!
# Ledgers

A ledger numbers the elements as they enter, and lists those that have not left since. An element
leaves by its key, and no two elements on the ledger have one key. A program may keep such a list
under other names and strike the first entry that passes a test: that is the right entry exactly
when the entry passes it and no entry in front of it does.
-/

namespace ArmOd

variable {α κ β : Type}

structure Ledger (α : Type) where
  count : Nat := 0
  present : List (Nat × α) := []

namespace Ledger

def enter (a : α) (ledger : Ledger α) : Ledger α :=
  { count := ledger.count + 1, present := ledger.present ++ [(ledger.count, a)] }

def leave [DecidableEq κ] (key : α → κ) (k : κ) (ledger : Ledger α) : Ledger α :=
  { ledger with present := ledger.present.filter fun p => key p.2 ≠ k }

/-- The first entry that passes a test is struck. -/
def strikeFirst (test : Nat × α → Bool) (entries : List (Nat × α)) : List (Nat × α) :=
  match entries.find? test with
  | some p => entries.filter fun q => q.1 ≠ p.1
  | none => entries

theorem map_strikeFirst (f : Nat × α → Nat × β) (hf : ∀ p, (f p).1 = p.1) (test : Nat × β → Bool)
    (entries : List (Nat × α)) : (strikeFirst (fun p => test (f p)) entries).map f =
      strikeFirst test (entries.map f) := by
  rw [strikeFirst, strikeFirst, List.find?_map]
  cases hfind : entries.find? (test ∘ f) with
  | none =>
      have hnone : entries.find? (fun p => test (f p)) = none := hfind
      rw [hnone]
      rfl
  | some p =>
      have hsome : entries.find? (fun p => test (f p)) = some p := hfind
      rw [hsome, Option.map_some]
      dsimp only
      rw [List.filter_map]
      refine congrArg (List.map f) (List.filter_congr fun q _ => ?_)
      rw [Function.comp_apply, hf, hf]

/-- The entries stand in the order of their numbers, each under a key of its own. -/
structure Orderly (key : α → κ) (ledger : Ledger α) : Prop where
  sorted : ledger.present.Pairwise fun p q => p.1 < q.1
  below : ∀ p ∈ ledger.present, p.1 < ledger.count
  distinct : (ledger.present.map fun p => key p.2).Nodup

namespace Orderly

variable {key : α → κ} {ledger : Ledger α} {a : α} {k : κ} {p q : Nat × α}

theorem empty : Orderly key ({} : Ledger α) :=
  ⟨List.Pairwise.nil, fun _ hp => absurd hp List.not_mem_nil, List.nodup_nil⟩

theorem enter (h : ledger.Orderly key) (hnew : ∀ p ∈ ledger.present, key p.2 ≠ key a) :
    (ledger.enter a).Orderly key where
  sorted := by
    refine List.pairwise_append.mpr ⟨h.sorted, List.pairwise_singleton _ _, fun p hp q hq => ?_⟩
    rw [List.mem_singleton.mp hq]
    exact h.below p hp
  below := by
    intro p hp
    rcases List.mem_append.mp hp with hold | hlast
    · exact (h.below p hold).trans (Nat.lt_succ_self _)
    · rw [List.mem_singleton.mp hlast]
      exact Nat.lt_succ_self _
  distinct := by
    rw [Ledger.enter, List.map_append, List.nodup_append]
    refine ⟨h.distinct, List.nodup_singleton _, fun k hk l hl => ?_⟩
    obtain ⟨p, hp, rfl⟩ := List.mem_map.mp hk
    rw [List.mem_singleton.mp hl]
    exact hnew p hp

theorem eq_of_key (h : ledger.Orderly key) (hp : p ∈ ledger.present) (hq : q ∈ ledger.present)
    (heq : key p.2 = key q.2) : p = q :=
  List.inj_on_of_nodup_map h.distinct hp hq heq

theorem eq_of_number (h : ledger.Orderly key) (hp : p ∈ ledger.present)
    (hq : q ∈ ledger.present) (heq : p.1 = q.1) : p = q := by
  have hnumbers : (ledger.present.map Prod.fst).Nodup :=
    List.pairwise_map.mpr (h.sorted.imp fun hlt => hlt.ne)
  exact List.inj_on_of_nodup_map hnumbers hp hq heq

theorem find?_eq_some_iff (h : ledger.Orderly key) (hp : p ∈ ledger.present)
    (test : Nat × α → Bool) : ledger.present.find? test = some p ↔
      test p = true ∧ ∀ q ∈ ledger.present, test q = true → p.1 ≤ q.1 := by
  rw [List.find?_eq_some_iff_append]
  refine and_congr_right fun _ => ?_
  constructor
  · intro hsplit q hq htest
    obtain ⟨front, back, heq, hfront⟩ := hsplit
    have hsorted := h.sorted
    rw [heq] at hq hsorted
    rcases List.mem_append.mp hq with hbefore | hrest
    · have hfails := hfront q hbefore
      rw [htest] at hfails
      cases hfails
    · rcases List.mem_cons.mp hrest with rfl | hafter
      · exact le_rfl
      · have hsuffix := (List.pairwise_append.mp hsorted).2.1
        exact ((List.pairwise_cons.mp hsuffix).1 q hafter).le
  · intro hfirst
    obtain ⟨front, back, heq⟩ := List.append_of_mem hp
    refine ⟨front, back, heq, fun q hq => ?_⟩
    have hsorted := h.sorted
    rw [heq] at hsorted
    have hlt := (List.pairwise_append.mp hsorted).2.2 q hq p List.mem_cons_self
    have hmem : q ∈ ledger.present := heq ▸ List.mem_append_left _ hq
    cases htest : test q with
    | false => rfl
    | true => exact absurd (hfirst q hmem htest) (not_le.mpr hlt)

/-! ### Leaving -/

variable [DecidableEq κ]

theorem leave (h : ledger.Orderly key) (k : κ) : (ledger.leave key k).Orderly key where
  sorted := h.sorted.filter _
  below := fun p hp => h.below p (List.mem_filter.mp hp).1
  distinct := h.distinct.sublist (List.filter_sublist.map _)

/-- An entry leaves by its key as it does by its number. -/
theorem present_leave (h : ledger.Orderly key) (hp : p ∈ ledger.present) :
    (ledger.leave key (key p.2)).present = ledger.present.filter fun q => q.1 ≠ p.1 := by
  refine List.filter_congr fun q hq => decide_eq_decide.mpr (not_congr ?_)
  constructor
  · exact fun heq => congrArg Prod.fst (h.eq_of_key hq hp heq)
  · exact fun heq => congrArg (fun p => key p.2) (h.eq_of_number hq hp heq)

theorem strikeFirst_of_find? {test : Nat × α → Bool} (h : ledger.Orderly key)
    (hp : p ∈ ledger.present) (hfind : ledger.present.find? test = some p) :
    strikeFirst test ledger.present = (ledger.leave key (key p.2)).present := by
  rw [strikeFirst, hfind, h.present_leave hp]

/-- Striking another entry, or none, leaves an entry that should have left. -/
theorem not_perm_strikeFirst {test : Nat × α → Bool} {tell : Nat × α → β}
    (htell : ∀ p q, tell p = tell q → p.1 = q.1) (h : ledger.Orderly key)
    (hp : p ∈ ledger.present) (hfind : ledger.present.find? test ≠ some p) :
    ¬((strikeFirst test ledger.present).map tell).Perm
      ((ledger.leave key (key p.2)).present.map tell) := by
  intro hperm
  have hstays : p ∈ strikeFirst test ledger.present := by
    rw [strikeFirst]
    split
    · rename_i q hq
      refine List.mem_filter.mpr ⟨hp, decide_eq_true fun heq => hfind ?_⟩
      rw [hq, h.eq_of_number hp (List.mem_of_find?_eq_some hq) heq]
    · exact hp
  obtain ⟨q, hq, heq⟩ := List.mem_map.mp (hperm.mem_iff.mp (List.mem_map_of_mem hstays))
  rw [h.present_leave hp] at hq
  exact of_decide_eq_true (List.mem_filter.mp hq).2 (htell q p heq)

end Orderly

end Ledger

end ArmOd
