import Mathlib

/-!
# The latest of every key

The elements of a list that no later element with the same key follows. They are what is left in a
map that the elements are inserted into one after the other, each under its key. Where all of them
are written to one place, the last is left.
-/

namespace ArmOd

section Overwrites

variable {α β : Type}

/-- A value that every matching element overwrites is left by the last of them. -/
theorem foldl_overwrite (p : α → Bool) (f : α → β) (as : List α) (b : β) :
    as.foldl (fun b a => if p a then f a else b) b =
      ((as.filter p).getLast?.map f).getD b := by
  induction as using List.reverseRecOn with
  | nil => rfl
  | append_singleton as a ih =>
      rw [List.foldl_concat, List.filter_append]
      by_cases ha : p a
      · rw [if_pos ha, List.filter_cons_of_pos ha, List.filter_nil, List.getLast?_concat]
        rfl
      · rw [if_neg ha, List.filter_cons_of_neg ha, List.filter_nil, List.append_nil, ih]

end Overwrites

variable {α κ β : Type} [DecidableEq κ]

/-- The elements that no element with the same key follows. -/
def latest (key : α → κ) : List α → List α
  | [] => []
  | a :: as => if as.any fun b => key b = key a then latest key as else a :: latest key as

variable {key : α → κ} {as : List α} {a b : α} {k : κ}

theorem latest_concat (key : α → κ) (as : List α) (a : α) :
    latest key (as ++ [a]) = (latest key as).filter (fun b => key b ≠ key a) ++ [a] := by
  induction as with
  | nil => rfl
  | cons b as ih =>
      rw [List.cons_append, latest, latest, ih]
      by_cases hlater : as.any fun c => key c = key b
      · rw [if_pos (by rw [List.any_append, hlater, Bool.true_or]), if_pos hlater]
      · rw [if_neg hlater]
        by_cases hlast : key a = key b
        · rw [if_pos (by simp [hlast]), List.filter_cons_of_neg (by simp [hlast])]
        · have hnone : ¬(as ++ [a]).any fun c => key c = key b := by
            rw [List.any_append, Bool.eq_false_iff.mpr hlater]
            simpa using hlast
          rw [if_neg hnone, List.filter_cons_of_pos (by simpa using Ne.symm hlast),
            List.cons_append]

theorem mem_latest_concat :
    b ∈ latest key (as ++ [a]) ↔ b = a ∨ b ∈ latest key as ∧ key b ≠ key a := by
  rw [latest_concat, List.mem_append, List.mem_filter, List.mem_singleton, decide_eq_true_iff,
    or_comm]

theorem mem_of_mem_latest (h : b ∈ latest key as) : b ∈ as := by
  induction as using List.reverseRecOn with
  | nil => exact h
  | append_singleton as a ih =>
      rcases mem_latest_concat.mp h with rfl | ⟨hold, -⟩
      · exact List.mem_concat_self
      · exact List.mem_append_left _ (ih hold)

theorem exists_mem_latest (key : α → κ) (h : b ∈ as) : ∃ a ∈ latest key as, key a = key b := by
  induction as using List.reverseRecOn with
  | nil => cases h
  | append_singleton as a ih =>
      by_cases hkey : key a = key b
      · exact ⟨a, mem_latest_concat.mpr (Or.inl rfl), hkey⟩
      · rcases List.mem_append.mp h with hold | hnew
        · obtain ⟨c, hc, heq⟩ := ih hold
          exact ⟨c, mem_latest_concat.mpr (Or.inr ⟨hc, heq.trans_ne (Ne.symm hkey)⟩), heq⟩
        · exact absurd (congrArg key (List.mem_singleton.mp hnew).symm) hkey

theorem latest_map (key : β → κ) (f : α → β) (as : List α) :
    latest key (as.map f) = (latest (fun a => key (f a)) as).map f := by
  induction as with
  | nil => rfl
  | cons a as ih =>
      rw [List.map_cons, latest, latest, ih, List.any_map]
      split
      · rename_i hlater
        rw [if_pos (by exact hlater)]
      · rename_i hlast
        rw [if_neg (by exact hlast), List.map_cons]

theorem latest_of_nodup (h : (as.map key).Nodup) : latest key as = as := by
  induction as with
  | nil => rfl
  | cons a as ih =>
      obtain ⟨hnew, hrest⟩ := List.nodup_cons.mp h
      have hlast : ¬as.any fun b => key b = key a := by
        rw [List.any_eq_true]
        rintro ⟨b, hb, heq⟩
        exact hnew (of_decide_eq_true heq ▸ List.mem_map_of_mem hb)
      rw [latest, if_neg hlast, ih hrest]

/-- The latest of a coarser key is the latest of a finer one. -/
theorem mem_latest_of_finer {κ' : Type} [DecidableEq κ'] {key' : α → κ'}
    (h : ∀ a b, key' a = key' b → key a = key b) (hb : b ∈ latest key as) :
    b ∈ latest key' as := by
  induction as using List.reverseRecOn with
  | nil => exact hb
  | append_singleton as a ih =>
      rcases mem_latest_concat.mp hb with rfl | ⟨hold, hne⟩
      · exact mem_latest_concat.mpr (Or.inl rfl)
      · exact mem_latest_concat.mpr (Or.inr ⟨ih hold, fun heq => hne (h _ _ heq)⟩)

theorem nodup_map_latest : ((latest key as).map key).Nodup := by
  induction as using List.reverseRecOn with
  | nil => exact List.nodup_nil
  | append_singleton as a ih =>
      rw [latest_concat, List.map_append, List.map_singleton, List.nodup_append]
      refine ⟨ih.sublist ((List.filter_sublist).map key), List.nodup_singleton _, ?_⟩
      intro k hk l hl
      obtain ⟨c, hc, rfl⟩ := List.mem_map.mp hk
      rw [List.mem_singleton.mp hl]
      exact of_decide_eq_true (List.mem_filter.mp hc).2

/-! ### The map -/

variable [Ord κ] [Std.TransOrd κ] [Std.LawfulEqOrd κ] {f : α → β} {m : Std.TreeMap κ β compare}

/-- Every element is inserted under its key. -/
def insertAll (key : α → κ) (f : α → β) (as : List α) (m : Std.TreeMap κ β compare) :
    Std.TreeMap κ β compare :=
  as.foldl (fun m a => m.insert (key a) (f a)) m

theorem getElem?_insertAll_of_mem (h : a ∈ latest key as) :
    (insertAll key f as m)[key a]? = some (f a) := by
  induction as using List.reverseRecOn with
  | nil => cases h
  | append_singleton as b ih =>
      rw [insertAll, List.foldl_concat, Std.TreeMap.getElem?_insert]
      rcases mem_latest_concat.mp h with rfl | ⟨hold, hne⟩
      · rw [if_pos (Std.compare_eq_iff_eq.mpr rfl)]
      · rw [if_neg fun heq => hne (Std.compare_eq_iff_eq.mp heq).symm]
        exact ih hold

theorem exists_of_mem_insertAll (h : k ∈ insertAll key f as ∅) :
    ∃ a ∈ latest key as, key a = k := by
  induction as using List.reverseRecOn with
  | nil => exact absurd h Std.TreeMap.not_mem_emptyc
  | append_singleton as b ih =>
      by_cases hk : key b = k
      · exact ⟨b, mem_latest_concat.mpr (Or.inl rfl), hk⟩
      · rw [insertAll, List.foldl_concat, Std.TreeMap.mem_insert, Std.compare_eq_iff_eq] at h
        obtain ⟨a, ha, heq⟩ := ih (h.resolve_left hk)
        exact ⟨a, mem_latest_concat.mpr (Or.inr ⟨ha, heq.trans_ne (Ne.symm hk)⟩), heq⟩

theorem perm_insertAll (key : α → κ) (f : α → β) (as : List α) :
    (insertAll key f as ∅).toList.Perm ((latest key as).map fun a => (key a, f a)) := by
  have hmap : (insertAll key f as ∅).toList.Nodup := by
    refine List.Nodup.of_map Prod.fst ?_
    rw [Std.TreeMap.map_fst_toList_eq_keys]
    exact Std.TreeMap.nodup_keys
  have hlatest : ((latest key as).map fun a => (key a, f a)).Nodup := by
    refine List.Nodup.of_map Prod.fst ?_
    rw [List.map_map]
    exact nodup_map_latest
  rw [List.perm_ext_iff_of_nodup hmap hlatest]
  intro p
  rw [Std.TreeMap.mem_toList_iff_getElem?_eq_some, List.mem_map]
  constructor
  · intro hp
    have hmem : p.1 ∈ insertAll key f as ∅ :=
      Std.TreeMap.mem_iff_isSome_getElem?.mpr (by rw [hp]; rfl)
    obtain ⟨a, ha, hkey⟩ := exists_of_mem_insertAll hmem
    rw [← hkey, getElem?_insertAll_of_mem ha] at hp
    exact ⟨a, ha, Prod.ext hkey (Option.some.inj hp)⟩
  · intro hp
    obtain ⟨a, ha, rfl⟩ := hp
    exact getElem?_insertAll_of_mem ha

end ArmOd
