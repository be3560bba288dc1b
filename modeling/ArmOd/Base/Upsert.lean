import ArmOd.Base.Latest
import ArmOd.Base.Table

/-!
# Inserting a row, or updating the one with its key

`INSERT ... ON DUPLICATE KEY UPDATE`, for any test of what a duplicate is. Where the duplicates are
the rows with one key, and the update puts the new row in the place of the old one, a table that was
empty holds the latest row of every key. A statement names columns and placeholders; it is run on
rows that are functions of their columns, and `upsert_map` carries what it does there over to rows
of any other kind.
-/

namespace ArmOd

namespace Table

variable {limit : Nat} {α β κ : Type} {t t' : Table limit α} {a : α} {id : Nat}

/-- The row is inserted, or the rows it is a duplicate of are updated. -/
def upsert (t : Table limit α) (same : α → Bool) (update : α → α) (a : α) :
    Option (Nat × Table limit α) :=
  match t.firstId same with
  | some id => some (id, t.modify same update)
  | none => t.insert a

/-! ### The latest rows -/

variable [DecidableEq κ] {key : α → κ}

/-- Where one element has the key, putting another one in its place moves it to the end. -/
theorem perm_replace {l : List α} (hnodup : (l.map key).Nodup) (hmem : key a ∈ l.map key) :
    (l.map fun b => if key b = key a then a else b).Perm
      (l.filter (fun b => key b ≠ key a) ++ [a]) := by
  induction l with
  | nil => cases hmem
  | cons b l ih =>
      obtain ⟨hb, hl⟩ := List.nodup_cons.mp hnodup
      rw [List.map_cons]
      by_cases hkey : key b = key a
      · have hother : ∀ c ∈ l, key c ≠ key a := fun c hc heq =>
          hb (hkey.trans heq.symm ▸ List.mem_map_of_mem hc)
        have hmap : l.map (fun c => if key c = key a then a else c) = l :=
          (List.map_congr_left fun c hc => if_neg (hother c hc)).trans (List.map_id' l)
        rw [if_pos hkey, hmap, List.filter_cons_of_neg (by simpa using hkey),
          List.filter_eq_self.mpr fun c hc => decide_eq_true (hother c hc)]
        exact (List.perm_append_singleton a l).symm
      · rw [if_neg hkey, List.filter_cons_of_pos (by simpa using hkey)]
        have hrest : key a ∈ l.map key := (List.mem_cons.mp hmem).resolve_left (Ne.symm hkey)
        exact (ih hl hrest).cons b

theorem map_snd_modify (p : α → Bool) (f : α → α) :
    (t.modify p f).rows.map Prod.snd = (t.rows.map Prod.snd).map fun a => if p a then f a else a := by
  rw [modify, List.map_map, List.map_map]
  rfl

/-- **A row more**: the table still holds the latest row of every key. -/
theorem rows_upsert {same : α → Bool} {as : List α} (hsame : ∀ b, same b = true ↔ key b = key a)
    (h : t.upsert same (fun _ => a) a = some (id, t'))
    (hrows : (t.rows.map Prod.snd).Perm (latest key as)) :
    (t'.rows.map Prod.snd).Perm (latest key (as ++ [a])) := by
  rw [latest_concat]
  rw [upsert] at h
  split at h
  · rename_i found hfirst
    cases h
    obtain ⟨old, hold, hmatch⟩ := firstId_eq_some hfirst
    have hmem : key a ∈ (t.rows.map Prod.snd).map key :=
      List.mem_map.mpr ⟨old, List.mem_map.mpr ⟨_, t.get?_eq_some_iff.mp hold, rfl⟩,
        (hsame old).mp hmatch⟩
    have hnodup : ((t.rows.map Prod.snd).map key).Nodup :=
      (hrows.map key).nodup_iff.mpr nodup_map_latest
    rw [map_snd_modify]
    have hif : ∀ b, (if same b = true then a else b) = if key b = key a then a else b :=
      fun b => if_congr (hsame b) rfl rfl
    rw [List.map_congr_left fun b _ => hif b]
    exact (perm_replace hnodup hmem).trans ((hrows.filter _).append_right [a])
  · rename_i hnone
    have hother : ∀ b ∈ t.rows.map Prod.snd, key b ≠ key a := by
      intro b hb heq
      obtain ⟨r, hr, rfl⟩ := List.mem_map.mp hb
      have hfalse := firstId_eq_none.mp hnone r hr
      rw [(hsame _).mpr heq] at hfalse
      cases hfalse
    rw [(insert_eq_some h).2, List.map_append, List.map_singleton]
    have hkept := hrows.filter fun b => key b ≠ key a
    rw [List.filter_eq_self.mpr fun b hb => decide_eq_true (hother b hb)] at hkept
    exact hkept.append_right [a]

/-! ### Rows of another kind -/

/-- Every row is replaced, under its key. -/
def map (f : α → β) (t : Table limit α) : Table limit β where
  rows := t.rows.map fun r => (r.1, f r.2)
  nextId := t.nextId
  sorted := List.pairwise_map.mpr t.sorted
  fresh := by
    intro r hr
    obtain ⟨r', hr', rfl⟩ := List.mem_map.mp hr
    exact t.fresh r' hr'
  positive := by
    intro r hr
    obtain ⟨r', hr', rfl⟩ := List.mem_map.mp hr
    exact t.positive r' hr'
  nextId_pos := t.nextId_pos
  bounded := t.bounded

theorem firstId_map (f : α → β) (p : β → Bool) :
    (t.map f).firstId p = t.firstId fun a => p (f a) := by
  rw [firstId, firstId, select, select, map, List.filter_map, List.head?_map, Option.map_map]
  rfl

theorem eq_of_rows (hrows : t.rows = t'.rows) (hnext : t.nextId = t'.nextId) : t = t' := by
  obtain ⟨rows, nextId⟩ := t
  obtain ⟨rows', nextId'⟩ := t'
  cases hrows
  cases hnext
  rfl

theorem insert_map (f : α → β) (t : Table limit α) (a : α) :
    (t.map f).insert (f a) = (t.insert a).map fun p => (p.1, p.2.map f) := by
  rw [insert, insert]
  by_cases h : t.nextId < limit
  · have hmap : (t.map f).nextId < limit := h
    rw [dif_pos h, dif_pos hmap, Option.map_some]
    refine congrArg some (Prod.ext rfl (eq_of_rows ?_ rfl))
    change t.rows.map (fun r => (r.1, f r.2)) ++ [(t.nextId, f a)] =
      (t.rows ++ [(t.nextId, a)]).map fun r => (r.1, f r.2)
    rw [List.map_append, List.map_singleton]
  · have hmap : ¬(t.map f).nextId < limit := h
    rw [dif_neg h, dif_neg hmap, Option.map_none]

theorem modify_map {f : α → β} {p : α → Bool} {p' : β → Bool} {g : α → α} {g' : β → β}
    (hp : ∀ b, p' (f b) = p b) (hg : ∀ b, p b = true → g' (f b) = f (g b)) (t : Table limit α) :
    (t.map f).modify p' g' = (t.modify p g).map f := by
  refine eq_of_rows ?_ rfl
  change (t.rows.map fun r => (r.1, f r.2)).map (fun r => (r.1, if p' r.2 then g' r.2 else r.2)) =
    (t.rows.map fun r => (r.1, if p r.2 then g r.2 else r.2)).map fun r => (r.1, f r.2)
  rw [List.map_map, List.map_map]
  refine List.map_congr_left fun r _ => Prod.ext rfl ?_
  change (if p' (f r.2) then g' (f r.2) else f r.2) = f (if p r.2 then g r.2 else r.2)
  rw [hp]
  cases hr : p r.2 with
  | true => rw [if_pos rfl, if_pos rfl, hg _ hr]
  | false => rw [if_neg Bool.false_ne_true, if_neg Bool.false_ne_true]

/-- What a statement does to rows of one kind it does to those of another kind they stand for. -/
theorem upsert_map {f : α → β} {same : α → Bool} {same' : β → Bool} {update : α → α}
    {update' : β → β} (hsame : ∀ b, same' (f b) = same b)
    (hupdate : ∀ b, same b = true → update' (f b) = f (update b)) (t : Table limit α) (a : α) :
    (t.map f).upsert same' update' (f a) =
      (t.upsert same update a).map fun p => (p.1, p.2.map f) := by
  rw [upsert, upsert, firstId_map, modify_map hsame hupdate, insert_map]
  have hfirst : (t.firstId fun b => same' (f b)) = t.firstId same :=
    congrArg t.firstId (funext hsame)
  rw [hfirst]
  cases t.firstId same <;> rfl

end Table

/-! ### Statements -/

section Statements

variable {κ π ν : Type} [DecidableEq κ] [DecidableEq π] [DecidableEq ν]

/-- The values are assigned one after the other. -/
def assign (f : κ → ν) (values : List (κ × ν)) : κ → ν :=
  values.foldl (fun f p => Function.update f p.1 p.2) f

/-- `ADD COLUMN new AFTER old`. -/
def addColumnAfter (columns : List κ) (old new : κ) : List κ :=
  columns.flatMap fun c => if c = old then [c, new] else [c]

/-- The columns and the placeholders of both halves of a statement. -/
structure Upsert (κ π : Type) where
  columns : List κ
  values : List π
  updates : List (κ × π)

namespace Upsert

variable (u : Upsert κ π) (null : ν) (bound : π → ν)

/-- The row that `VALUES` makes; a column that is not named is null. -/
def inserted : κ → ν := assign (fun _ => null) (u.columns.zip (u.values.map bound))

/-- What `UPDATE` makes of a row. -/
def updated (row : κ → ν) : κ → ν := assign row (u.updates.map fun p => (p.1, bound p.2))

/-- Two rows agree on a unique index; a null is not equal to anything. -/
def duplicate (unique : List κ) (row row' : κ → ν) : Bool :=
  unique.all fun c => row c == row' c && row c != null

def run {limit : Nat} (unique : List κ) (t : Table limit (κ → ν)) :
    Option (Nat × Table limit (κ → ν)) :=
  let row := u.inserted null bound
  t.upsert (duplicate null unique row) (u.updated bound) row

end Upsert

end Statements

end ArmOd
