import ArmOd.Tcp.TcpAISCoder

/-!
# The scan of an AIS answer

Where the loop over the characters of `TcpAISCoder::filterData` writes, and what it keeps. The
counter of the commas goes back to zero at a closing bracket only, so the array of seventeen is
respected when no part of the text between two closing brackets has more commas behind its first
opening bracket. The records that are kept are those of the closing brackets, and no comma is ever
written into them.
-/

namespace ArmOd

theorem isSome_foldlM_iff {σ α : Type} {f : σ → α → Option σ} {s : σ} {as : List α} :
    (as.foldlM f s).isSome ↔ ∀ before a later, as = before ++ a :: later →
      ∀ s', before.foldlM f s = some s' → (f s' a).isSome := by
  induction as generalizing s with
  | nil =>
      refine iff_of_true rfl fun before a later hsplit => ?_
      simp at hsplit
  | cons a as ih =>
      rw [List.foldlM_cons]
      cases hstep : f s a with
      | none =>
          refine iff_of_false (by simp) fun h => ?_
          have hfirst := h [] a as rfl s rfl
          rw [hstep] at hfirst
          cases hfirst
      | some s₁ =>
          rw [Option.bind_eq_bind, Option.bind_some, ih]
          constructor
          · intro h before b later hsplit s' hbefore
            cases before with
            | nil =>
                obtain ⟨rfl, -⟩ := List.cons.inj hsplit
                cases hbefore
                rw [hstep]
                rfl
            | cons c before =>
                obtain ⟨rfl, hrest⟩ := List.cons.inj hsplit
                rw [List.foldlM_cons, hstep] at hbefore
                exact h before b later hrest s' hbefore
          · intro h before b later hsplit s' hbefore
            refine h (a :: before) b later (by rw [hsplit, List.cons_append]) s' ?_
            rw [List.foldlM_cons, hstep]
            exact hbefore

namespace TcpAISCoder

variable {memory : Nat → Bracketed} {m_listBr : List Bracketed} {data piece : Text} {br : Bracketed}
  {s : Scan} {p : Char × Nat} {i : Nat}

/-! ### One character -/

theorem scanChar_open : scanChar br s ('[', i) = some { s with inList := true } := rfl

theorem scanChar_comma (hin : s.inList = true) :
    scanChar br s (',', i) = if s.c < 17 then some { s with c := s.c + 1 } else none := by
  rw [scanChar]
  dsimp only
  rw [if_neg (by decide), if_pos ⟨rfl, hin⟩]
  split <;> rfl

theorem scanChar_close : scanChar br s (']', i) =
    some { c := 0, inList := false, m_listBr := s.m_listBr ++ [{ br with br2 := i }] } := by
  rw [scanChar]
  dsimp only
  rw [if_neg (by decide), if_neg fun h => absurd h.1 (by decide), if_pos rfl]

theorem scanChar_other {x : Char} (hopen : x ≠ '[') (hcomma : ¬(x = ',' ∧ s.inList = true))
    (hclose : x ≠ ']') : scanChar br s (x, i) = some s := by
  rw [scanChar, if_neg hopen, if_neg hcomma, if_neg hclose]

theorem scanChar_cases (br : Bracketed) (s : Scan) (x : Char) (i : Nat) :
    x = '[' ∨ (x = ',' ∧ s.inList = true) ∨ x = ']' ∨
      x ≠ '[' ∧ x ≠ ']' ∧ ¬(x = ',' ∧ s.inList = true) ∧ scanChar br s (x, i) = some s := by
  by_cases hopen : x = '['
  · exact Or.inl hopen
  by_cases hcomma : x = ',' ∧ s.inList = true
  · exact Or.inr (Or.inl hcomma)
  by_cases hclose : x = ']'
  · exact Or.inr (Or.inr (Or.inl hclose))
  · exact Or.inr (Or.inr (Or.inr ⟨hopen, hclose, hcomma, scanChar_other hopen hcomma hclose⟩))

/-! ### The writes -/

/-- At this character `br.comma[c]` is written. -/
def Scan.Writes (s : Scan) (p : Char × Nat) : Prop := p.1 = ',' ∧ s.inList = true

/-- Every write of the loop is inside of the array. -/
def WritesInside (memory : Nat → Bracketed) (m_listBr : List Bracketed) (data : Text) : Prop :=
  ∀ before p later, data.zipIdx = before ++ p :: later →
    ∀ s, before.foldlM (fun s p => scanChar (memory p.2) s p) { m_listBr } = some s →
      s.Writes p → s.c < 17

theorem isSome_scanChar : (scanChar br s p).isSome ↔ (s.Writes p → s.c < 17) := by
  obtain ⟨x, i⟩ := p
  rcases scanChar_cases br s x i with rfl | ⟨rfl, hin⟩ | rfl | ⟨-, -, hcomma, hscan⟩
  · exact iff_of_true rfl fun hwrites => absurd (show '[' = ',' from hwrites.1) (by decide)
  · rw [scanChar_comma hin]
    by_cases hlt : s.c < 17
    · rw [if_pos hlt]
      exact iff_of_true rfl fun _ => hlt
    · rw [if_neg hlt]
      exact iff_of_false (by simp) fun h => hlt (h ⟨rfl, hin⟩)
  · rw [scanChar_close]
    exact iff_of_true rfl fun hwrites => absurd (show ']' = ',' from hwrites.1) (by decide)
  · rw [hscan]
    exact iff_of_true rfl fun hwrites => absurd hwrites hcomma

theorem writesInside_iff_isSome :
    WritesInside memory m_listBr data ↔ (scan memory m_listBr data).isSome := by
  rw [scan, isSome_foldlM_iff]
  simp only [isSome_scanChar]
  exact Iff.rfl

/-! ### The counter -/

/-- The commas that are counted in a part of the text without a closing bracket. -/
def commas (inList : Bool) (piece : Text) : Nat :=
  if inList then piece.count ',' else (piece.dropWhile (· ≠ '[')).count ','

theorem commas_open (inList : Bool) : commas inList ('[' :: piece) = commas true piece := by
  cases inList with
  | false => simp [commas]
  | true => simp [commas]

theorem commas_comma_true : commas true (',' :: piece) = commas true piece + 1 := by
  simp [commas]

theorem commas_comma_false : commas false (',' :: piece) = commas false piece := by
  simp [commas]

theorem commas_other (inList : Bool) {c : Char} (hopen : c ≠ '[') (hcomma : c ≠ ',') :
    commas inList (c :: piece) = commas inList piece := by
  cases inList with
  | false => simp [commas, hopen]
  | true => simp [commas, List.count_cons_of_ne hcomma]

/-- The scan from a place on. -/
def scanFrom (memory : Nat → Bracketed) (s : Scan) (i : Nat) (data : Text) : Option Scan :=
  (data.zipIdx i).foldlM (fun s p => scanChar (memory p.2) s p) s

theorem scanFrom_cons (c : Char) : scanFrom memory s i (c :: data) =
    (scanChar (memory i) s (c, i)).bind fun s' => scanFrom memory s' (i + 1) data := rfl

/-- The bound from a state on, part by part of the text; the counter goes on in the first part. -/
def Fits (c : Nat) (inList : Bool) : List Text → Prop
  | [] => True
  | first :: more => c + commas inList first ≤ 17 ∧ ∀ piece ∈ more, commas false piece ≤ 17

theorem fits_close {c : Nat} {inList : Bool} (hc : c ≤ 17) :
    Fits c inList ((']' :: data).splitOn ']') ↔ Fits 0 false (data.splitOn ']') := by
  obtain ⟨first, more, hsplit⟩ := List.exists_cons_of_ne_nil (List.splitOn_ne_nil ']' data)
  rw [List.splitOn_cons_eq_if_modifyHead, if_pos (by decide), hsplit, Fits, Fits,
    List.forall_mem_cons, zero_add]
  cases inList with
  | false => simp [commas, hc]
  | true => simp [commas, hc]

theorem fits_cons {c c' : Nat} {inList inList' : Bool} {x : Char} (hclose : x ≠ ']')
    (hcommas : ∀ piece, c + commas inList (x :: piece) = c' + commas inList' piece) :
    Fits c inList ((x :: data).splitOn ']') ↔ Fits c' inList' (data.splitOn ']') := by
  obtain ⟨first, more, hsplit⟩ := List.exists_cons_of_ne_nil (List.splitOn_ne_nil ']' data)
  rw [List.splitOn_cons_eq_if_modifyHead, if_neg (by simpa using hclose), hsplit,
    List.modifyHead_cons, Fits, Fits, hcommas]

/-- A comma in a list needs a place of its own. -/
theorem lt_of_fits_comma (hin : s.inList = true)
    (hfits : Fits s.c s.inList ((',' :: data).splitOn ']')) : s.c < 17 := by
  obtain ⟨first, more, hsplit⟩ := List.exists_cons_of_ne_nil (List.splitOn_ne_nil ']' data)
  rw [List.splitOn_cons_eq_if_modifyHead, if_neg (by decide), hsplit, List.modifyHead_cons, Fits,
    hin, commas_comma_true] at hfits
  omega

theorem commas_skip {x : Char} (hopen : x ≠ '[') (hcomma : ¬(x = ',' ∧ s.inList = true)) :
    commas s.inList (x :: piece) = commas s.inList piece := by
  by_cases hx : x = ','
  · have hin : s.inList = false := Bool.eq_false_iff.mpr fun hin => hcomma ⟨hx, hin⟩
    rw [hx, hin, commas_comma_false]
  · exact commas_other _ hopen hx

theorem isSome_scanFrom_iff (hc : s.c ≤ 17) :
    (scanFrom memory s i data).isSome ↔ Fits s.c s.inList (data.splitOn ']') := by
  induction data generalizing s i with
  | nil =>
      refine iff_of_true rfl ⟨?_, by simp⟩
      cases hin : s.inList with
      | false => simpa [commas] using hc
      | true => simpa [commas] using hc
  | cons x data ih =>
      rw [scanFrom_cons]
      rcases scanChar_cases (memory i) s x i with
        rfl | ⟨rfl, hin⟩ | rfl | ⟨hopen, hclose, hcomma, hscan⟩
      · have hrest := ih (s := { s with inList := true }) (i := i + 1) hc
        rw [scanChar_open, Option.bind_some, hrest]
        exact (fits_cons (by decide) fun piece => by rw [commas_open]).symm
      · rw [scanChar_comma hin]
        by_cases hlt : s.c < 17
        · have hrest := ih (s := { s with c := s.c + 1 }) (i := i + 1) hlt
          rw [if_pos hlt, Option.bind_some, hrest]
          refine (fits_cons (by decide) fun piece => ?_).symm
          simp only [hin, commas_comma_true]
          omega
        · rw [if_neg hlt, Option.bind_none]
          exact iff_of_false (by simp) fun hfits => hlt (lt_of_fits_comma hin hfits)
      · have hrest := ih (s := { c := 0, inList := false, m_listBr := s.m_listBr ++
          [{ memory i with br2 := i }] }) (i := i + 1) (Nat.zero_le 17)
        rw [scanChar_close, Option.bind_some, hrest]
        exact (fits_close hc).symm
      · rw [hscan, Option.bind_some, ih hc]
        exact (fits_cons hclose fun piece => by rw [commas_skip hopen hcomma]).symm

theorem isSome_scan_iff : (scan memory m_listBr data).isSome ↔
    ∀ piece ∈ data.splitOn ']', commas false piece ≤ 17 := by
  have hscan : (scanFrom memory { m_listBr } 0 data).isSome ↔ Fits 0 false (data.splitOn ']') :=
    isSome_scanFrom_iff (Nat.zero_le 17)
  obtain ⟨first, more, hsplit⟩ := List.exists_cons_of_ne_nil (List.splitOn_ne_nil ']' data)
  rw [hsplit, Fits, zero_add] at hscan
  rw [hsplit, List.forall_mem_cons]
  exact hscan

/-- **The bounds of the scan.** Every write of `br.comma[c]` is inside of the array, exactly when no
part of the text between two closing brackets has more than seventeen commas behind its first
opening bracket. -/
theorem writesInside_iff (memory : Nat → Bracketed) (m_listBr : List Bracketed) (data : Text) :
    WritesInside memory m_listBr data ↔
      ∀ piece ∈ data.splitOn ']', (piece.dropWhile (· ≠ '[')).count ',' ≤ 17 :=
  writesInside_iff_isSome.trans isSome_scan_iff

/-- A bracket and eighteen commas. -/
def longList : Text := '[' :: List.replicate 18 ','

theorem not_writesInside : ¬∀ memory m_listBr data, WritesInside memory m_listBr data := by
  intro h
  have hsome := isSome_scan_iff.mp
    (writesInside_iff_isSome.mp (h (fun _ => ⟨0, 0, Vector.replicate 17 0⟩) [] longList))
  exact absurd (hsome longList (by decide)) (by decide)

end TcpAISCoder

end ArmOd
