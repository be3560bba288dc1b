import ArmOd.Base.Ledger
import ArmOd.Base.Run
import ArmOd.Tree.UavTreeModel

/-!
# The items of the UAVs

The children of the root against a ledger of the UAVs that were added and not removed since. The
ledger knows a live UAV from a replayed one; the tree asks the name, so that a removal takes the item
of its UAV only where the name of the live one tells it.
-/

namespace ArmOd

namespace UavTreeModel

/-- A UAV is live or replayed under its id. -/
def pair (uav : Uav) : Nat × Bool := (uav.uavId, uav.historical)

/-- The tree with the ledger of what it was told. -/
structure Tracked where
  tree : UavTreeModel
  ledger : Ledger Uav

def start (role : String) : Tracked := ⟨{ m_targetRole := role }, {}⟩

def record (ledger : Ledger Uav) : TreeOp → Ledger Uav
  | .onUavAdded uav _ => ledger.enter uav
  | .onUavRemoved uav _ => ledger.leave pair (pair uav)

def track (s : Tracked) (op : TreeOp) : Tracked := ⟨s.tree.step op, record s.ledger op⟩

/-- Additions and removals of a UAV take turns, an addition first, under the names that live and
replayed UAVs have. An id is an `uint`. -/
def Alternates (role : String) (s : Tracked) : TreeOp → Prop
  | .onUavAdded uav uavRole => uavRole = role ∧ uav.uavId < 2 ^ 32 ∧
      (if uav.historical then uav.name = QString.number uav.uavId ++ "-H" else uav.name ≠ "") ∧
      ∀ p ∈ s.ledger.present, pair p.2 ≠ pair uav
  | .onUavRemoved uav uavRole => uavRole = role ∧ ∃ p ∈ s.ledger.present, pair p.2 = pair uav

/-- What there is to see of an item: its address, its id and its name. -/
def tellItem (childItem : Nat × TreeItem) : Nat × Int32 × String :=
  (childItem.1, childItem.2.data.id, childItem.2.data.name)

/-- The item that was made for a UAV when it was added. -/
def tellEntry (p : Nat × Uav) : Nat × Int32 × String := (p.1, Int32.ofNat p.2.uavId, p.2.name)

/-- The children of the root are the items of the UAVs on the ledger, one each. -/
def Shows (s : Tracked) : Prop :=
  (s.tree.m_rootItem.map tellItem).Perm (s.ledger.present.map tellEntry)

/-- When a UAV is removed, the live one of its id has a name that is an `int`, or came after the
replayed one that is removed. -/
def NamesTell (s : Tracked) : TreeOp → Prop
  | .onUavAdded _ _ => True
  | .onUavRemoved uav _ => ∀ p ∈ s.ledger.present, p.2.uavId = uav.uavId →
      p.2.historical = false → isReal p.2.name = true ∨
        uav.historical = true ∧ ∀ q ∈ s.ledger.present, pair q.2 = pair uav → q.1 < p.1

instance (role : String) (s : Tracked) : (op : TreeOp) → Decidable (Alternates role s op)
  | .onUavAdded _ _ => inferInstanceAs (Decidable (_ ∧ _ ∧ _ ∧ _))
  | .onUavRemoved _ _ => inferInstanceAs (Decidable (_ ∧ _))

instance (s : Tracked) : (op : TreeOp) → Decidable (NamesTell s op)
  | .onUavAdded _ _ => inferInstanceAs (Decidable True)
  | .onUavRemoved _ _ => inferInstanceAs (Decidable (∀ _ ∈ _, _ → _ → _ ∨ _ ∧ ∀ _ ∈ _, _))

variable {role : String} {s : Tracked} {op : TreeOp} {uav : Uav} {p q : Nat × Uav}

/-! ### The tree and the ledger agree -/

/-- The children are the entries of the ledger, in its order. -/
structure Exact (role : String) (s : Tracked) : Prop where
  role : s.tree.m_targetRole = role
  items : s.tree.m_rootItem.map tellItem = s.ledger.present.map tellEntry
  allocated : s.tree.allocated = s.ledger.count
  orderly : s.ledger.Orderly pair
  ids : ∀ p ∈ s.ledger.present, p.2.uavId < 2 ^ 32
  names : ∀ p ∈ s.ledger.present, p.2.historical = true →
    p.2.name = QString.number p.2.uavId ++ "-H"

theorem exact_start (role : String) : Exact role (start role) :=
  ⟨rfl, rfl, rfl, .empty, fun _ hp => absurd hp List.not_mem_nil,
    fun _ hp => absurd hp List.not_mem_nil⟩

theorem Exact.shows (h : Exact role s) : Shows s := .of_eq h.items

theorem Exact.added {uavRole : String} (h : Exact role s)
    (halternates : Alternates role s (.onUavAdded uav uavRole)) :
    Exact role (track s (.onUavAdded uav uavRole)) := by
  obtain ⟨rfl, hid, hname, hnew⟩ := halternates
  have htree : s.tree.onUavAdded uav uavRole = { s.tree with
      m_rootItem := s.tree.m_rootItem ++ [(s.tree.allocated, uavItem uav uavRole)]
      allocated := s.tree.allocated + 1
      emitted := s.tree.emitted ++ [.layoutAboutToBeChanged, .layoutChanged, .onItemAddedSignal] } :=
    if_neg (not_not.mpr h.role.symm)
  rw [track, step, htree, record]
  refine ⟨h.role, ?_, congrArg Nat.succ h.allocated, h.orderly.enter hnew, ?_, ?_⟩
  · rw [List.map_append, h.items, Ledger.enter, List.map_append, h.allocated]
    simp only [List.map_cons, List.map_nil, tellItem, tellEntry, data_uavItem]
  · intro p hp
    rcases List.mem_append.mp hp with hold | hlast
    · exact h.ids p hold
    · rwa [List.mem_singleton.mp hlast]
  · intro p hp hhistorical
    rcases List.mem_append.mp hp with hold | hlast
    · exact h.names p hold hhistorical
    · rw [List.mem_singleton.mp hlast] at hhistorical ⊢
      rwa [if_pos hhistorical] at hname

/-! ### A removal -/

/-- The test of the loop, on what there is to see of an item. -/
def test (uav : Uav) (item : Nat × Int32 × String) : Bool :=
  decide (item.2.1.toUInt32.toNat = uav.uavId) && uav.historical != isReal item.2.2

theorem rootItem_onUavRemoved {m : UavTreeModel} {uavRole : String}
    (hrole : uavRole = m.m_targetRole) :
    (m.onUavRemoved uav uavRole).m_rootItem =
      Ledger.strikeFirst (fun child => test uav (tellItem child)) m.m_rootItem := by
  have htest : isRemoved uav = fun child => test uav (tellItem child) := rfl
  rw [onUavRemoved, if_neg (not_not.mpr hrole), Ledger.strikeFirst, htest]
  cases m.m_rootItem.find? fun child => test uav (tellItem child) <;> rfl

theorem onUavRemoved_keeps (m : UavTreeModel) (uav : Uav) (uavRole : String) :
    (m.onUavRemoved uav uavRole).m_targetRole = m.m_targetRole ∧
      (m.onUavRemoved uav uavRole).allocated = m.allocated := by
  rw [onUavRemoved]
  split
  · exact ⟨rfl, rfl⟩
  · split <;> exact ⟨rfl, rfl⟩

theorem Exact.items_removed {uavRole : String} (h : Exact role s) (hrole : uavRole = role) :
    (s.tree.onUavRemoved uav uavRole).m_rootItem.map tellItem =
      (Ledger.strikeFirst (fun p => test uav (tellEntry p)) s.ledger.present).map tellEntry := by
  rw [rootItem_onUavRemoved (hrole.trans h.role.symm), Ledger.map_strikeFirst tellItem fun _ => rfl,
    Ledger.map_strikeFirst tellEntry fun _ => rfl, h.items]

theorem Exact.test_iff (h : Exact role s) (hp : p ∈ s.ledger.present) :
    test uav (tellEntry p) = true ↔ p.2.uavId = uav.uavId ∧ uav.historical ≠ isReal p.2.name := by
  rw [test, tellEntry, toUInt32_ofNat (h.ids p hp), Bool.and_eq_true, decide_eq_true_eq,
    bne_iff_ne]

theorem Exact.isReal_historical (h : Exact role s) (hp : p ∈ s.ledger.present)
    (hhistorical : p.2.historical = true) : isReal p.2.name = false := by
  rw [h.names p hp hhistorical]
  exact isReal_historyName p.2.uavId

/-- Two entries of one id that are not both live or both replayed stand at different places. -/
theorem lt_of_le_of_kind (hle : p.1 ≤ q.1) (h : Exact role s) (hp : p ∈ s.ledger.present)
    (hq : q ∈ s.ledger.present) (hkind : p.2.historical ≠ q.2.historical) : p.1 < q.1 := by
  refine lt_of_le_of_ne hle fun heq => hkind ?_
  rw [h.orderly.eq_of_number hp hq heq]

theorem Exact.eq_of_pair (h : Exact role s) (hp : p ∈ s.ledger.present)
    (hq : q ∈ s.ledger.present) (hid : q.2.uavId = p.2.uavId)
    (hkind : q.2.historical = p.2.historical) : q = p :=
  h.orderly.eq_of_key hq hp (Prod.ext hid hkind)

/-- Where the loop comes to the UAV that is removed, the names tell. -/
theorem Exact.namesTell_of_first {uavRole : String} (h : Exact role s)
    (hp : p ∈ s.ledger.present) (hpair : pair p.2 = pair uav)
    (hreal : uav.historical ≠ isReal p.2.name)
    (hleast : ∀ q ∈ s.ledger.present, test uav (tellEntry q) = true → p.1 ≤ q.1) :
    NamesTell s (.onUavRemoved uav uavRole) := by
  obtain ⟨hid, hkind⟩ := Prod.mk.inj hpair
  intro q hq hqid hlive
  cases hhistorical : uav.historical with
  | false =>
      rw [h.eq_of_pair hp hq (hqid.trans hid.symm)
        (hlive.trans (hhistorical.symm.trans hkind.symm))]
      rw [hhistorical] at hreal
      exact Or.inl (by simpa using hreal.symm)
  | true =>
      rw [or_iff_not_imp_left]
      intro hname
      have hle : p.1 ≤ q.1 := by
        refine hleast q hq ((h.test_iff hq).mpr ⟨hqid, ?_⟩)
        rw [hhistorical]
        exact Ne.symm hname
      refine ⟨rfl, fun other hother hotherPair => ?_⟩
      rw [h.orderly.eq_of_key hother hp (hotherPair.trans hpair.symm)]
      refine lt_of_le_of_kind hle h hp hq ?_
      rw [hkind, hhistorical, hlive]
      decide

theorem Exact.ne_isReal_of_namesTell {uavRole : String} (h : Exact role s)
    (hp : p ∈ s.ledger.present) (hpair : pair p.2 = pair uav)
    (htell : NamesTell s (.onUavRemoved uav uavRole)) : uav.historical ≠ isReal p.2.name := by
  obtain ⟨hid, hkind⟩ := Prod.mk.inj hpair
  cases hhistorical : uav.historical with
  | false =>
      have hreal := htell p hp hid (hkind.trans hhistorical)
      rw [hhistorical] at hreal
      rw [hreal.resolve_right fun hlater => nomatch hlater.1]
      decide
  | true =>
      rw [h.isReal_historical hp (hkind.trans hhistorical)]
      decide

theorem Exact.le_of_namesTell {uavRole : String} (h : Exact role s) (hp : p ∈ s.ledger.present)
    (hpair : pair p.2 = pair uav) (htell : NamesTell s (.onUavRemoved uav uavRole))
    (hq : q ∈ s.ledger.present) (htest : test uav (tellEntry q) = true) : p.1 ≤ q.1 := by
  obtain ⟨hid, hkind⟩ := Prod.mk.inj hpair
  obtain ⟨hqid, hreal⟩ := (h.test_iff hq).mp htest
  by_cases hqkind : q.2.historical = uav.historical
  · rw [h.eq_of_pair hp hq (hqid.trans hid.symm) (hqkind.trans hkind.symm)]
  · cases hlive : q.2.historical with
    | true =>
        have hhistorical : uav.historical = false := by simpa [hlive] using hqkind
        rw [hhistorical, h.isReal_historical hq hlive] at hreal
        exact absurd rfl hreal
    | false =>
        have hhistorical : uav.historical = true := by simpa [hlive] using hqkind
        rcases htell q hq hqid hlive with hname | hlater
        · rw [hhistorical, hname] at hreal
          exact absurd rfl hreal
        · exact (hlater.2 p hp hpair).le

/-- The loop comes to the item of the UAV that is removed when the names tell. -/
theorem Exact.find?_iff {uavRole : String} (h : Exact role s) (hp : p ∈ s.ledger.present)
    (hpair : pair p.2 = pair uav) :
    s.ledger.present.find? (fun p => test uav (tellEntry p)) = some p ↔
      NamesTell s (.onUavRemoved uav uavRole) := by
  rw [h.orderly.find?_eq_some_iff hp, h.test_iff hp]
  constructor
  · intro hfirst
    exact h.namesTell_of_first hp hpair hfirst.1.2 hfirst.2
  · intro htell
    exact ⟨⟨congrArg Prod.fst hpair, h.ne_isReal_of_namesTell hp hpair htell⟩,
      fun q hq => h.le_of_namesTell hp hpair htell hq⟩

/-! ### All the notifications -/

/-- **One notification.** -/
theorem Exact.namesTell_iff (h : Exact role s) (halternates : Alternates role s op) :
    NamesTell s op ↔ Shows (track s op) := by
  cases op with
  | onUavAdded uav uavRole => exact iff_of_true trivial (h.added halternates).shows
  | onUavRemoved uav uavRole =>
      obtain ⟨hrole, p, hp, hpair⟩ := halternates
      rw [← h.find?_iff hp hpair, Shows]
      change _ ↔ ((s.tree.onUavRemoved uav uavRole).m_rootItem.map tellItem).Perm _
      rw [h.items_removed hrole]
      change _ ↔ List.Perm _ ((s.ledger.leave pair (pair uav)).present.map tellEntry)
      rw [← hpair]
      constructor
      · intro hfind
        rw [h.orderly.strikeFirst_of_find? hp hfind]
      · intro hperm
        have hnumber : ∀ p q, tellEntry p = tellEntry q → p.1 = q.1 :=
          fun _ _ heq => (Prod.mk.inj heq).1
        by_contra hfind
        exact h.orderly.not_perm_strikeFirst hnumber hp hfind hperm

theorem Exact.track (h : Exact role s) (halternates : Alternates role s op)
    (htell : NamesTell s op) : Exact role (track s op) := by
  cases op with
  | onUavAdded uav uavRole => exact h.added halternates
  | onUavRemoved uav uavRole =>
      obtain ⟨hrole, p, hp, hpair⟩ := halternates
      have hfind := (h.find?_iff hp hpair).mpr htell
      obtain ⟨hroleKept, hallocated⟩ := onUavRemoved_keeps s.tree uav uavRole
      have hitems : (s.tree.onUavRemoved uav uavRole).m_rootItem.map tellItem =
          (s.ledger.leave pair (pair uav)).present.map tellEntry := by
        rw [h.items_removed hrole, h.orderly.strikeFirst_of_find? hp hfind, hpair]
      have hmem : ∀ q ∈ (s.ledger.leave pair (pair uav)).present, q ∈ s.ledger.present :=
        fun q hq => (List.mem_filter.mp hq).1
      exact ⟨hroleKept.trans h.role, hitems, hallocated.trans h.allocated, h.orderly.leave _,
        fun q hq => h.ids q (hmem q hq), fun q hq => h.names q (hmem q hq)⟩

/-- **The items of the UAVs.** Along notifications that take turns, the children of the root are
always the UAVs that were added and not removed since, exactly when at every removal the name of the
live UAV tells its item. -/
theorem shows_iff (role : String) (ops : List TreeOp)
    (halternates : Along track (Alternates role) (start role) ops) :
    (∀ before, before <+: ops → Shows (before.foldl track (start role))) ↔
      Along track NamesTell (start role) ops := by
  rw [Along.forall_prefix_iff Shows, and_iff_right (exact_start role).shows]
  exact (Along.congr_of (fun _ _ hexact hop htell => hexact.track hop htell)
    (fun _ _ hexact hop => hexact.namesTell_iff hop) (exact_start role) halternates).symm

def liveUav : Uav := { uavId := 7, name := "7" }

def historyUav : Uav := { uavId := 7, name := "7-H", historical := true }

/-- A live UAV and its replay, one after the other. -/
def twoLives : List TreeOp :=
  [.onUavAdded liveUav OUR_UAV_ROLE, .onUavAdded historyUav OUR_UAV_ROLE,
    .onUavRemoved liveUav OUR_UAV_ROLE, .onUavRemoved historyUav OUR_UAV_ROLE]

theorem shows_twoLives : Shows (twoLives.foldl track (start OUR_UAV_ROLE)) := by
  refine (shows_iff OUR_UAV_ROLE twoLives ?_).mpr ?_ twoLives (List.prefix_refl _)
  · exact ⟨by decide +kernel, by decide +kernel, by decide +kernel, by decide +kernel, trivial⟩
  · exact ⟨by decide +kernel, by decide +kernel, by decide +kernel, by decide +kernel, trivial⟩

/-- A live UAV with a name from the table stays in the tree. -/
theorem not_shows : ¬∀ ops, Along track (Alternates OUR_UAV_ROLE) (start OUR_UAV_ROLE) ops →
    Shows (ops.foldl track (start OUR_UAV_ROLE)) := by
  intro h
  let uav : Uav := { uavId := 7, name := "Alpha" }
  have hshows := h [.onUavAdded uav OUR_UAV_ROLE, .onUavRemoved uav OUR_UAV_ROLE]
    ⟨by decide +kernel, by decide +kernel, trivial⟩
  have hlength := hshows.length_eq
  rw [List.length_map, List.length_map] at hlength
  exact absurd hlength (by decide +kernel)

end UavTreeModel

end ArmOd
