import ArmOd.Base.BiMap

/-!
# The objects of `BiMap.h`

The class as it is written: two maps and no promise about them, each method with what it returns.
The objects of a program are a list, and the operations on them build, copy, assign and change the
objects of that list. What makes an object a `BiMap` is kept by each of them, and under it every
method does what the `BiMap` does.
-/

namespace ArmOd

structure BiMapObject (α β : Type) [Ord α] [Ord β] where
  m_left : QMap α β
  m_right : QMap β α

namespace BiMapObject

variable {α β : Type} [Ord α] [Ord β]

/-- `BiMap()`. -/
def construct : BiMapObject α β where
  m_left := ∅
  m_right := ∅

/-- `operator=`. -/
def assign (_b other : BiMapObject α β) : BiMapObject α β where
  m_left := other.m_left
  m_right := other.m_right

/-- `BiMap( other )`. -/
def copyConstruct (other : BiMapObject α β) : BiMapObject α β := construct.assign other

def size (b : BiMapObject α β) : Nat := b.m_left.size

def isEmpty (b : BiMapObject α β) : Bool := b.m_left.isEmpty

def clear (_b : BiMapObject α β) : BiMapObject α β where
  m_left := ∅
  m_right := ∅

def containsLeft (b : BiMapObject α β) (left : α) : Bool := b.m_left.contains left

def containsRight (b : BiMapObject α β) (right : β) : Bool := b.m_right.contains right

def leftKeys (b : BiMapObject α β) : List α := b.m_left.keys

def rightKeys (b : BiMapObject α β) : List β := b.m_right.keys

def insert (b : BiMapObject α β) (left : α) (right : β) : Bool × BiMapObject α β :=
  if b.containsLeft left || b.containsRight right then (false, b)
  else
    (true, ⟨b.m_left.insert left right, b.m_right.insert right left⟩)

/-- `operator==`. -/
def equal [BEq β] (b other : BiMapObject α β) : Bool := b.m_left == other.m_left

/-- `operator!=`. -/
def notEqual [BEq β] (b other : BiMapObject α β) : Bool := b.m_left != other.m_left

section Defaults

variable [Inhabited α] [Inhabited β]

/-- A default where there is no such key. -/
def left (b : BiMapObject α β) (right : β) : α := b.m_right.getD right default

def right (b : BiMapObject α β) (left : α) : β := b.m_left.getD left default

def removeByLeft (b : BiMapObject α β) (left : α) : Bool × BiMapObject α β :=
  if !b.containsLeft left then (false, b)
  else
    let right := b.m_left.getD left default
    (true, ⟨b.m_left.erase left, b.m_right.erase right⟩)

def removeByRight (b : BiMapObject α β) (right : β) : Bool × BiMapObject α β :=
  if !b.containsRight right then (false, b)
  else
    let left := b.m_right.getD right default
    (true, ⟨b.m_left.erase left, b.m_right.erase right⟩)

/-- What a program does with its objects; each is named by its place in the list. -/
inductive Op (α β : Type) where
  | construct
  | copyConstruct (other : Nat)
  | assign (target other : Nat)
  | insert (target : Nat) (left : α) (right : β)
  | removeByLeft (target : Nat) (left : α)
  | removeByRight (target : Nat) (right : β)
  | clear (target : Nat)

def step (objects : List (BiMapObject α β)) : Op α β → List (BiMapObject α β)
  | .construct => objects ++ [construct]
  | .copyConstruct other =>
      match objects[other]? with
      | some source => objects ++ [copyConstruct source]
      | none => objects
  | .assign target other =>
      match objects[other]? with
      | some source => objects.modify target (·.assign source)
      | none => objects
  | .insert target left right => objects.modify target fun b => (b.insert left right).2
  | .removeByLeft target left => objects.modify target fun b => (b.removeByLeft left).2
  | .removeByRight target right => objects.modify target fun b => (b.removeByRight right).2
  | .clear target => objects.modify target clear

end Defaults

/-! ### What an object has to keep -/

/-- The two maps are inverse to each other. -/
def Inverse (b : BiMapObject α β) : Prop :=
  ∀ (x : α) (y : β), b.m_left[x]? = some y ↔ b.m_right[y]? = some x

/-- The pair is in the object. -/
def Links (b : BiMapObject α β) (x : α) (y : β) : Prop := b.m_left[x]? = some y

/-- The `BiMap` that an object with inverse maps is. -/
def toBiMap (b : BiMapObject α β) (h : b.Inverse) : BiMap α β := ⟨b.m_left, b.m_right, h⟩

def ofBiMap (c : BiMap α β) : BiMapObject α β := ⟨c.m_left, c.m_right⟩

variable {b other : BiMapObject α β} {x : α} {y : β}

theorem inverse_ofBiMap (c : BiMap α β) : (ofBiMap c).Inverse := c.inverse

theorem inverse_assign (h : other.Inverse) : (b.assign other).Inverse := h

theorem inverse_copyConstruct (h : other.Inverse) : (copyConstruct other).Inverse := h

section Lookups

variable [Std.TransOrd α]

theorem containsLeft_iff : b.containsLeft x = true ↔ ∃ y, b.Links x y := QMap.mem_iff

theorem right_of_links [Inhabited β] (h : b.Links x y) : b.right x = y := by
  rw [right, Std.TreeMap.getD_eq_getD_getElem?, h, Option.getD_some]

variable [Std.LawfulEqOrd α]

theorem insert_snd_eq_self : (b.insert x y).2 = b ↔ (b.insert x y).1 = false := by
  rw [insert]
  split
  · exact iff_of_true rfl rfl
  · rename_i hfree
    refine iff_of_false (fun heq => hfree ?_) fun heq => Bool.false_ne_true heq.symm
    have hleft : (b.m_left.insert x y).contains x = true := QMap.contains_insert_self
    have hsame : b.m_left.insert x y = b.m_left := congrArg m_left heq
    rw [hsame] at hleft
    exact Bool.or_eq_true_iff.mpr (Or.inl hleft)

theorem equal_iff [DecidableEq β] :
    b.equal other = true ↔ ∀ x y, b.Links x y ↔ other.Links x y := by
  rw [equal, Std.TreeMap.beq_iff_equiv]
  refine ⟨fun h x y => ?_, fun h => .of_forall_constGet?_eq fun x => Option.ext (h x)⟩
  rw [Links, h.getElem?_eq]
  rfl

end Lookups

variable [Std.TransOrd β]

theorem containsRight_iff (h : b.Inverse) : b.containsRight y = true ↔ ∃ x, b.Links x y :=
  BiMap.containsRight_iff (b := b.toBiMap h)

theorem left_of_links [Inhabited α] (hinv : b.Inverse) (h : b.Links x y) : b.left y = x := by
  rw [left, Std.TreeMap.getD_eq_getD_getElem?, (hinv x y).mp h, Option.getD_some]

variable [Std.TransOrd α]

theorem inverse_construct : (construct : BiMapObject α β).Inverse := inverse_ofBiMap BiMap.empty

theorem inverse_clear : b.clear.Inverse := inverse_construct

theorem insert_fst (h : b.Inverse) :
    (b.insert x y).1 = false ↔ (∃ y', b.Links x y') ∨ ∃ x', b.Links x' y := by
  rw [← containsLeft_iff, ← containsRight_iff h, ← Bool.or_eq_true_iff, insert]
  split <;> rename_i htaken
  · exact iff_of_true rfl htaken
  · exact iff_of_false (fun heq => Bool.false_ne_true heq.symm) htaken

/-! ### The methods are those of the `BiMap` -/

variable [Std.LawfulEqOrd α] [Std.LawfulEqOrd β] [DecidableEq α] [DecidableEq β]

theorem insert_snd (h : b.Inverse) : (b.insert x y).2 = ofBiMap ((b.toBiMap h).insert x y) := by
  have hpresent : (b.containsLeft x || b.containsRight y) = true ↔
      (b.toBiMap h).containsLeft x = true ∨ (b.toBiMap h).containsRight y = true :=
    Bool.or_eq_true_iff
  rw [insert, BiMap.insert]
  split
  · rename_i htaken
    rw [dif_pos (hpresent.mp htaken)]
    rfl
  · rename_i hfree
    rw [dif_neg (mt hpresent.mpr hfree)]
    rfl

theorem removeByLeft_snd [Inhabited β] (h : b.Inverse) :
    (b.removeByLeft x).2 = ofBiMap ((b.toBiMap h).removeByLeft x) := by
  cases hleft : b.containsLeft x with
  | false =>
      have hnone : ∀ y, ¬(b.toBiMap h).Links x y := fun y hy =>
        Bool.false_ne_true (hleft.symm.trans (containsLeft_iff.mpr ⟨y, hy⟩))
      rw [removeByLeft, hleft, BiMap.removeByLeft_eq_self hnone]
      rfl
  | true =>
      obtain ⟨y, hy⟩ := containsLeft_iff.mp hleft
      have hright : b.m_left.getD x default = y := right_of_links hy
      have hlinks : (b.toBiMap h).Links x y := hy
      rw [removeByLeft, hleft, BiMap.removeByLeft_eq hlinks, hright]
      rfl

theorem removeByRight_snd [Inhabited α] (h : b.Inverse) :
    (b.removeByRight y).2 = ofBiMap ((b.toBiMap h).removeByRight y) := by
  cases hright : b.containsRight y with
  | false =>
      have hnone : ∀ x, ¬(b.toBiMap h).Links x y := fun x hx =>
        Bool.false_ne_true (hright.symm.trans ((containsRight_iff h).mpr ⟨x, hx⟩))
      rw [removeByRight, hright, BiMap.removeByRight_eq_self hnone]
      rfl
  | true =>
      obtain ⟨x, hx⟩ := (containsRight_iff h).mp hright
      have hleft : b.m_right.getD y default = x := left_of_links h hx
      have hlinks : (b.toBiMap h).Links x y := hx
      rw [removeByRight, hright, BiMap.removeByRight_eq hlinks, hleft]
      rfl

/-! ### Every history of operations -/

omit [Std.TransOrd α] [Std.TransOrd β] [Std.LawfulEqOrd α] [Std.LawfulEqOrd β] [DecidableEq α]
  [DecidableEq β] in
theorem inverse_modify {objects : List (BiMapObject α β)} {target : Nat}
    {f : BiMapObject α β → BiMapObject α β} (hf : ∀ b, b.Inverse → (f b).Inverse)
    (hinv : ∀ b ∈ objects, b.Inverse) : ∀ b ∈ objects.modify target f, b.Inverse := by
  intro b hb
  obtain ⟨i, hi⟩ := List.mem_iff_getElem?.mp hb
  rw [List.getElem?_modify] at hi
  obtain ⟨c, hc, rfl⟩ := Option.map_eq_some_iff.mp hi
  have hcinv := hinv c (List.mem_of_getElem? hc)
  split
  · exact hf c hcinv
  · exact hcinv

variable [Inhabited α] [Inhabited β]

/-- One operation keeps the maps of every object inverse. -/
theorem step_inverse {objects : List (BiMapObject α β)} (hinv : ∀ b ∈ objects, b.Inverse)
    (op : Op α β) : ∀ b ∈ step objects op, b.Inverse := by
  cases op with
  | construct =>
      exact List.forall_mem_append.mpr ⟨hinv, List.forall_mem_singleton.mpr inverse_construct⟩
  | copyConstruct other =>
      rw [step]
      split
      · rename_i source hsource
        have hcopy := inverse_copyConstruct (hinv source (List.mem_of_getElem? hsource))
        exact List.forall_mem_append.mpr ⟨hinv, List.forall_mem_singleton.mpr hcopy⟩
      · exact hinv
  | assign target other =>
      rw [step]
      split
      · rename_i source hsource
        have hassign := hinv source (List.mem_of_getElem? hsource)
        exact inverse_modify (fun _ _ => inverse_assign hassign) hinv
      · exact hinv
  | insert target left right =>
      refine inverse_modify (fun b hb => ?_) hinv
      rw [insert_snd hb]
      exact inverse_ofBiMap _
  | removeByLeft target left =>
      refine inverse_modify (fun b hb => ?_) hinv
      rw [removeByLeft_snd hb]
      exact inverse_ofBiMap _
  | removeByRight target right =>
      refine inverse_modify (fun b hb => ?_) hinv
      rw [removeByRight_snd hb]
      exact inverse_ofBiMap _
  | clear target => exact inverse_modify (fun _ _ => inverse_clear) hinv

theorem run_inverse {objects : List (BiMapObject α β)} (hinv : ∀ b ∈ objects, b.Inverse)
    (ops : List (Op α β)) : ∀ b ∈ ops.foldl step objects, b.Inverse := by
  induction ops generalizing objects with
  | nil => exact hinv
  | cons op ops ih => exact ih (step_inverse hinv op)

omit [DecidableEq α] [DecidableEq β] in
/-- The assertions of `size`, `isEmpty`, `removeByLeft` and `removeByRight`. -/
theorem asserts_of_inverse (h : b.Inverse) :
    b.m_left.size = b.m_right.size ∧ b.m_left.isEmpty = b.m_right.isEmpty ∧
      ∀ x y, (b.containsLeft x = true → b.containsRight (b.right x) = true) ∧
        (b.containsRight y = true → b.containsLeft (b.left y) = true) := by
  have hsize : b.m_left.size = b.m_right.size := BiMap.size_eq (b.toBiMap h)
  refine ⟨hsize, ?_, fun x y => ⟨fun hx => ?_, fun hy => ?_⟩⟩
  · rw [Std.TreeMap.isEmpty_eq_size_eq_zero, hsize, ← Std.TreeMap.isEmpty_eq_size_eq_zero]
  · obtain ⟨y, hy⟩ := containsLeft_iff.mp hx
    rw [right_of_links hy, containsRight_iff h]
    exact ⟨x, hy⟩
  · obtain ⟨x, hx⟩ := (containsRight_iff h).mp hy
    rw [left_of_links h hx, containsLeft_iff]
    exact ⟨y, hx⟩

/-- **The two maps of every object stay inverse and of one size**, whatever is done to the objects,
and so the methods do what they say and their assertions hold. -/
theorem objects_consistent (ops : List (Op α β)) :
    (∀ b ∈ ops.foldl step [],
      b.Inverse ∧ b.m_left.size = b.m_right.size ∧
        (∀ x y, ((b.insert x y).1 = false ↔ (∃ y', b.Links x y') ∨ ∃ x', b.Links x' y) ∧
          ((b.insert x y).2 = b ↔ (∃ y', b.Links x y') ∨ ∃ x', b.Links x' y)) ∧
        (∀ x, b.containsLeft x = true → b.left (b.right x) = x) ∧
        b.m_left.isEmpty = b.m_right.isEmpty ∧
        ∀ x y, (b.containsLeft x = true → b.containsRight (b.right x) = true) ∧
          (b.containsRight y = true → b.containsLeft (b.left y) = true)) ∧
      ∀ b ∈ ops.foldl step [], ∀ b' ∈ ops.foldl step [],
        (b.equal b' = true ↔ ∀ x y, b.Links x y ↔ b'.Links x y) := by
  refine ⟨fun b hb => ?_, fun b _ b' _ => equal_iff⟩
  have hinv := run_inverse (fun _ hb => absurd hb List.not_mem_nil) ops b hb
  obtain ⟨hsize, hempty, hasserts⟩ := asserts_of_inverse hinv
  refine ⟨hinv, hsize, fun x y => ⟨insert_fst hinv, ?_⟩, fun x hx => ?_, hempty, hasserts⟩
  · rw [insert_snd_eq_self, insert_fst hinv]
  · obtain ⟨y, hy⟩ := containsLeft_iff.mp hx
    rw [right_of_links hy, left_of_links hinv hy]

/-- The map of the tests: a pair whose left key is taken, then a copy of the map. -/
theorem objects_consistent_int :
    (([.construct, .insert 0 1 2, .insert 0 1 3, .insert 0 2 1, .copyConstruct 0] :
      List (Op Int Int)).foldl step []).Forall fun b =>
        b.Inverse ∧ b.m_left.size = b.m_right.size :=
  List.forall_iff_forall_mem.mpr fun b hb =>
    ⟨((objects_consistent _).1 b hb).1, ((objects_consistent _).1 b hb).2.1⟩

end BiMapObject

end ArmOd
