import ArmOd.Base.Blocks

/-!
# What listeners are told

A subject sends every notification to each of its listeners, in one common order. `Told` says that,
for every listener and every object, what was sent is a word of the bracket protocol whose last
block is open exactly for the objects `isOpen` names. Sending one more notification that the
protocol allows keeps it, and so an invariant about all words is kept notification by notification.
-/

namespace ArmOd

variable {ι ν κ : Type} [DecidableEq ι] [DecidableEq κ]

/-- One notification, for every listener. -/
def broadcast (receivers : List ι) (n : ν) : List (ι × ν) :=
  receivers.map fun receiver => (receiver, n)

/-- The marks one listener was sent about one object. -/
def wordOf (key : ν → κ) (mark : ν → Mark) (receiver : ι) (k : κ) (sent : List (ι × ν)) :
    List Mark :=
  sent.filterMap fun m => if m.1 = receiver ∧ key m.2 = k then some (mark m.2) else none

variable {key : ν → κ} {mark : ν → Mark} {receivers : List ι}

theorem wordOf_append (receiver : ι) (k : κ) (sent more : List (ι × ν)) :
    wordOf key mark receiver k (sent ++ more) =
      wordOf key mark receiver k sent ++ wordOf key mark receiver k more :=
  List.filterMap_append

theorem wordOf_cons_self (receiver : ι) (n : ν) (sent : List (ι × ν)) :
    wordOf key mark receiver (key n) ((receiver, n) :: sent) =
      mark n :: wordOf key mark receiver (key n) sent := by
  rw [wordOf, List.filterMap_cons, if_pos ⟨rfl, rfl⟩]
  rfl

theorem wordOf_broadcast_of_notMem {receiver : ι} (hreceiver : receiver ∉ receivers)
    (k : κ) (n : ν) :
    wordOf key mark receiver k (broadcast receivers n) = [] := by
  rw [wordOf, List.filterMap_eq_nil_iff]
  intro m hm
  obtain ⟨receiver', hreceiver', rfl⟩ := List.mem_map.mp hm
  refine if_neg ?_
  rintro ⟨rfl, -⟩
  exact hreceiver hreceiver'

theorem wordOf_broadcast (hnodup : receivers.Nodup) {receiver : ι}
    (hreceiver : receiver ∈ receivers) (k : κ) (n : ν) :
    wordOf key mark receiver k (broadcast receivers n) = if key n = k then [mark n] else [] := by
  induction receivers with
  | nil => exact absurd hreceiver List.not_mem_nil
  | cons head rest ih =>
      obtain ⟨hhead, hrest⟩ := List.nodup_cons.mp hnodup
      have hcons : wordOf key mark receiver k (broadcast (head :: rest) n) =
          wordOf key mark receiver k [(head, n)] ++ wordOf key mark receiver k (broadcast rest n) :=
        wordOf_append receiver k [(head, n)] (broadcast rest n)
      rw [hcons]
      rcases List.mem_cons.mp hreceiver with rfl | hmem
      · rw [wordOf_broadcast_of_notMem hhead, List.append_nil]
        by_cases hkey : key n = k <;> simp [wordOf, hkey]
      · have hne : head ≠ receiver := fun h => hhead (h ▸ hmem)
        rw [ih hrest hmem]
        simp [wordOf, hne]

/-- Every listener was sent a word of the protocol about every object, with a block open for the
objects `isOpen` names. -/
def Told (key : ν → κ) (mark : ν → Mark) (receivers : List ι) (isOpen : κ → Bool)
    (sent : List (ι × ν)) : Prop :=
  ∀ receiver ∈ receivers, ∀ k, Blocks.scan false (wordOf key mark receiver k sent) = some (isOpen k)

namespace Told

variable {isOpen isOpen' : κ → Bool} {sent : List (ι × ν)}

theorem nil : Told key mark receivers (fun _ => false) [] := fun _ _ _ => rfl

theorem wellBracketed (h : Told key mark receivers isOpen sent) {receiver : ι}
    (hreceiver : receiver ∈ receivers) (k : κ) :
    Blocks.WellBracketed (wordOf key mark receiver k sent) (isOpen k) :=
  Blocks.scan_eq_some_iff.mp (h receiver hreceiver k)

theorem alive_of_removed (h : Told key mark receivers isOpen sent) {receiver : ι}
    (hreceiver : receiver ∈ receivers) {n : ν}
    (hmark : mark n = .removed) {before after : List (ι × ν)}
    (hsent : sent = before ++ (receiver, n) :: after) :
    Blocks.Alive (wordOf key mark receiver (key n) before) := by
  have hscan := h receiver hreceiver (key n)
  rw [hsent, wordOf_append, wordOf_cons_self, hmark, Blocks.scan_append,
    Option.bind_eq_some_iff] at hscan
  obtain ⟨mid, hbefore, hafter⟩ := hscan
  rw [Blocks.isOpen_of_scan_removed hafter] at hbefore
  exact Blocks.alive_of_scan hbefore

/-- **One more notification.** It has to be one the protocol allows for its object, and it changes
nothing for the others. -/
theorem broadcast (hnodup : receivers.Nodup) (h : Told key mark receivers isOpen sent) {n : ν}
    (hnext : Blocks.next (isOpen (key n)) (mark n) = some (isOpen' (key n)))
    (hothers : ∀ k, k ≠ key n → isOpen' k = isOpen k) :
    Told key mark receivers isOpen' (sent ++ broadcast receivers n) := by
  intro receiver hreceiver k
  rw [wordOf_append, wordOf_broadcast hnodup hreceiver,
    Blocks.scan_append_of_scan (h receiver hreceiver k)]
  by_cases hk : key n = k
  · subst hk
    rw [if_pos rfl, Blocks.scan_cons, hnext]
    rfl
  · rw [if_neg hk, hothers k fun heq => hk heq.symm]
    rfl

end Told

/-! ### The life that goes on -/

/-- A notification ends what is known of the life of an object, or adds to it. -/
def lifeStep (key : ν → κ) (mark : ν → Mark) (receiver : ι) (k : κ) (life : List ν) (m : ι × ν) :
    List ν :=
  if m.1 = receiver ∧ key m.2 = k then
    if mark m.2 = .removed then [] else life ++ [m.2]
  else life

/-- What a listener was sent about an object since it was last told that it disappeared. -/
def currentLife (key : ν → κ) (mark : ν → Mark) (receiver : ι) (k : κ) (sent : List (ι × ν)) :
    List ν :=
  sent.foldl (lifeStep key mark receiver k) []

theorem currentLife_append (receiver : ι) (k : κ) (sent more : List (ι × ν)) :
    currentLife key mark receiver k (sent ++ more) =
      more.foldl (lifeStep key mark receiver k) (currentLife key mark receiver k sent) :=
  List.foldl_append

/-- The life of an object that is not open has been told to its end. -/
theorem Told.currentLife_eq_nil {isOpen : κ → Bool} {sent : List (ι × ν)}
    (h : Told key mark receivers isOpen sent) {receiver : ι} (hreceiver : receiver ∈ receivers)
    {k : κ} (hk : isOpen k = false) : currentLife key mark receiver k sent = [] := by
  have hscan := h receiver hreceiver k
  rw [hk] at hscan
  clear h hk
  induction sent using List.reverseRecOn with
  | nil => rfl
  | append_singleton sent m ih =>
      rw [currentLife_append, List.foldl_cons, List.foldl_nil, lifeStep]
      rw [wordOf_append, Blocks.scan_append, Option.bind_eq_some_iff] at hscan
      obtain ⟨mid, hsent, hlast⟩ := hscan
      by_cases hm : m.1 = receiver ∧ key m.2 = k
      · -- only a disappearance closes a life
        rw [if_pos hm, if_pos]
        rw [wordOf, List.filterMap_cons, if_pos hm, List.filterMap_nil, Blocks.scan_cons,
          Option.bind_eq_some_iff] at hlast
        obtain ⟨after, hnext, hafter⟩ := hlast
        cases hafter
        revert hnext
        cases mid <;> cases mark m.2 <;> simp [Blocks.next]
      · rw [if_neg hm]
        rw [wordOf, List.filterMap_cons, if_neg hm, List.filterMap_nil, Blocks.scan_nil] at hlast
        cases hlast
        exact ih hsent

end ArmOd
