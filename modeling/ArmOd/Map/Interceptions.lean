import ArmOd.Base.Run
import ArmOd.Map.Shapes
import ArmOd.Qt.Decimal
import ArmOd.Uav.InterceptionAxes

/-!
# The interceptions on the map

The map orders an interception from a thread of its own: the order waits in the queue of that
thread, the point it finds waits in the queue of the map, and the feature of the pair is made or
moved when the map gets there. The pair is given up without the queues. A point that is on its way
then, or an order that will find one, puts the feature of a pair on the map that nobody is going to
take off.
-/

namespace ArmOd

namespace MapFeature

variable {K : Type} [Field K] [LinearOrder K]

/-- The circle of an interception, with what its caption tells. -/
structure InterceptionCircle (K : Type) where
  originPoint : Point K
  radius : Int
  caption : List K

structure Interception (K : Type) where
  m_friendBplaId : Int
  m_enemyBplaId : Int
  m_position : Point K
  m_height : K
  m_radius : K
  m_course : K
  m_speed : K
  m_circle : MapShape (InterceptionCircle K)

namespace Interception

/-- `truncate` is the conversion of a `float` to the radius of the circle. -/
def updatePresentation (truncate : K → Int) (intc : Interception K) : Interception K :=
  { intc with
    m_circle := { intc.m_circle with
      attributes := { intc.m_circle.attributes with
        radius := truncate intc.m_radius
        caption := [intc.m_height, intc.m_radius, intc.m_course, intc.m_speed] } } }

/-- A circle without a radius is not drawn. -/
def updateMap (intc : Interception K) : Interception K :=
  if intc.m_circle.attributes.radius ≤ 0 then intc
  else { intc with m_circle := intc.m_circle.updateMap }

def create (truncate : K → Int) (call : PerehvatPoint K) : Interception K :=
  updatePresentation truncate
    { m_friendBplaId := call.blaId, m_enemyBplaId := call.bplaId, m_position := call.coord,
      m_height := call.hgt, m_radius := call.radius, m_course := call.intcCourse,
      m_speed := call.intcSpeed,
      m_circle := { attributes := { originPoint := call.coord, radius := 0, caption := [] } } }

/-- `same` is `==` of two positions. -/
def update (truncate : K → Int) (same : Point K → Point K → Bool) (call : PerehvatPoint K)
    (intc : Interception K) : Interception K :=
  let moved := !same call.coord intc.m_position
  let changed := moved || decide (call.hgt ≠ intc.m_height ∨ call.radius ≠ intc.m_radius ∨
    call.intcCourse ≠ intc.m_course ∨ call.intcSpeed ≠ intc.m_speed)
  let intc := if moved then
      { intc with
        m_position := call.coord
        m_circle := { intc.m_circle with
          attributes := { intc.m_circle.attributes with originPoint := call.coord } } }
    else intc
  let intc := { intc with
    m_height := call.hgt, m_radius := call.radius, m_course := call.intcCourse,
    m_speed := call.intcSpeed }
  if changed then (updatePresentation truncate intc).updateMap else intc

end Interception

end MapFeature

namespace Interceptions

open MapFeature

variable {K : Type} [Field K] [LinearOrder K]

theorem maxSpd_pos [IsStrictOrderedRing K] : 0 < ((30 : Nat) : K) :=
  Nat.cast_pos.mpr (by decide)

theorem maxHgtSpd_pos [IsStrictOrderedRing K] : 0 < ((5 : Nat) : K) :=
  Nat.cast_pos.mpr (by decide)

/-- The order that `addPerehvatData` gives, as `_slot_set` takes it: the interceptor has the speeds
30 and 5. -/
def order [IsStrictOrderedRing K] (pair : Int × Int) (bla bpla : Fix K) : ZInterception K where
  _bla := pair.1
  _bpla := pair.2
  mCoordCurrentIntc := ⟨bla.lon, bla.lat⟩
  mHgtCurrentIntc := bla.alt
  mMaxSpd := (30 : Nat)
  mMaxHgtSpd := (5 : Nat)
  mCoordCurrentAim := ⟨bpla.lon, bpla.lat⟩
  mHgtCurrentAim := bpla.alt
  mCurrentAimSpd := bpla.speed
  mCurrentAimCourse := bpla.yaw
  mMaxSpd_pos := maxSpd_pos
  mMaxHgtSpd_pos := maxHgtSpd_pos

/-- The order is what the thread receives of the last records of the two. -/
theorem received_order [IsStrictOrderedRing K] {bla bpla : Fix K}
    {blaInfoList bplaInfoList : List UavInfo} (pair : Int × Int)
    (hbla : (blaInfoList.getLast?.bind UavInfo.fix?) = some bla)
    (hbpla : (bplaInfoList.getLast?.bind UavInfo.fix?) = some bpla) :
    ZInterception.received pair.1 pair.2 blaInfoList bplaInfoList = some (order pair bla bpla) := by
  rw [ZInterception.received_eq pair.1 pair.2 hbla hbpla]
  simp only [order, Nat.cast_ofNat]

/-- The map sends the longitude in front of the latitude. -/
example : ZInterception.received 1 2 [ZInterception.recordAt 60 30 0]
    [ZInterception.recordAt 61 31 45] =
      some (order (1, 2) (⟨60, 30, 500, 10, 0⟩ : Fix ℚ) ⟨61, 31, 500, 10, 45⟩) :=
  received_order (1, 2) (by decide +kernel) (by decide +kernel)

/-- `QString( "%1-%2" ).arg( friendBplaId ).arg( enemyBplaId )`. -/
def interceptionKey (pair : Int × Int) : String :=
  String.ofList (Text.number pair.1 ++ '-' :: Text.number pair.2)

structure State (K : Type) [Field K] [LinearOrder K] where
  m_interceptionList : QMap String (Interception K) := ∅
  /-- The orders that the thread has not come to. -/
  orders : List (ZInterception K) := []
  /-- The points that the map has not come to. -/
  points : List (PerehvatPoint K) := []
  /-- The pairs whose boxes are checked. -/
  checked : List (Int × Int) := []

/-- What the interceptions are made of. -/
structure Parts (K : Type) where
  functions : Functions K
  truncate : K → Int
  same : Point K → Point K → Bool

variable (parts : Parts K)

/-- What `mainProcessing` calls for an order. -/
def found (z : ZInterception K) : List (PerehvatPoint K) :=
  (ZInterception.mainProcessing parts.functions z ZInterception.aAllTime).calls

def addInterceptionPointData (m_interceptionList : QMap String (Interception K))
    (call : PerehvatPoint K) : QMap String (Interception K) :=
  let key := interceptionKey (call.blaId, call.bplaId)
  match m_interceptionList[key]? with
  | some intc => m_interceptionList.insert key (intc.update parts.truncate parts.same call)
  | none => m_interceptionList.insert key (Interception.create parts.truncate call).updateMap

inductive Action (K : Type) where
  /-- A box is checked: `addPerehvatData`. -/
  | check (pair : Int × Int) (bla bpla : Fix K)
  /-- The thread takes its next order. -/
  | process
  /-- The map takes its next point. -/
  | deliver
  /-- A box is unchecked: `removeInterceptionData`. -/
  | uncheck (pair : Int × Int)

def step [IsStrictOrderedRing K] (s : State K) : Action K → State K
  | .check pair bla bpla =>
    { s with orders := s.orders ++ [order pair bla bpla], checked := s.checked.insert pair }
  | .process =>
    match s.orders with
    | [] => s
    | z :: orders => { s with orders, points := s.points ++ found parts z }
  | .deliver =>
    match s.points with
    | [] => s
    | call :: points =>
      { s with
        points
        m_interceptionList := addInterceptionPointData parts s.m_interceptionList call }
  | .uncheck pair =>
    { s with
      m_interceptionList := s.m_interceptionList.erase (interceptionKey pair)
      checked := s.checked.filter fun other => other ≠ pair }

/-- The points that are on their way, and those that the orders will find. -/
def pending (s : State K) : List (PerehvatPoint K) :=
  s.points ++ s.orders.flatMap (found parts)

def pairOf (call : PerehvatPoint K) : Int × Int := (call.blaId, call.bplaId)

/-- The list when nobody touches a box any more and the queues have been worked off. -/
def settled (s : State K) : QMap String (Interception K) :=
  (pending parts s).foldl (addInterceptionPointData parts) s.m_interceptionList

/-- Once the queues are worked off the map shows checked pairs only. -/
def NoStale (s : State K) : Prop :=
  ∀ pair, interceptionKey pair ∈ settled parts s → pair ∈ s.checked

/-- A pair is given up when no point of it is on its way or will be found. -/
def Quiet (s : State K) : Action K → Prop
  | .uncheck pair => ∀ call ∈ pending parts s, pairOf call ≠ pair
  | _ => True

variable {parts : Parts K} {s : State K} {pair : Int × Int} {call : PerehvatPoint K}
  {calls : List (PerehvatPoint K)} {list : QMap String (Interception K)}

/-! ### Keys -/

theorem toDigits_injective {a b : Nat} (h : Nat.toDigits 10 a = Nat.toDigits 10 b) : a = b := by
  have hvalue := congrArg (fun digits => Nat.ofDigitChars 10 digits 0) h
  rwa [Nat.ofDigitChars_ten_toDigits, Nat.ofDigitChars_ten_toDigits] at hvalue

theorem cut_inj {digits digits' front back : Text} (h : '-' ∉ digits) (h' : '-' ∉ digits')
    (heq : digits ++ '-' :: front = digits' ++ '-' :: back) : digits = digits' ∧ front = back := by
  have htake : ∀ {ds rest : Text}, '-' ∉ ds → (ds ++ '-' :: rest).takeWhile (· != '-') = ds := by
    intro ds rest hds
    have hall : ∀ c ∈ ds, (c != '-') = true := fun c hc =>
      bne_iff_ne.mpr fun hminus => hds (by rwa [← hminus])
    rw [List.takeWhile_append_of_pos hall, List.takeWhile_cons_of_neg (by decide), List.append_nil]
  have hdigits : digits = digits' := by
    rw [← htake h, heq, htake h']
  rw [hdigits] at heq
  exact ⟨hdigits, (List.cons.inj (List.append_cancel_left heq)).2⟩

theorem number_append_inj {a b : Int} {front back : Text}
    (h : Text.number a ++ '-' :: front = Text.number b ++ '-' :: back) : a = b ∧ front = back := by
  have hdigits : ∀ n : Nat, '-' ∉ Nat.toDigits 10 n := fun n =>
    Text.notMem_of_isDigit Text.isDigit_of_mem_toDigits (by decide)
  have hhead : ∀ (n : Nat) (rest : Text), (Nat.toDigits 10 n ++ rest).head? ≠ some '-' := by
    intro n rest hminus
    obtain ⟨c, digits, hc⟩ := List.exists_cons_of_ne_nil (Nat.toDigits_ne_nil (b := 10) (n := n))
    rw [hc] at hminus
    exact hdigits n (by rw [hc, Option.some.inj hminus]; exact List.mem_cons_self)
  have hcut : ∀ {m n : Nat}, Nat.toDigits 10 m ++ '-' :: front = Nat.toDigits 10 n ++ '-' :: back →
      m = n ∧ front = back := by
    intro m n heq
    obtain ⟨hsame, hrest⟩ := cut_inj (hdigits m) (hdigits n) heq
    exact ⟨toDigits_injective hsame, hrest⟩
  rw [Text.number, Text.number] at h
  by_cases ha : a < 0 <;> by_cases hb : b < 0
  · rw [if_pos ha, if_pos hb] at h
    obtain ⟨habs, hrest⟩ := hcut (List.cons.inj h).2
    exact ⟨by omega, hrest⟩
  · rw [if_pos ha, if_neg hb] at h
    exact absurd (congrArg List.head? h.symm) (hhead _ _)
  · rw [if_neg ha, if_pos hb] at h
    exact absurd (congrArg List.head? h) (hhead _ _)
  · rw [if_neg ha, if_neg hb] at h
    obtain ⟨habs, hrest⟩ := hcut h
    exact ⟨by omega, hrest⟩

theorem number_injective : Function.Injective Text.number := fun _ _ h =>
  (number_append_inj (congrArg (fun text => text ++ ['-']) h)).1

theorem interceptionKey_injective : Function.Injective interceptionKey := by
  intro a b h
  obtain ⟨hbla, hbpla⟩ := number_append_inj (String.ofList_injective h)
  exact Prod.ext hbla (number_injective hbpla)

/-! ### The list -/

omit [Field K] in
theorem mem_addInterceptionPointData :
    interceptionKey pair ∈ addInterceptionPointData parts list call ↔
      pairOf call = pair ∨ interceptionKey pair ∈ list := by
  have hkey : interceptionKey (call.blaId, call.bplaId) = interceptionKey pair ↔
      pairOf call = pair := interceptionKey_injective.eq_iff
  rw [addInterceptionPointData]
  split <;> rw [QMap.mem_insert, hkey]

omit [Field K] in
theorem mem_foldl_addInterceptionPointData :
    interceptionKey pair ∈ calls.foldl (addInterceptionPointData parts) list ↔
      (∃ call ∈ calls, pairOf call = pair) ∨ interceptionKey pair ∈ list := by
  induction calls generalizing list with
  | nil => simp
  | cons call calls ih =>
      rw [List.foldl_cons, ih, mem_addInterceptionPointData, List.exists_mem_cons_iff]
      exact or_left_comm.trans or_assoc.symm

/-- The thread works an order off: it comes to the end of the hour. -/
theorem found_earliest (parts : Parts K) (z : ZInterception K) :
    ZInterception.Earliest parts.functions z (found parts z) := by
  have hround : ∀ s, ZInterception.Searched parts.functions z s →
      decide (s.i < ZInterception.aAllTime) = true →
      ZInterception.Searched parts.functions z (ZInterception.searchSecond parts.functions z s) ∧
        ZInterception.aAllTime - (ZInterception.searchSecond parts.functions z s).i <
          ZInterception.aAllTime - s.i := by
    intro s h hs
    have hlt : s.i < ZInterception.aAllTime := of_decide_eq_true hs
    refine ⟨h.searchSecond hlt, ?_⟩
    have hmeasure := ZInterception.lt_searchSecond (f := parts.functions) (z := z) hlt
    omega
  obtain ⟨n, hn, hended, hsearched⟩ := exists_ended (fun s => ZInterception.aAllTime - s.i)
    (ZInterception.Searched parts.functions z) (ZInterception.Searched parts.functions z) hround
    (fun s h _ => h) ZInterception.searched_start
  rw [found, ZInterception.mainProcessing, rounds_of_ended hended (hn.trans (Nat.sub_le _ _))]
  exact hsearched.earliest (Nat.not_lt.mp (of_decide_eq_false hended))

theorem pairOf_found {z : ZInterception K} (h : call ∈ found parts z) :
    pairOf call = (z._bla, z._bpla) := by
  obtain ⟨i, -, -, rfl⟩ := ZInterception.exists_of_mem_calls h
  rfl

theorem noStale_iff : NoStale parts s ↔
    (∀ call ∈ pending parts s, pairOf call ∈ s.checked) ∧
      ∀ pair, interceptionKey pair ∈ s.m_interceptionList → pair ∈ s.checked := by
  rw [NoStale]
  simp only [settled, mem_foldl_addInterceptionPointData]
  constructor
  · exact fun h => ⟨fun call hcall => h _ (Or.inl ⟨call, hcall, rfl⟩), fun pair hpair =>
      h pair (Or.inr hpair)⟩
  · rintro ⟨hpending, hlist⟩ pair (⟨call, hcall, rfl⟩ | hpair)
    · exact hpending call hcall
    · exact hlist pair hpair

/-! ### One step -/

variable [IsStrictOrderedRing K]

theorem pending_check (bla bpla : Fix K) :
    pending parts (step parts s (.check pair bla bpla)) =
      pending parts s ++ found parts (order pair bla bpla) := by
  rw [pending, step, pending, List.append_assoc]
  exact congrArg (s.points ++ ·) (List.flatMap_append.trans (by rw [List.flatMap_singleton]))

theorem pending_process : pending parts (step parts s .process) = pending parts s := by
  rw [step]
  split
  · rfl
  · rename_i z orders horders
    rw [pending, pending, horders, List.flatMap_cons, List.append_assoc]

/-- What the thread and the map do changes nothing about what it comes to. -/
theorem settled_process : settled parts (step parts s .process) = settled parts s := by
  have hlist : (step parts s .process).m_interceptionList = s.m_interceptionList := by
    rw [step]
    split <;> rfl
  rw [settled, pending_process, hlist, settled]

theorem settled_deliver : settled parts (step parts s .deliver) = settled parts s := by
  rw [step]
  split
  · rfl
  · rename_i call points hpoints
    rw [settled, settled, pending, pending, hpoints, List.cons_append, List.foldl_cons]

theorem checked_process : (step parts s .process).checked = s.checked := by
  rw [step]
  split <;> rfl

theorem checked_deliver : (step parts s .deliver).checked = s.checked := by
  rw [step]
  split <;> rfl

/-- **One step.** Where nothing stale is to come, a step keeps it so exactly when it is quiet. -/
theorem noStale_step_iff (h : NoStale parts s) (action : Action K) :
    NoStale parts (step parts s action) ↔ Quiet parts s action := by
  cases action with
  | process =>
      refine iff_of_true ?_ trivial
      rwa [NoStale, settled_process, checked_process]
  | deliver =>
      refine iff_of_true ?_ trivial
      rwa [NoStale, settled_deliver, checked_deliver]
  | check pair bla bpla =>
      refine iff_of_true ?_ trivial
      obtain ⟨hpending, hlist⟩ := noStale_iff.mp h
      refine noStale_iff.mpr ⟨fun call hcall => ?_, fun other hother =>
        List.mem_insert_of_mem (hlist other hother)⟩
      rw [pending_check] at hcall
      obtain hcall | hcall := List.mem_append.mp hcall
      · exact List.mem_insert_of_mem (hpending call hcall)
      · rw [pairOf_found hcall]
        exact List.mem_insert_self
  | uncheck pair =>
      obtain ⟨hpending, hlist⟩ := noStale_iff.mp h
      have hchecked : ∀ other, other ∈ (step parts s (.uncheck pair)).checked ↔
          other ∈ s.checked ∧ other ≠ pair := by
        intro other
        rw [step, List.mem_filter, decide_eq_true_iff]
      rw [noStale_iff, Quiet]
      constructor
      · exact fun ⟨hall, _⟩ call hcall => ((hchecked _).mp (hall call hcall)).2
      · intro hquiet
        refine ⟨fun call hcall => (hchecked _).mpr ⟨hpending call hcall, hquiet call hcall⟩,
          fun other hother => ?_⟩
        obtain ⟨hne, hold⟩ := QMap.mem_erase.mp hother
        exact (hchecked _).mpr ⟨hlist other hold, fun heq => hne (by rw [heq])⟩

/-- **Over any order of the steps of the user, the thread and the map**: what the queues still hold
puts no pair on the map that was given up, in any state that is reached, exactly when every pair was
given up while nothing of it was on its way. -/
theorem noStale_along_iff (parts : Parts K) (actions : List (Action K)) :
    (∀ before, before <+: actions → NoStale parts (before.foldl (step parts) {})) ↔
      Along (step parts) (Quiet parts) {} actions := by
  have hstart : NoStale parts ({} : State K) := fun pair hpair =>
    absurd hpair Std.TreeMap.not_mem_emptyc
  rw [Along.forall_prefix_iff, and_iff_right hstart]
  exact Along.congr (fun _ _ _ hnext => hnext) (fun s action h => noStale_step_iff h action) hstart

/-- A plane where nothing is far away. -/
def near : Parts ℚ where
  functions := ⟨fun _ => 0, fun _ => 0, fun _ => 0, fun _ => 0⟩
  truncate := fun q => q.floor
  same := fun a b => decide (a = b)

/-- A box that is checked and unchecked at once leaves an order that finds a point. -/
theorem not_noStale_unchecked :
    ¬ ∀ before, before <+: [Action.check (1, 2) ⟨0, 0, 1000, 0, 0⟩ ⟨0, 0, 0, 0, 0⟩,
      Action.uncheck (1, 2)] → NoStale near (before.foldl (step near) {}) := by
  rw [noStale_along_iff near]
  rintro ⟨-, hquiet, -⟩
  have hcan : ZInterception.CanIntercept near.functions
      (order (1, 2) ⟨0, 0, 1000, 0, 0⟩ ⟨0, 0, 0, 0, 0⟩) 1 := by
    rw [ZInterception.CanIntercept, ZInterception.timeToIntercept, ZInterception.getDistance,
      ZInterception.timeToHgtIntercept]
    norm_num [near, order]
  have hpending : pending near (step near {} (.check (1, 2) ⟨0, 0, 1000, 0, 0⟩ ⟨0, 0, 0, 0, 0⟩)) =
      found near (order (1, 2) ⟨0, 0, 1000, 0, 0⟩ ⟨0, 0, 0, 0, 0⟩) := by
    rw [pending_check]
    rfl
  obtain ⟨i, -, -, -, hcalls⟩ | ⟨hnone, -⟩ :=
    found_earliest near (order (1, 2) ⟨0, 0, 1000, 0, 0⟩ ⟨0, 0, 0, 0, 0⟩)
  · refine hquiet (ZInterception.perehvatPoint near.functions
      (order (1, 2) ⟨0, 0, 1000, 0, 0⟩ ⟨0, 0, 0, 0, 0⟩) i) ?_ rfl
    rw [hpending, hcalls]
    exact List.mem_singleton_self _
  · exact hnone 1 (by decide) hcan

end Interceptions

end ArmOd
