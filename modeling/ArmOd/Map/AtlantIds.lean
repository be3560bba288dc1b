import ArmOd.Base.BiMap
import ArmOd.Base.Run
import ArmOd.Qt.ByteStream

/-!
# The ids of the Atlant sources

The map shows the position of a source under an id of its own, and the ids are given out one after
another. With the fiftieth all ids are taken back, the fiftieth among them, so that the source it was
for is shown under the id 0.
-/

namespace ArmOd

/-- The `double` of a bit pattern. -/
def Double.ofBits (bits : Nat) : Double :=
  let fraction : Nat := bits % 2 ^ 52
  let exponent : Nat := bits / 2 ^ 52 % 2 ^ 11
  let sign : ℚ := if bits < 2 ^ 63 then 1 else -1
  if exponent = 2047 then if fraction = 0 then .inf (decide (2 ^ 63 ≤ bits)) else .nan
  else if exponent = 0 then .fin (sign * fraction / 2 ^ 1074)
  else .fin (sign * (2 ^ 52 + fraction) * 2 ^ exponent / 2 ^ 1075)

namespace ByteReader

def readQuint64 : ByteReader Nat := fun data =>
  if data.length < 8 then (0, [])
  else ((data.take 8).foldl (fun n byte => n * 256 + byte.toNat) 0, data.drop 8)

def readDouble : ByteReader Double := return Double.ofBits (← readQuint64)

def readInt : ByteReader Int := return (← readQuint32).toInt32.toInt

end ByteReader

/-- `POSITION_ANSWER_MESSAGE`. -/
structure A_Pos_Ans_msg where
  requestId : Int
  sourceId : Int
  dateTime : Nat
  longitude : Double
  latitude : Double
  quality : Double

/-- The message in the argument of a call. -/
def A_Pos_Ans_msg.get : ByteReader A_Pos_Ans_msg := do
  let requestId ← ByteReader.readInt
  let sourceId ← ByteReader.readInt
  let dateTime ← ByteReader.readQuint64
  let latitude ← ByteReader.readDouble
  let longitude ← ByteReader.readDouble
  let quality ← ByteReader.readDouble
  return { requestId, sourceId, dateTime, longitude, latitude, quality }

def RPC_SLOT_SERVER_SEND_ATLANT_POSITION : String := "rpc_slot_server_send_atlant_position"

/-- What is set of the `UavInfo` that goes to the map. -/
structure EvilPosition where
  uavId : Int
  lon : Double
  lat : Double

/-- The ids, and what `addEnemyBpla` was called with for the positions. -/
structure MapController where
  m_mapPelengEvilIds : QMap Int Int := ∅
  m_pelengEvilIds : Int := 0
  shown : List EvilPosition := []

namespace MapController

/-- A call, and whether there is a map client to take it. -/
structure Call where
  client : Bool
  method : String
  argument : List UInt8

/-- The source gets the next id, unless it has one. -/
def assignId (sourceId : Int) (m : MapController) : MapController :=
  if m.m_mapPelengEvilIds.contains sourceId then m
  else
    let m := { m with
      m_mapPelengEvilIds := m.m_mapPelengEvilIds.insert sourceId (m.m_pelengEvilIds + 1)
      m_pelengEvilIds := m.m_pelengEvilIds + 1 }
    if m.m_pelengEvilIds > 49 then { m with m_pelengEvilIds := 0, m_mapPelengEvilIds := ∅ } else m

/-- The branch for a position. -/
def onAtlantPosition (msg : A_Pos_Ans_msg) (m : MapController) : MapController :=
  let m := m.assignId msg.sourceId
  { m with
    shown := m.shown ++ [{
      uavId := m.m_mapPelengEvilIds.getD msg.sourceId 0
      lon := msg.longitude
      lat := msg.latitude }] }

/-- The other methods do not come to the ids. -/
def onMethodCalled (m : MapController) (call : Call) : MapController :=
  if call.client && call.method == RPC_SLOT_SERVER_SEND_ATLANT_POSITION then
    m.onAtlantPosition (A_Pos_Ans_msg.get call.argument).1
  else m

/-- The source of a position that is handled. -/
def Call.sourceId? (call : Call) : Option Int :=
  if call.client && call.method == RPC_SLOT_SERVER_SEND_ATLANT_POSITION then
    some (A_Pos_Ans_msg.get call.argument).1.sourceId
  else none

/-- The last position is shown under the id that its source has. -/
def ShownUnderId (sourceId : Int) (m : MapController) : Prop :=
  ∃ uav, m.shown.getLast? = some uav ∧ 1 ≤ uav.uavId ∧ uav.uavId ≤ 50 ∧
    m.m_mapPelengEvilIds[sourceId]? = some uav.uavId

/-- After the call its position is shown under the id of its source, and no two sources have one
id. -/
def Numbers (m : MapController) (call : Call) : Prop :=
  (∀ sourceId, call.sourceId? = some sourceId →
    (m.onMethodCalled call).ShownUnderId sourceId) ∧
  (m.onMethodCalled call).m_mapPelengEvilIds.Injective

variable {m : MapController} {sourceId : Int} {seen : Finset Int} {msg : A_Pos_Ans_msg}
  {call : Call} {calls : List Call}

/-! ### The ids -/

/-- The ids of the sources seen so far. -/
structure Counted (seen : Finset Int) (m : MapController) : Prop where
  mem : ∀ a : Int, a ∈ m.m_mapPelengEvilIds ↔ a ∈ seen
  count : m.m_pelengEvilIds = seen.card
  bounds : ∀ {a id : Int}, m.m_mapPelengEvilIds[a]? = some id → 1 ≤ id ∧ id ≤ seen.card
  injective : m.m_mapPelengEvilIds.Injective

theorem assignId_of_mem (h : sourceId ∈ m.m_mapPelengEvilIds) : m.assignId sourceId = m :=
  if_pos h

theorem assignId_of_notMem (h : sourceId ∉ m.m_mapPelengEvilIds) : m.assignId sourceId =
    if m.m_pelengEvilIds + 1 > 49 then { m with m_pelengEvilIds := 0, m_mapPelengEvilIds := ∅ }
    else { m with
      m_mapPelengEvilIds := m.m_mapPelengEvilIds.insert sourceId (m.m_pelengEvilIds + 1)
      m_pelengEvilIds := m.m_pelengEvilIds + 1 } :=
  if_neg h

theorem counted_start : Counted ∅ {} where
  mem _ := iff_of_false Std.TreeMap.not_mem_emptyc (Finset.notMem_empty _)
  count := rfl
  bounds hget := absurd (QMap.mem_of_getElem? hget) Std.TreeMap.not_mem_emptyc
  injective := QMap.injective_empty

/-- **A new source**, short of the fiftieth. -/
theorem Counted.assignId (h : Counted seen m) (hnew : sourceId ∉ seen)
    (hroom : seen.card + 1 < 50) :
    Counted (insert sourceId seen) (m.assignId sourceId) := by
  have hfresh : sourceId ∉ m.m_mapPelengEvilIds := mt (h.mem sourceId).mp hnew
  have hcard : (insert sourceId seen).card = seen.card + 1 := Finset.card_insert_of_notMem hnew
  have hle : ¬m.m_pelengEvilIds + 1 > 49 := by
    rw [h.count]
    omega
  rw [assignId_of_notMem hfresh, if_neg hle]
  refine ⟨fun a => ?_, ?_, fun hget => ?_, h.injective.insert fun a hget => ?_⟩
  · rw [QMap.mem_insert, Finset.mem_insert, h.mem, eq_comm]
  · rw [hcard, h.count]
    push_cast
    rfl
  · rw [QMap.getElem?_insert] at hget
    rw [hcard]
    split at hget
    · cases hget
      rw [h.count]
      omega
    · have hbounds := h.bounds hget
      omega
  · have hbounds := h.bounds hget
    rw [h.count] at hbounds
    omega

/-- The fiftieth source leaves no ids. -/
theorem Counted.assignId_full (h : Counted seen m) (hnew : sourceId ∉ seen)
    (hfull : seen.card + 1 = 50) :
    m.assignId sourceId = { m with m_pelengEvilIds := 0, m_mapPelengEvilIds := ∅ } := by
  rw [assignId_of_notMem (mt (h.mem _).mp hnew), if_pos]
  rw [h.count]
  omega

/-! ### A call -/

theorem onMethodCalled_of_none (h : call.sourceId? = none) : m.onMethodCalled call = m := by
  rw [Call.sourceId?] at h
  rw [onMethodCalled]
  split at h
  · cases h
  · rw [if_neg ‹_›]

theorem onMethodCalled_of_some (h : call.sourceId? = some sourceId) :
    ∃ msg : A_Pos_Ans_msg, msg.sourceId = sourceId ∧
      m.onMethodCalled call = m.onAtlantPosition msg := by
  rw [Call.sourceId?] at h
  rw [onMethodCalled]
  split at h
  · rw [if_pos ‹_›]
    exact ⟨_, Option.some.inj h, rfl⟩
  · cases h

theorem shownUnderId_iff : (m.onAtlantPosition msg).ShownUnderId msg.sourceId ↔
    ∃ id, (m.assignId msg.sourceId).m_mapPelengEvilIds[msg.sourceId]? = some id ∧
      1 ≤ id ∧ id ≤ 50 := by
  rw [ShownUnderId, onAtlantPosition]
  simp only [List.getLast?_append, List.getLast?_singleton, Option.some_or, Option.some.injEq]
  constructor
  · rintro ⟨uav, -, hpos, hle, hget⟩
    exact ⟨_, hget, hpos, hle⟩
  · rintro ⟨id, hget, hpos, hle⟩
    have hvalue : (m.assignId msg.sourceId).m_mapPelengEvilIds.getD msg.sourceId 0 = id := by
      rw [Std.TreeMap.getD_eq_getD_getElem?, hget, Option.getD_some]
    exact ⟨_, rfl, hvalue ▸ hpos, hvalue ▸ hle, hvalue ▸ hget⟩

theorem Counted.shownUnderId (h : Counted seen (m.assignId msg.sourceId))
    (hmem : msg.sourceId ∈ seen) (hroom : seen.card < 50) :
    (m.onAtlantPosition msg).ShownUnderId msg.sourceId := by
  obtain ⟨id, hget⟩ := QMap.mem_iff.mp ((h.mem _).mpr hmem)
  have hbounds := h.bounds hget
  exact shownUnderId_iff.mpr ⟨id, hget, hbounds.1, by omega⟩

theorem Counted.not_shownUnderId (h : Counted seen m) (hnew : msg.sourceId ∉ seen)
    (hfull : seen.card + 1 = 50) : ¬(m.onAtlantPosition msg).ShownUnderId msg.sourceId := by
  rw [shownUnderId_iff, h.assignId_full hnew hfull]
  rintro ⟨id, hget, -⟩
  exact absurd (QMap.mem_of_getElem? hget) Std.TreeMap.not_mem_emptyc

theorem Counted.shown (h : Counted seen (m.assignId msg.sourceId)) :
    Counted seen (m.onAtlantPosition msg) :=
  ⟨h.mem, h.count, h.bounds, h.injective⟩

/-- **One position.** Its source has an id then, or is the fiftieth, and there are no ids. -/
theorem Counted.onAtlantPosition (h : Counted seen m) (hroom : seen.card < 50)
    (msg : A_Pos_Ans_msg) :
    ((insert msg.sourceId seen).card < 50 ∧
      (m.onAtlantPosition msg).ShownUnderId msg.sourceId ∧
      Counted (insert msg.sourceId seen) (m.onAtlantPosition msg)) ∨
    (¬(insert msg.sourceId seen).card < 50 ∧
      ¬(m.onAtlantPosition msg).ShownUnderId msg.sourceId ∧
      Counted ∅ (m.onAtlantPosition msg)) := by
  by_cases hold : msg.sourceId ∈ seen
  · -- the source has an id
    have hafter : Counted seen (m.assignId msg.sourceId) := by
      rwa [assignId_of_mem ((h.mem _).mpr hold)]
    rw [Finset.insert_eq_of_mem hold]
    exact Or.inl ⟨hroom, hafter.shownUnderId hold hroom, hafter.shown⟩
  · rw [Finset.card_insert_of_notMem hold]
    by_cases hlast : seen.card + 1 < 50
    · have hafter := h.assignId hold hlast
      have hcard := Finset.card_insert_of_notMem hold
      exact Or.inl ⟨hlast, hafter.shownUnderId (Finset.mem_insert_self _ _) (hcard ▸ hlast),
        hafter.shown⟩
    · -- the fiftieth source: its id is taken back at once
      have hfull : seen.card + 1 = 50 := by omega
      have hafter : Counted ∅ (m.assignId msg.sourceId) := by
        rw [h.assignId_full hold hfull]
        exact ⟨counted_start.mem, rfl, counted_start.bounds, counted_start.injective⟩
      exact Or.inr ⟨hlast, h.not_shownUnderId hold hfull, hafter.shown⟩

/-! ### A run -/

/-- The sources of the positions among the calls. -/
def sources (calls : List Call) : Finset Int := (calls.filterMap Call.sourceId?).toFinset

theorem sources_cons_of_none (h : call.sourceId? = none) :
    sources (call :: calls) = sources calls := by
  rw [sources, List.filterMap_cons_none h, sources]

theorem sources_cons_of_some (h : call.sourceId? = some sourceId) :
    sources (call :: calls) = insert sourceId (sources calls) := by
  rw [sources, List.filterMap_cons_some h, List.toFinset_cons, sources]

/-- **No two sources ever have one id**, in any run. -/
theorem injective_foldl_onMethodCalled (calls : List Call) :
    (calls.foldl onMethodCalled {}).m_mapPelengEvilIds.Injective := by
  have hstep : ∀ (m : MapController) (call : Call),
      (∃ seen, seen.card < 50 ∧ Counted seen m) → True →
        ∃ seen, seen.card < 50 ∧ Counted seen (m.onMethodCalled call) := by
    rintro m call ⟨seen, hroom, h⟩ -
    cases hcall : call.sourceId? with
    | none =>
        rw [onMethodCalled_of_none hcall]
        exact ⟨seen, hroom, h⟩
    | some sourceId =>
        obtain ⟨msg, -, hafter⟩ := onMethodCalled_of_some (m := m) hcall
        rw [hafter]
        rcases h.onAtlantPosition hroom msg with ⟨hroom', -, hnext⟩ | ⟨-, -, hnext⟩
        · exact ⟨_, hroom', hnext⟩
        · exact ⟨∅, by decide, hnext⟩
  obtain ⟨_, -, h⟩ := Along.invariant hstep ⟨∅, by decide, counted_start⟩
    (Along.of_forall fun _ _ => trivial)
  exact h.injective

/-- From ids that are counted, the run goes right as long as fewer than fifty sources are seen. -/
theorem Counted.along_iff (h : Counted seen m) (hroom : seen.card < 50) :
    Along onMethodCalled Numbers m calls ↔ (seen ∪ sources calls).card < 50 := by
  induction calls generalizing seen m with
  | nil =>
      refine iff_of_true trivial ?_
      rwa [sources, List.filterMap_nil, List.toFinset_nil, Finset.union_empty]
  | cons call calls ih =>
      rw [Along.cons]
      cases hcall : call.sourceId? with
      | none =>
          have hlaw : m.Numbers call := by
            rw [Numbers, onMethodCalled_of_none hcall, hcall]
            exact ⟨nofun, h.injective⟩
          rw [sources_cons_of_none hcall, onMethodCalled_of_none hcall, and_iff_right hlaw]
          exact ih h hroom
      | some sourceId =>
          obtain ⟨msg, rfl, hstep⟩ := onMethodCalled_of_some (m := m) hcall
          have hlaw (hinj : (m.onAtlantPosition msg).m_mapPelengEvilIds.Injective) :
              m.Numbers call ↔ (m.onAtlantPosition msg).ShownUnderId msg.sourceId := by
            rw [Numbers, hcall, hstep, and_iff_left hinj]
            exact ⟨fun hshown => hshown _ rfl, fun hshown _ heq => Option.some.inj heq ▸ hshown⟩
          rw [sources_cons_of_some hcall, Finset.union_insert, ← Finset.insert_union]
          rcases h.onAtlantPosition hroom msg with ⟨hroom', hshown, hnext⟩ | ⟨hfull, hlost, hnext⟩
          · rw [hlaw hnext.injective, hstep, and_iff_right hshown, ih hnext hroom']
          · rw [hlaw hnext.injective]
            refine iff_of_false (fun hrun => hlost hrun.1) fun hlt => hfull ?_
            exact (Finset.card_le_card Finset.subset_union_left).trans_lt hlt

/-- **Every position is shown under the id of its source**, and no two sources have one id, exactly in
the runs with fewer than fifty sources. -/
theorem along_numbers_iff (calls : List Call) :
    Along onMethodCalled Numbers {} calls ↔ (sources calls).card < 50 := by
  rw [counted_start.along_iff (by decide), Finset.empty_union]

/-- A position of the source. -/
def positionOf (sourceId : Nat) : Call where
  client := true
  method := RPC_SLOT_SERVER_SEND_ATLANT_POSITION
  argument := bigEndian 0 ++ bigEndian (UInt32.ofNat sourceId) ++ List.replicate 32 0

/-- Fifty sources, one after another. -/
theorem not_along_numbers : ¬∀ calls, Along onMethodCalled Numbers {} calls := by
  intro h
  have hrun := counted_start.along_iff (by decide) |>.mp (h ((List.range 50).map positionOf))
  revert hrun
  decide +kernel

end MapController

end ArmOd
