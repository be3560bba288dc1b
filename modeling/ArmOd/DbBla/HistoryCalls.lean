import ArmOd.DbBla.UavHistory

/-!
# Calls from another thread

A caller in another thread posts its command and runs an event loop until the object emits
`startFinished`. The command is handled some time later, in whatever state the object is in then.
-/

namespace ArmOd

/-- The query has a first row. -/
def QueryResult.hasRow : QueryResult → Bool
  | .rows (_ :: _) => true
  | _ => false

namespace UavHistory

/-- The signals emitted while a command is handled. -/
def signalsOf (handler : UavHistory → UavHistory) (h : UavHistory) : List HistorySignal :=
  (handler { h with emitted := [] }).emitted

/-- `start` returns to a caller in another thread: it returns at once, or its loop quits. -/
def StartReturns (caller worker : UavHistory) (result : QueryResult) (mode : Int) : Prop :=
  caller.databaseValid = false ∨
    HistorySignal.startFinished ∈ signalsOf (startInternal result mode) worker

/-- `stop` returns to a caller in another thread. -/
def StopReturns (caller worker : UavHistory) : Prop :=
  caller.getStatus = .Ready ∨ HistorySignal.startFinished ∈ signalsOf stopInternal worker

instance (caller worker : UavHistory) (result : QueryResult) (mode : Int) :
    Decidable (StartReturns caller worker result mode) := inferInstanceAs (Decidable (_ ∨ _))

instance (caller worker : UavHistory) : Decidable (StopReturns caller worker) :=
  inferInstanceAs (Decidable (_ ∨ _))

theorem emitted_stopInternal (h : UavHistory) : h.stopInternal.emitted = h.emitted ++
    [.stopFinished] := by
  have htold := foldl_keeps (fun h id => h.notify (h.removed id)) emitted (fun _ _ => rfl) h
    h.m_knownUavsList.keys
  exact congrArg (· ++ [HistorySignal.stopFinished]) htold

theorem startFinished_notMem_stop {h : UavHistory}
    (hemitted : HistorySignal.startFinished ∉ h.emitted) :
    HistorySignal.startFinished ∉ h.stop.emitted := by
  rw [stop]
  split
  · exact hemitted
  · rw [emitted_stopInternal, emit]
    simpa using hemitted

theorem startFinished_mem_signalsOf_startInternal (result : QueryResult) (mode : Int)
    (h : UavHistory) :
    HistorySignal.startFinished ∈ signalsOf (startInternal result mode) h ↔
      result.hasRow = false ∨ mode = 0 ∨ mode = 1 := by
  have hemit : ∀ h' : UavHistory, HistorySignal.startFinished ∈ (h'.emit .startFinished).emitted :=
    fun h' => List.mem_append_right _ List.mem_cons_self
  have hstop : HistorySignal.startFinished ∉ (stop { h with emitted := [] }).emitted :=
    startFinished_notMem_stop List.not_mem_nil
  rcases result with _ | _ | ⟨row, rest⟩
  · exact iff_of_true (hemit _) (Or.inl rfl)
  · exact iff_of_true (hemit _) (Or.inl rfl)
  · simp only [signalsOf, startInternal, QueryResult.hasRow, Bool.true_eq_false, false_or]
    by_cases hplay : mode = 0
    · rw [if_pos hplay]
      exact iff_of_true (hemit _) (Or.inl hplay)
    by_cases hexport : mode = 1
    · rw [if_neg hplay, if_pos hexport]
      exact iff_of_true (hemit _) (Or.inr hexport)
    · rw [if_neg hplay, if_neg hexport]
      exact iff_of_false hstop (not_or.mpr ⟨hplay, hexport⟩)

/-- **When the calls return.** A start returns unless rows are found for a mode that is neither the
replay nor the export; a stop waits for a signal its handler never emits, and returns only where
there was nothing to stop. -/
theorem callsReturn_iff (caller worker : UavHistory) (result : QueryResult) (mode : Int) :
    (StartReturns caller worker result mode ↔
        caller.databaseValid = false ∨ result.hasRow = false ∨ mode = 0 ∨ mode = 1) ∧
      (StopReturns caller worker ↔ caller.getStatus = .Ready) := by
  refine ⟨or_congr_right (startFinished_mem_signalsOf_startInternal result mode worker), ?_⟩
  refine or_iff_left fun hmem => ?_
  rw [signalsOf, emitted_stopInternal] at hmem
  simp at hmem

/-- A replay that plays. -/
def playing : UavHistory :=
  { constructed true true true 30000 [0] with m_timer := true, m_query := ⟨some {}, []⟩ }

/-- Stopping a replay from another thread never returns. -/
theorem calls_hang : ¬ ∀ (caller worker : UavHistory) (result : QueryResult) (mode : Int),
    StartReturns caller worker result mode ∧ StopReturns caller worker := by
  intro hreturn
  exact absurd (hreturn playing playing .error 0).2 (by decide +kernel)

end UavHistory

end ArmOd
