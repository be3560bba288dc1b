import ArmOd.Log.RollOver

/-!
# Rolling over where a call fails

The rotation itself loses nothing but the last backup. After a call that failed the manager opens
its file, which still holds the messages, and empties it; the engine leaves its file closed, and
what it is given from then on is dropped.
-/

namespace ArmOd

/-- No message is lost but those of the last backup, where it was removed, the files of no slot stay
what they are, and the next message comes to the file. -/
structure Safe (fileName : String) (max : Nat) (fails : String → Bool) (s s' : LogDisk) : Prop where
  kept : s.files.entries (logSlot fileName) max ≤ s'.files.entries (logSlot fileName) max +
    if fails (backup fileName max) then 0 else s.files.content (backup fileName max)
  frame : ∀ n, (∀ k ≤ max, n ≠ logSlot fileName k) → s'.files n = s.files n
  accepts : ∀ message, (s'.write fileName message).files fileName =
    some ((s'.files fileName).getD [] ++ [message])

variable {fileName n : String} {fails : String → Bool} {files : Files String (List LogMessage)}
  {s : LogDisk} {mode : OpenMode} {i : Nat}

theorem accepts_iff : (∀ message, (s.write fileName message).files fileName =
    some ((s.files fileName).getD [] ++ [message])) ↔ s.device.isSome := by
  obtain ⟨files, device⟩ := s
  cases device with
  | some mode => exact iff_of_true (fun message => Function.update_self ..) rfl
  | none =>
      refine iff_of_false (fun haccepts => ?_) Bool.false_ne_true
      have hsame : files fileName = some ((files fileName).getD [] ++ [[]]) := haccepts []
      have hlength := congrArg (fun content => (content.getD []).length) hsame
      simp at hlength

theorem entries_rotateLog : files.entries (logSlot fileName) (i + 1) =
    (rotateLog fileName fails i files).1.entries (logSlot fileName) (i + 1) +
      if fails (backup fileName (i + 1 : Nat)) then 0
      else files.content (backup fileName (i + 1 : Nat)) := by
  rw [← logSlot_succ]
  exact Files.entries_rotate (logSlot_injective fileName)

theorem frame_rotateLog (hn : ∀ k ≤ i + 1, n ≠ logSlot fileName k) :
    (rotateLog fileName fails i files).1 n = files n :=
  Files.rotate_frame hn

theorem content_rotateLog : (rotateLog fileName fails i files).1.content fileName = 0 ↔
    Files.NoFailure (logSlot fileName) fails (i + 1) files ∨ (files fileName).getD [] = [] := by
  cases hdone : (rotateLog fileName fails i files).2 with
  | true =>
      have hok := Files.noFailure_of_rotate (logSlot_injective fileName) hdone
      have hcurrent := (Files.rotated_rotate (logSlot_injective fileName) hok).2.current
      refine iff_of_true ?_ (Or.inl hok)
      rw [Files.content]
      exact congrArg (fun content => ((content.getD [] : List LogMessage) : Multiset LogMessage))
        hcurrent
  | false =>
      have hfailed : ¬Files.NoFailure (logSlot fileName) fails (i + 1) files := fun hok =>
        absurd (hdone.symm.trans (Files.rotated_rotate (logSlot_injective fileName) hok).1)
          Bool.false_ne_true
      have hcurrent : (rotateLog fileName fails i files).1 fileName = files fileName :=
        Files.current_rotate (logSlot_injective fileName) hdone
      rw [or_iff_right hfailed, Files.content, hcurrent]
      exact Multiset.coe_eq_zero _

/-- The file may be emptied where there is nothing in it. -/
theorem safe_of_content
    (hempty : (rotateLog fileName fails i s.files).1.content fileName = 0) :
    Safe fileName (i + 1) fails s
      { files := Function.update (rotateLog fileName fails i s.files).1 fileName (some [])
        device := some mode } where
  kept := by
    have hcleared := @Files.entries_clear _ _ (logSlot fileName) (i + 1) _
      (rotateLog fileName fails i s.files).1 (logSlot_injective _)
    rw [logSlot_zero, hempty, add_zero] at hcleared
    rw [entries_rotateLog, hcleared]
  frame := by
    intro n hn
    have hother : n ≠ fileName := hn 0 (Nat.zero_le _)
    dsimp only
    rw [Function.update_of_ne hother, frame_rotateLog hn]
  accepts := accepts_iff.mpr rfl

/-- **The manager** is safe where no call fails, or the file is empty. -/
theorem safe_manager_iff {log : LogManager} (h : log.m_maxBackup.toInt = i + 1) :
    Safe log.m_fileName (i + 1) fails s (log.rollOver fails s) ↔
      Files.NoFailure (logSlot log.m_fileName) fails (i + 1) s.files ∨
        (s.files log.m_fileName).getD [] = [] := by
  rw [← content_rotateLog, LogManager.rollOver_eq h]
  refine ⟨fun hsafe => ?_, safe_of_content⟩
  have hkept := hsafe.kept
  have hcleared := @Files.entries_clear _ _ (logSlot log.m_fileName) (i + 1) _
    (rotateLog log.m_fileName fails i s.files).1 (logSlot_injective _)
  rw [logSlot_zero] at hcleared
  rw [entries_rotateLog, hcleared] at hkept
  -- what is emptied has to fit beside what stays
  have hfits := le_of_add_le_add_right hkept
  exact Multiset.le_zero.mp (le_of_add_le_add_left (hfits.trans_eq (add_zero _).symm))

/-- **The engine** is safe where no call fails. -/
theorem safe_engine_iff {log : RollerFileLoggerEngine} (h : log.m_maxBackup.toNat = i + 1)
    (hlt : i < 2 ^ 31) (hopen : s.device = some mode) :
    Safe log.logFileName (i + 1) fails s (log.rollOver fails s) ↔
      Files.NoFailure (logSlot log.logFileName) fails (i + 1) s.files := by
  rw [RollerFileLoggerEngine.rollOver_eq h hlt]
  constructor
  · intro hsafe
    refine Files.noFailure_of_rotate (logSlot_injective log.logFileName) (i := i) ?_
    by_contra hfailed
    -- the file stays closed
    have haccepts := hsafe.accepts
    rw [rotateLog, if_neg hfailed, accepts_iff] at haccepts
    exact Bool.false_ne_true haccepts
  · intro hok
    obtain ⟨hdone, hrotated⟩ := Files.rotated_rotate (logSlot_injective log.logFileName) hok
    have hcurrent := hrotated.current
    rw [logSlot_zero] at hcurrent
    rw [hopen, rotateLog, if_pos hdone, openAs_of_none hcurrent]
    exact safe_of_content (content_rotateLog.mpr (Or.inl hok))

/-- **Rolling over with failures**, of both loggers. -/
theorem rollOver_safe_iff (log : LogManager) (engine : RollerFileLoggerEngine) (max : Nat)
    (fails : String → Bool) (s : LogDisk) (mode : OpenMode) (hpos : 1 ≤ max)
    (hlog : log.m_maxBackup.toInt = max) (hengine : engine.m_maxBackup.toNat = max)
    (hopen : s.device = some mode) :
    (Safe log.m_fileName max fails s (log.rollOver fails s) ↔
      Files.NoFailure (logSlot log.m_fileName) fails max s.files ∨
        (s.files log.m_fileName).getD [] = []) ∧
    (Safe engine.logFileName max fails s (engine.rollOver fails s) ↔
      Files.NoFailure (logSlot engine.logFileName) fails max s.files) := by
  obtain ⟨i, rfl, hlt⟩ := exists_maxBackup_eq hpos hlog
  exact ⟨safe_manager_iff hlog, safe_engine_iff hengine hlt hopen⟩

theorem rollOver_safe_iff_oneBackup :
    Safe "log" 2 (fun _ => false) oneBackup
        (LogManager.rollOver { m_maxBackup := 2, m_fileName := "log" } (fun _ => false) oneBackup) ∧
      Safe "log" 2 (fun _ => false) oneBackup
        (RollerFileLoggerEngine.rollOver
          { m_maxBackup := 2, m_maxFileSize := 100, logFileName := "log" } (fun _ => false)
          oneBackup) := by
  have hok : Files.NoFailure (logSlot "log") (fun _ => false) 2 oneBackup.files :=
    ⟨by decide, fun _ _ _ => rfl⟩
  have hsafe := rollOver_safe_iff { m_maxBackup := 2, m_fileName := "log" }
    { m_maxBackup := 2, m_maxFileSize := 100, logFileName := "log" } 2 (fun _ => false) oneBackup
    .Append (by decide) (by decide) (by decide) rfl
  exact ⟨hsafe.1.mpr (Or.inl hok), hsafe.2.mpr hok⟩

/-- The backup is held by another process. The manager loses the message of its file, and the engine
is closed. -/
theorem not_rollOver_safe :
    ¬Safe "log" 2 (fun name => name == backup "log" 1) oneBackup
        (LogManager.rollOver { m_maxBackup := 2, m_fileName := "log" }
          (fun name => name == backup "log" 1) oneBackup) ∧
      ¬Safe "log" 2 (fun name => name == backup "log" 1) oneBackup
        (RollerFileLoggerEngine.rollOver
          { m_maxBackup := 2, m_maxFileSize := 100, logFileName := "log" }
          (fun name => name == backup "log" 1) oneBackup) := by
  constructor
  · intro hsafe
    exact absurd hsafe.kept (by decide)
  · intro hsafe
    have hlost := hsafe.accepts [3]
    exact absurd hlost (by decide)

end ArmOd
