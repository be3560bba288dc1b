import ArmOd.Base.Files
import ArmOd.Qt.Decimal

/-!
# Log files that roll over

`LogManager` and `RollerFileLoggerEngine` write to one file until it is too large. Then the last
backup is removed, the others move up by one, and the file becomes the first of them. The calls are
the same; what differs is how it goes on after one that fails. The manager opens its file in any
case, which empties it; the engine returns, and its file stays closed.

`fails` says of which files the `remove` or the `rename` fails; files are opened without failures. A
content is a list of messages, each as its bytes. The engine's file is opened and written to by Qxt,
which leaves a file that is closed alone.
-/

namespace ArmOd

/-- A mode for writing: one that empties the file, or one that goes on at its end. -/
inductive OpenMode where
  | WriteOnly
  | Append
  deriving DecidableEq, Repr

abbrev LogMessage := List UInt8

/-- The number of bytes of a content. -/
def logSize (content : List LogMessage) : Nat := (content.map List.length).sum

/-- The files, and the mode in which the file of the log is open. -/
structure LogDisk where
  files : Files String (List LogMessage)
  device : Option OpenMode

structure LogManager where
  m_maxSize : Int32 := 10 * 1024 * 1024
  m_maxBackup : Int32 := 11
  m_fileName : String

structure RollerFileLoggerEngine where
  m_maxBackup : UInt32
  m_maxFileSize : UInt32
  logFileName : String

/-- `m_fileName + QLatin1Char('.') + QString::number(i)`. -/
def backup (fileName : String) (i : Int) : String :=
  fileName ++ String.ofList ('.' :: Text.number i)

/-- The file of the log, and its backups. -/
def logSlot (fileName : String) (k : Nat) : String := if k = 0 then fileName else backup fileName k

namespace LogDisk

/-- `open` in a mode for writing; without one it fails. -/
def openAs (s : LogDisk) (fileName : String) : Option OpenMode → LogDisk
  | none => s
  | some .WriteOnly =>
      { files := Function.update s.files fileName (some []), device := some .WriteOnly }
  | some .Append =>
      { files := Function.update s.files fileName (some ((s.files fileName).getD []))
        device := some .Append }

/-- A message is written to the file, where it is open. -/
def write (s : LogDisk) (fileName : String) (message : LogMessage) : LogDisk :=
  match s.device with
  | none => s
  | some _ => { s with
      files := Function.update s.files fileName (some ((s.files fileName).getD [] ++ [message])) }

end LogDisk

namespace LogManager

def openFile (log : LogManager) (s : LogDisk) : LogDisk :=
  s.openAs log.m_fileName (some .WriteOnly)

def rollOver (log : LogManager) (fails : String → Bool) (s : LogDisk) : LogDisk :=
  let (files, _) := s.files.rotate (logSlot log.m_fileName) fails
    (backup log.m_fileName log.m_maxBackup.toInt) (log.m_maxBackup - 1).toInt.toNat
  -- every way out is by `openFile`
  log.openFile { files, device := none }

def writeToFile (log : LogManager) (fails : String → Bool) (s : LogDisk) (message : LogMessage) :
    LogDisk :=
  let s := s.write log.m_fileName message
  if (logSize ((s.files log.m_fileName).getD []) : Int) > log.m_maxSize.toInt then
    log.rollOver fails s
  else s

end LogManager

namespace RollerFileLoggerEngine

def rollOver (log : RollerFileLoggerEngine) (fails : String → Bool) (s : LogDisk) : LogDisk :=
  let savedOpenMode := s.device
  let (files, done) := s.files.rotate (logSlot log.logFileName) fails
    (backup log.logFileName log.m_maxBackup.toNat) (log.m_maxBackup - 1).toInt32.toInt.toNat
  if done then LogDisk.openAs { files, device := none } log.logFileName savedOpenMode
  else { files, device := none }

def writeToFile (log : RollerFileLoggerEngine) (fails : String → Bool) (s : LogDisk)
    (message : LogMessage) : LogDisk :=
  let s := s.write log.logFileName message
  if logSize ((s.files log.logFileName).getD []) > log.m_maxFileSize.toNat then log.rollOver fails s
  else s

end RollerFileLoggerEngine

/-- What one roll-over is to leave: every backup is in the next place, that in the last one is
dropped, the file of the log is the first backup and is new and empty, and the other files are what
they were. -/
structure RolledOver (fileName : String) (max : Nat)
    (files files' : Files String (List LogMessage)) : Prop where
  first : files' (backup fileName 1) = files fileName
  next : ∀ k : Nat, 1 ≤ k → k < max →
    files' (backup fileName (k + 1 : Nat)) = files (backup fileName k)
  current : files' fileName = some []
  frame : ∀ n, n ≠ fileName → (∀ k : Nat, 1 ≤ k → k ≤ max → n ≠ backup fileName k) →
    files' n = files n

/-! ### The names of the files -/

variable {fileName n : String} {fails : String → Bool} {files : Files String (List LogMessage)}
  {s : LogDisk} {mode : OpenMode} {i : Nat}

theorem toList_backup (fileName : String) (i : Int) :
    (backup fileName i).toList = fileName.toList ++ '.' :: Text.number i := by
  rw [backup, String.toList_append, String.toList_ofList]

theorem backup_ne (fileName : String) (i : Int) : backup fileName i ≠ fileName := by
  intro heq
  have hlength := congrArg (fun name => name.toList.length) heq
  rw [toList_backup, List.length_append, List.length_cons] at hlength
  omega

theorem backup_injective (fileName : String) :
    Function.Injective fun k : Nat => backup fileName k := by
  intro a b h
  have hlist := congrArg String.toList h
  rw [toList_backup, toList_backup] at hlist
  have hdigits := (List.cons.inj (List.append_cancel_left hlist)).2
  rw [Text.number_natCast, Text.number_natCast] at hdigits
  rw [← Nat.ofDigitChars_ten_toDigits (n := a), hdigits, Nat.ofDigitChars_ten_toDigits]

theorem logSlot_zero : logSlot fileName 0 = fileName := rfl

theorem logSlot_succ (k : Nat) : logSlot fileName (k + 1) = backup fileName (k + 1 : Nat) :=
  if_neg (Nat.succ_ne_zero k)

theorem logSlot_injective (fileName : String) : Function.Injective (logSlot fileName) := by
  intro a b h
  cases a with
  | zero =>
      cases b with
      | zero => rfl
      | succ b => exact absurd h.symm (logSlot_succ b ▸ backup_ne fileName _)
  | succ a =>
      cases b with
      | zero => exact absurd h (logSlot_succ a ▸ backup_ne fileName _)
      | succ b =>
          rw [logSlot_succ, logSlot_succ] at h
          exact backup_injective fileName h

/-! ### Rolling over -/

theorem toNat_toInt_sub_one {m_maxBackup : Int32} (h : m_maxBackup.toInt = i + 1) :
    (m_maxBackup - 1).toInt.toNat = i := by
  have hlt := m_maxBackup.toInt_lt
  have hone : (1 : Int32).toInt = 1 := rfl
  rw [Int32.toInt_sub, hone, h, add_sub_cancel_right, Int.bmod_eq_of_le (by omega) (by omega),
    Int.toNat_natCast]

theorem toNat_toInt32_sub_one {m_maxBackup : UInt32} (h : m_maxBackup.toNat = i + 1)
    (hlt : i < 2 ^ 31) : (m_maxBackup - 1).toInt32.toInt.toNat = i := by
  have hsub : m_maxBackup - 1 = UInt32.ofNat i := by
    rw [← UInt32.ofNat_toNat (x := m_maxBackup), h, UInt32.ofNat_add]
    exact UInt32.add_sub_cancel _ _
  rw [hsub, UInt32.toInt32_ofNat', Int32.toInt_ofNat_of_lt hlt, Int.toNat_natCast]

/-- The files after the rotation with `i + 1` backups, and whether no call has failed. -/
def rotateLog (fileName : String) (fails : String → Bool) (i : Nat)
    (files : Files String (List LogMessage)) : Files String (List LogMessage) × Bool :=
  files.rotate (logSlot fileName) fails (logSlot fileName (i + 1)) i

/-- A positive number of backups is one more than an `int`. -/
theorem exists_maxBackup_eq {log : LogManager} {max : Nat} (hpos : 1 ≤ max)
    (hlog : log.m_maxBackup.toInt = max) : ∃ i, max = i + 1 ∧ i < 2 ^ 31 := by
  obtain ⟨i, rfl⟩ := Nat.exists_eq_add_of_le' hpos
  have hlt := log.m_maxBackup.toInt_lt
  exact ⟨i, rfl, by omega⟩

theorem LogManager.rollOver_eq {log : LogManager} (h : log.m_maxBackup.toInt = i + 1) :
    log.rollOver fails s =
      { files :=
          Function.update (rotateLog log.m_fileName fails i s.files).1 log.m_fileName (some [])
        device := some .WriteOnly } := by
  rw [rollOver, toNat_toInt_sub_one h, h, rotateLog, logSlot_succ]
  rfl

theorem RollerFileLoggerEngine.rollOver_eq {log : RollerFileLoggerEngine}
    (h : log.m_maxBackup.toNat = i + 1) (hlt : i < 2 ^ 31) :
    log.rollOver fails s =
      if (rotateLog log.logFileName fails i s.files).2 then LogDisk.openAs
        { files := (rotateLog log.logFileName fails i s.files).1, device := none } log.logFileName
        s.device
      else { files := (rotateLog log.logFileName fails i s.files).1, device := none } := by
  rw [rollOver, toNat_toInt32_sub_one h hlt, h, rotateLog, logSlot_succ]

theorem openAs_of_none {device : Option OpenMode} (h : files fileName = none) :
    LogDisk.openAs { files, device } fileName (some mode) =
      { files := Function.update files fileName (some []), device := some mode } := by
  cases mode with
  | WriteOnly => rfl
  | Append => simp only [LogDisk.openAs, h, Option.getD_none]

theorem rolledOver_update {files' : Files String (List LogMessage)}
    (h : Files.Rotated (logSlot fileName) (i + 1) files files') :
    RolledOver fileName (i + 1) files (Function.update files' fileName (some [])) where
  first := by
    rw [Function.update_of_ne (backup_ne fileName 1)]
    exact h.next 0 (Nat.succ_pos i)
  next := by
    intro k hk hlt
    obtain ⟨k, rfl⟩ := Nat.exists_eq_add_of_le' hk
    rw [Function.update_of_ne (backup_ne fileName _), ← logSlot_succ, ← logSlot_succ]
    exact h.next (k + 1) hlt
  current := Function.update_self ..
  frame := by
    intro n hname hn
    rw [Function.update_of_ne hname]
    refine h.frame n fun k hk => ?_
    cases k with
    | zero => exact hname
    | succ k =>
        rw [logSlot_succ]
        exact hn (k + 1) (Nat.succ_pos k) hk

/-- **Rolling over without a failure**, of both loggers. -/
theorem rollOver_rolledOver (log : LogManager) (engine : RollerFileLoggerEngine) (max : Nat)
    (fails : String → Bool) (s : LogDisk) (mode : OpenMode) (hpos : 1 ≤ max)
    (hlog : log.m_maxBackup.toInt = max) (hengine : engine.m_maxBackup.toNat = max)
    (hname : engine.logFileName = log.m_fileName) (hopen : s.device = some mode)
    (hok : Files.NoFailure (logSlot log.m_fileName) fails max s.files) :
    RolledOver log.m_fileName max s.files (log.rollOver fails s).files ∧
      (log.rollOver fails s).device = some .WriteOnly ∧
      (engine.rollOver fails s).files = (log.rollOver fails s).files ∧
      (engine.rollOver fails s).device = some mode := by
  obtain ⟨i, rfl, hlt⟩ := exists_maxBackup_eq hpos hlog
  obtain ⟨hdone, hrotated⟩ := Files.rotated_rotate (logSlot_injective log.m_fileName) hok
  have hcurrent := hrotated.current
  rw [logSlot_zero] at hcurrent
  rw [LogManager.rollOver_eq hlog, RollerFileLoggerEngine.rollOver_eq hengine hlt, hname, hopen,
    rotateLog, if_pos hdone, openAs_of_none hcurrent]
  exact ⟨rolledOver_update hrotated, rfl, rfl, rfl⟩

/-- A file of one message and its backup, the first of two. -/
def oneBackup : LogDisk where
  files := Function.update (Function.update (fun _ => none) "log" (some [[1]])) (backup "log" 1)
    (some [[2]])
  device := some .Append

theorem rollOver_rolledOver_oneBackup :
    RolledOver "log" 2 oneBackup.files
      (LogManager.rollOver { m_maxBackup := 2, m_fileName := "log" } (fun _ => false)
        oneBackup).files :=
  (rollOver_rolledOver { m_maxBackup := 2, m_fileName := "log" }
    { m_maxBackup := 2, m_maxFileSize := 100, logFileName := "log" } 2 (fun _ => false) oneBackup
    .Append (by decide) (by decide) (by decide) rfl rfl ⟨by decide, fun _ _ _ => rfl⟩).1

end ArmOd
