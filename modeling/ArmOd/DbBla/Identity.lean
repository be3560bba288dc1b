import ArmOd.Base.Run
import ArmOd.DbBla.Histories

/-!
# The identity of an enemy

An enemy is known by its frequency alone. The manager looks its row up by a board id it makes of the
frequency, and the controller stores a new row under a key it makes of the frequency too: by another
truncation, and with another test for the fallback id. Where the two keys agree, all messages of a
frequency name one row, whatever else is in the database and whatever other messages come between;
where they do not, a frequency gets a new row with every message. The records themselves may be
refused: the first one of a source always is.
-/

namespace ArmOd

namespace DbUavManager

open DbUavController

/-! ### The two keys -/

/-- The key an enemy row is stored under. -/
def enemyStoredKey (frequency : Double) : Nat :=
  storedUavId ENEMY_UAV_ROLE { freqId := frequency.toInt }

/-- The frequencies whose two keys agree. -/
def KeysAgree : Double → Prop
  | .fin q => q ≤ -1 ∨ 0 ≤ q ∧ q < 65536
  | .inf negative => negative = true
  | .nan => False

theorem storedUavId_newUav (positionData : UAVPositionData) :
    storedUavId ENEMY_UAV_ROLE (newUav positionData 0 0) =
      enemyStoredKey positionData.frequency := by
  simp only [storedUavId, enemyStoredKey, newUav, if_true]
  rfl

theorem toInt_nonneg {q : ℚ} (h : 0 ≤ q) : (Double.fin q).toInt = ⌊q⌋ := by
  have hnum : 0 ≤ q.num := Rat.num_nonneg.mpr h
  rw [Double.toInt, Rat.floor_def', Int.tdiv_eq_ediv_of_nonneg hnum]

theorem toInt_nonpos {q : ℚ} (h : q < 0) : (Double.fin q).toInt = -⌊-q⌋ := by
  have hneg := toInt_nonneg (q := -q) (by linarith)
  rw [Double.toInt, Rat.num_neg_eq_neg_num, Rat.den_neg_eq_den, Int.neg_tdiv] at hneg
  rw [Double.toInt, ← hneg, Int.neg_neg]

instance : DecidablePred KeysAgree
  | .fin q => inferInstanceAs (Decidable (q ≤ -1 ∨ 0 ≤ q ∧ q < 65536))
  | .inf negative => inferInstanceAs (Decidable (negative = true))
  | .nan => inferInstanceAs (Decidable False)

theorem enemyStoredKey_eq (frequency : Double) :
    enemyStoredKey frequency = if frequency.toInt < 0 then ENEMY_UAV_ID_OFFSET
      else frequency.toInt.toNat := by
  rw [enemyStoredKey, storedUavId, if_pos rfl]

/-- **The keys agree** from 0 to 65535, and at -1 and below, where both are the fallback id. -/
theorem enemyStoredKey_eq_iff (frequency : Double) :
    enemyStoredKey frequency = enemyBoardID frequency ↔ KeysAgree frequency := by
  rw [enemyStoredKey_eq]
  cases frequency with
  | inf negative => cases negative <;> decide
  | nan => decide
  | fin q =>
      rcases lt_or_ge q 0 with hneg | hnonneg
      · have hboard : enemyBoardID (.fin q) = ENEMY_UAV_ID_OFFSET := if_pos (decide_eq_true hneg)
        rw [hboard, toInt_nonpos hneg]
        by_cases hq : q ≤ -1
        · have hfloor : 0 < ⌊-q⌋ := Int.floor_pos.mpr (by linarith)
          rw [if_pos (by omega)]
          simp [KeysAgree, hq]
        · -- between -1 and 0 the stored key is 0, and the other one the fallback
          have hfloor : ⌊-q⌋ = 0 := Int.floor_eq_zero_iff.mpr ⟨by linarith, by linarith⟩
          have hagree : ¬KeysAgree (.fin q) := by
            rintro (h | ⟨h, -⟩)
            · exact hq h
            · linarith
          rw [hfloor, iff_false_right hagree]
          decide
      · have hlt : (Double.fin q).lt 0 = false := decide_eq_false (not_lt.mpr hnonneg)
        have hboard : enemyBoardID (.fin q) = quint16 ⌊q⌋ := by
          rw [enemyBoardID, hlt, toInt_nonneg hnonneg]
          rfl
        have hfloor : 0 ≤ ⌊q⌋ := Int.floor_nonneg.mpr hnonneg
        have hbound : ⌊q⌋ < 65536 ↔ q < 65536 := by
          rw [Int.floor_lt]
          norm_num
        have hnot : ¬q ≤ -1 := by linarith
        rw [hboard, toInt_nonneg hnonneg, if_neg (not_lt.mpr hfloor), quint16]
        simp only [KeysAgree, hnot, hnonneg, true_and, false_or, ← hbound]
        omega

/-! ### One message -/

structure EnemyMessage where
  now : QDateTime
  position : UAVPositionDataEnemy
  actual : Bool
  tail : List QPointF
  tailStdDev : List QPointF

def handleEnemy (w : World) (m : EnemyMessage) : World :=
  ((addEnemyUavInfoToDb m.now m.position ENEMY_UAV_ROLE "UnknownUavType" "UnknownStatus"
    "UnknownDeviceType"
    (getEnemySourceTypeName m.position.sourceType) m.actual m.tail m.tailStdDev).run w).2

/-- The row a message is resolved to, as the record built from it names it. -/
def resolvedUav (w : World) (m : EnemyMessage) : Nat :=
  ((uavInfoFor (positionOfEnemy m.now m.position) ENEMY_UAV_ROLE "UnknownUavType" "UnknownStatus"
    "UnknownDeviceType"
    (getEnemySourceTypeName m.position.sourceType)).run w.m_dbController).1.uavId

def isInsertUav : Write → Bool
  | .insertUav _ => true
  | _ => false

/-- The number of UAV rows inserted between two states. -/
def insertedUavs (c c' : DbContents) : Nat := (c'.written.drop c.written.length).countP isInsertUav

theorem insertedUavs_of_append {c c' : DbContents} (new : List Write)
    (h : c'.written = c.written ++ new) :
    insertedUavs c c' = new.countP isInsertUav := by
  rw [insertedUavs, h, List.drop_left]

theorem countP_isInsertUav_eq_zero {W : Write → Prop} {new : List Write} (hnew : ∀ w ∈ new, W w)
    (hW : ∀ w, W w → ∀ row, w ≠ .insertUav row) :
    new.countP isInsertUav = 0 := by
  rw [List.countP_eq_zero]
  intro w hw hinsert
  cases w with
  | insertUav row => exact hW _ (hnew _ hw) row rfl
  | _ => exact Bool.noConfusion hinsert

/-- The key a message is looked up by finds a row. -/
def lookedUp (t : SqlTable UavRow) (frequency : Double) : Option Nat :=
  t.firstId fun row => row.uavId == enemyBoardID frequency

theorem handleEnemy_session (w : World) (m : EnemyMessage) : (handleEnemy w m).m_dbController =
    ((recordPosition (positionOfEnemy m.now m.position) ENEMY_UAV_ROLE "UnknownUavType"
      "UnknownStatus" "UnknownDeviceType" (getEnemySourceTypeName m.position.sourceType)
      m.actual).run w.m_dbController).2 := by
  rw [handleEnemy, addEnemyUavInfoToDb, addUavInfoToDb_session]

theorem executes_handleEnemy (w : World) (m : EnemyMessage) : w.m_dbController.Executed True
    (fun _ => True) (handleEnemy w m).m_dbController := by
  rw [handleEnemy_session]
  have hbuild := executes_uavInfoFor trivial (positionOfEnemy m.now m.position) ENEMY_UAV_ROLE
    "UnknownUavType" "UnknownStatus" "UnknownDeviceType"
    (getEnemySourceTypeName m.position.sourceType)
  exact (hbuild.mono id fun _ _ => trivial).bind (fun info =>
    executes_recordOf info m.actual trivial) w.m_dbController

/-- The connection is open, and nothing but records was refused. -/
def RefusesRecordsOnly (w : World) : Prop :=
  w.m_dbController.isOpen = true ∧ w.m_dbController.CleanButRecords

instance (w : World) : Decidable (RefusesRecordsOnly w) :=
  inferInstanceAs (Decidable (w.m_dbController.isOpen = true ∧ w.m_dbController.CleanButRecords))

theorem handleEnemy_back {w : World} {m : EnemyMessage}
    (hclean : RefusesRecordsOnly (handleEnemy w m)) : RefusesRecordsOnly w := by
  obtain ⟨-, -, -, hopen, -⟩ := executes_handleEnemy w m
  exact ⟨hopen.symm.trans hclean.1, hclean.2.of_executed (executes_handleEnemy w m)⟩

theorem ne_insertUav_of_insertInfo {w : Write} {row : InfoRow} (h : w = .insertInfo row)
    (uavRow : UavRow) : w ≠ .insertUav uavRow := by
  rw [h]
  exact Write.noConfusion

/-- The row of a message is looked up or created as where nothing fails, and the rest of the message
adds no UAV. -/
theorem handleEnemy_run {w : World} {m : EnemyMessage}
    (hclean : RefusesRecordsOnly (handleEnemy w m)) :
    ∃ afterUav, (StoreM.uavId (positionOfEnemy m.now m.position) ENEMY_UAV_ROLE
      "UnknownUavType").run w.m_dbController.contents =
        some (resolvedUav w m, afterUav) ∧
      afterUav.Adds (fun w => ∀ row, w ≠ .insertUav row)
        (handleEnemy w m).m_dbController.contents := by
  have hopen := (handleEnemy_back hclean).1
  rw [RefusesRecordsOnly, handleEnemy_session, recordPosition, run_bind] at hclean
  rw [handleEnemy_session, recordPosition, run_bind, resolvedUav]
  let built := (uavInfoFor (positionOfEnemy m.now m.position) ENEMY_UAV_ROLE "UnknownUavType"
    "UnknownStatus" "UnknownDeviceType"
    (getEnemySourceTypeName m.position.sourceType)).run w.m_dbController
  have hrecord : Executes True (· = .insertInfo (infoRow built.1)) (recordOf built.1 m.actual) :=
    executes_recordOf _ _ rfl
  have hrun := (refines_uavInfoFor _ _ _ _ _ _).run_of_cleanButRecords
    (forgetful_uavInfoFor _ _ _ _ _ _) (executes_uavInfoFor trivial _ _ _ _ _ _) hopen
    (hclean.2.of_executed (hrecord built.2))
  obtain ⟨afterUav, huav, hadds⟩ := StoreM.uavInfo_uavId hrun
  refine ⟨afterUav, huav, ?_⟩
  exact (hadds.mono fun w hw row => StoreM.ne_insertUav_of_isAuxiliary hw row).trans
    ((hrecord built.2).adds.mono fun w hw row => ne_insertUav_of_insertInfo hw row)

theorem handleEnemy_of_some {w : World} {m : EnemyMessage} {id : Nat}
    (hclean : RefusesRecordsOnly (handleEnemy w m))
    (hfind : lookedUp w.m_dbController.store.uav m.position.frequency = some id) :
    resolvedUav w m = id ∧ insertedUavs w.m_dbController.contents
      (handleEnemy w m).m_dbController.contents = 0 := by
  obtain ⟨afterUav, huav, new, hnew, hkinds, -⟩ := handleEnemy_run hclean
  rcases StoreM.uavId_cases huav with ⟨hfound, rfl⟩ | ⟨hnone, -⟩
  · have hid : some id = some (resolvedUav w m) := hfind.symm.trans hfound
    exact ⟨(Option.some.inj hid).symm,
      by rw [insertedUavs_of_append new hnew, countP_isInsertUav_eq_zero hkinds fun _ h => h]⟩
  · exact absurd (hfind.symm.trans hnone) (Option.some_ne_none id)

theorem handleEnemy_of_none {w : World} {m : EnemyMessage}
    (hclean : RefusesRecordsOnly (handleEnemy w m))
    (hfind : lookedUp w.m_dbController.store.uav m.position.frequency = none) :
    (∃ row, w.m_dbController.store.uav.insert row = some
      (resolvedUav w m, (handleEnemy w m).m_dbController.store.uav) ∧
      row.uavId = enemyStoredKey m.position.frequency) ∧
      insertedUavs w.m_dbController.contents (handleEnemy w m).m_dbController.contents = 1 := by
  obtain ⟨afterUav, huav, hadds⟩ := handleEnemy_run hclean
  have hsame := hadds.uav_eq fun _ h => h
  obtain ⟨new, hnew, hkinds, -⟩ := hadds
  rcases StoreM.uavId_cases huav with ⟨hfound, -⟩ | ⟨-, hcreated⟩
  · exact absurd (hfound.symm.trans hfind) (Option.some_ne_none _)
  · obtain ⟨row, mid, ⟨aux, haux, hauxKinds, -⟩, hinsert, hwritten, -, hkey, -⟩ := hcreated
    refine ⟨⟨row, ?_, ?_⟩, ?_⟩
    · rw [show (handleEnemy w m).m_dbController.store.uav = afterUav.store.uav from hsame]
      exact hinsert
    · rw [hkey, storedUavId_newUav]
      rfl
    · rw [insertedUavs_of_append (aux ++ [.insertUav row] ++ new)
        (by rw [hnew, hwritten, haux, List.append_assoc, List.append_assoc,
        List.append_assoc]), List.countP_append, List.countP_append,
        countP_isInsertUav_eq_zero hauxKinds fun _ hw row =>
          StoreM.ne_insertUav_of_isAuxiliary hw row, countP_isInsertUav_eq_zero hkinds fun _ h => h]
      rfl

theorem lookedUp_handleEnemy {w : World} {m : EnemyMessage} {frequency : Double} {id : Nat}
    (hfind : lookedUp w.m_dbController.store.uav frequency = some id) :
    lookedUp (handleEnemy w m).m_dbController.store.uav frequency = some id :=
  (executes_handleEnemy w m).grows.uav.firstId hfind

/-! ### Any number of messages -/

/-- The rows inserted by the messages of a frequency. -/
def insertedFor (frequency : Double) (steps : List (World × EnemyMessage)) : Nat :=
  ((steps.filter fun a => a.2.position.frequency = frequency).map fun a =>
    insertedUavs a.1.m_dbController.contents (handleEnemy a.1 a.2).m_dbController.contents).sum

/-- All messages of a frequency are resolved to one row, and at most one row is inserted for them.
-/
def OneRow (frequency : Double) (w : World) (ms : List EnemyMessage) : Prop :=
  (∀ a ∈ transitions handleEnemy w ms, ∀ b ∈ transitions handleEnemy w ms,
    a.2.position.frequency = frequency →
      b.2.position.frequency = frequency → resolvedUav a.1 a.2 = resolvedUav b.1 b.2) ∧
    insertedFor frequency (transitions handleEnemy w ms) ≤ 1

theorem foldl_handleEnemy_back {w : World} (ms : List EnemyMessage)
    (hclean : RefusesRecordsOnly (ms.foldl handleEnemy w)) : RefusesRecordsOnly w := by
  induction ms generalizing w with
  | nil => exact hclean
  | cons m ms ih => exact handleEnemy_back (ih hclean)

theorem insertedFor_cons (frequency : Double) (a : World × EnemyMessage)
    (steps : List (World × EnemyMessage)) :
    insertedFor frequency (a :: steps) = (if a.2.position.frequency = frequency then
      insertedUavs a.1.m_dbController.contents (handleEnemy a.1 a.2).m_dbController.contents else 0)
        + insertedFor frequency steps := by
  by_cases hfreq : a.2.position.frequency = frequency <;> simp [insertedFor, hfreq]

/-- Once a frequency is found, all its messages are resolved to the row found, and none inserts a
row. -/
theorem steps_of_some {frequency : Double} {id : Nat} {w : World} (ms : List EnemyMessage)
    (hclean : RefusesRecordsOnly (ms.foldl handleEnemy w))
    (hfind : lookedUp w.m_dbController.store.uav frequency = some id) :
    (∀ a ∈ transitions handleEnemy w ms, a.2.position.frequency = frequency →
      resolvedUav a.1 a.2 = id) ∧
      insertedFor frequency (transitions handleEnemy w ms) = 0 := by
  induction ms generalizing w with
  | nil => exact ⟨fun a ha => absurd ha List.not_mem_nil, rfl⟩
  | cons m ms ih =>
      have hstep := foldl_handleEnemy_back ms hclean
      obtain ⟨hrest, hnone⟩ := ih hclean (lookedUp_handleEnemy hfind)
      constructor
      · intro a ha hfreq
        rcases List.mem_cons.mp ha with rfl | ha
        · exact (handleEnemy_of_some hstep
            (by rw [show m.position.frequency = frequency from hfreq]; exact hfind)).1
        · exact hrest a ha hfreq
      · rw [transitions, insertedFor_cons, hnone]
        by_cases hfreq : m.position.frequency = frequency
        · rw [if_pos hfreq, (handleEnemy_of_some hstep (by rw [hfreq]; exact hfind)).2]
        · rw [if_neg hfreq]

/-- A row just inserted is found by the next lookup where the keys agree, and only there. -/
theorem lookedUp_of_inserted {w : World} {m : EnemyMessage}
    (hclean : RefusesRecordsOnly (handleEnemy w m))
    (hfind : lookedUp w.m_dbController.store.uav m.position.frequency = none) :
    lookedUp (handleEnemy w m).m_dbController.store.uav m.position.frequency =
      if KeysAgree m.position.frequency then some (resolvedUav w m) else none := by
  obtain ⟨⟨row, hinsert, hkey⟩, -⟩ := handleEnemy_of_none hclean hfind
  have hafter := Table.firstId_insert hinsert fun row =>
    row.uavId == enemyBoardID m.position.frequency
  rw [show w.m_dbController.store.uav.firstId _ = none from hfind, Option.none_or, hkey] at hafter
  rw [lookedUp, hafter]
  simp only [beq_iff_eq, enemyStoredKey_eq_iff]

theorem oneRow_of_keysAgree {frequency : Double} {w : World} {ms : List EnemyMessage}
    (hagree : KeysAgree frequency)
    (hclean : RefusesRecordsOnly (ms.foldl handleEnemy w)) : OneRow frequency w ms := by
  induction ms generalizing w with
  | nil => exact ⟨fun a ha => absurd ha List.not_mem_nil, Nat.zero_le _⟩
  | cons m ms ih =>
      have hstep := foldl_handleEnemy_back ms hclean
      cases hfind : lookedUp w.m_dbController.store.uav frequency with
      | some id =>
          obtain ⟨hsame, hnone⟩ := steps_of_some (m :: ms) hclean hfind
          exact ⟨fun a ha b hb hafreq hbfreq => (hsame a ha hafreq).trans (hsame b hb hbfreq).symm,
            by rw [hnone]; exact Nat.zero_le 1⟩
      | none =>
          by_cases hfreq : m.position.frequency = frequency
          · -- the first message of the frequency, which inserts the row of all the others
            subst hfreq
            have hafter := lookedUp_of_inserted hstep hfind
            rw [if_pos hagree] at hafter
            obtain ⟨hsame, hnone⟩ := steps_of_some ms hclean hafter
            have hall : ∀ a ∈ transitions handleEnemy w (m :: ms),
              a.2.position.frequency = m.position.frequency →
                resolvedUav a.1 a.2 = resolvedUav w m := by
              intro a ha hafreq
              rcases List.mem_cons.mp ha with rfl | ha
              · rfl
              · exact hsame a ha hafreq
            refine ⟨fun a ha b hb hafreq hbfreq =>
              (hall a ha hafreq).trans (hall b hb hbfreq).symm, ?_⟩
            rw [transitions, insertedFor_cons, if_pos rfl, hnone,
              (handleEnemy_of_none hstep hfind).2]
          · obtain ⟨hsame, hone⟩ := ih hclean
            constructor
            · intro a ha b hb hafreq hbfreq
              rcases List.mem_cons.mp ha with rfl | ha
              · exact absurd hafreq hfreq
              rcases List.mem_cons.mp hb with rfl | hb
              · exact absurd hbfreq hfreq
              exact hsame a ha b hb hafreq hbfreq
            · rw [transitions, insertedFor_cons, if_neg hfreq, Nat.zero_add]
              exact hone

theorem insertedFor_append (frequency : Double) (steps steps' : List (World × EnemyMessage)) :
    insertedFor frequency (steps ++ steps') =
      insertedFor frequency steps + insertedFor frequency steps' := by
  rw [insertedFor, List.filter_append, List.map_append, List.sum_append]
  rfl

/-- **The identity of an enemy.** A frequency whose two keys agree has one row in every run; one
whose keys differ gets a second row as soon as two of its messages follow each other where no row
was known. -/
theorem enemyIdentity (w : World) (ms : List EnemyMessage)
    (hclean : RefusesRecordsOnly (ms.foldl handleEnemy w)) :
    (∀ frequency, enemyStoredKey frequency = enemyBoardID frequency ↔ KeysAgree frequency) ∧
      (∀ frequency, KeysAgree frequency → OneRow frequency w ms) ∧
      ∀ before m m' after, ms = before ++ m :: m' :: after →
        m'.position.frequency = m.position.frequency →
        lookedUp (before.foldl handleEnemy w).m_dbController.store.uav m.position.frequency = none →
        (OneRow m.position.frequency w ms ↔ KeysAgree m.position.frequency) := by
  refine ⟨enemyStoredKey_eq_iff, fun frequency hagree => oneRow_of_keysAgree hagree hclean, ?_⟩
  rintro before m m' after rfl hfreq hfind
  refine ⟨fun hone => ?_, fun hagree => oneRow_of_keysAgree hagree hclean⟩
  by_contra hagree
  rw [List.foldl_append, List.foldl_cons, List.foldl_cons] at hclean
  have hsecond := foldl_handleEnemy_back after hclean
  have hfirst := handleEnemy_back hsecond
  have hafter := lookedUp_of_inserted hfirst hfind
  rw [if_neg hagree, ← hfreq] at hafter
  have hcount := hone.2
  rw [transitions_append, insertedFor_append, transitions, insertedFor_cons, if_pos rfl,
    transitions, insertedFor_cons, if_pos hfreq,
    (handleEnemy_of_none hfirst hfind).2, (handleEnemy_of_none hsecond hafter).2] at hcount
  omega

/-- A new connection to an empty database. -/
def emptyWorld : World := ⟨Session.connect .empty [], { m_receiversList := [] }, []⟩

/-- What the one position of an automatic solver's message is handled with. -/
def onlyPosition (frequency : Double) : EnemyMessage where
  now := ⟨1, 0⟩
  position :=
    { frequency, latLon := ⟨55, 37⟩, time := 0, sourceType := UAV_SOLVER_AUTO_SOURCE }
  actual := true
  tail := [⟨55, 37⟩]
  tailStdDev := [⟨0, 0⟩]

theorem enemyIdentity_433 : OneRow 433 emptyWorld [onlyPosition 433, onlyPosition 433] :=
  (enemyIdentity emptyWorld [onlyPosition 433, onlyPosition 433] (by decide)).2.1 433 (by decide)

/-- Two messages of 70000 insert two rows. -/
theorem not_oneRow_70000 :
    RefusesRecordsOnly ([onlyPosition 70000, onlyPosition 70000].foldl handleEnemy emptyWorld) ∧
      ¬OneRow 70000 emptyWorld [onlyPosition 70000, onlyPosition 70000] := by
  refine ⟨by decide, fun hone => ?_⟩
  have hcount : insertedFor 70000
    (transitions handleEnemy emptyWorld [onlyPosition 70000, onlyPosition 70000]) = 2 := by
    decide
  exact absurd hone.2 (by rw [hcount]; decide)

end DbUavManager

end ArmOd
