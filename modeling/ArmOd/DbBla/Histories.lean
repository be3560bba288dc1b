import ArmOd.DbBla.Integrity

/-!
# A connection does not look back

Nothing the controller does depends on the history of its connection: with another past it gives the
same results and appends the same events. So a past in which some statements failed may be replaced
by the part of it that succeeded, and what was shown of a connection without a failure holds of one
that refused records only.
-/

namespace ArmOd

namespace Session

/-- The connection with a past put before its history. -/
def after (past : List DbEvent) (s : Session) : Session := { s with log := past ++ s.log }

/-- The connection as it is now, without its history. -/
def forget (s : Session) : Session := { s with log := [] }

theorem after_forget (s : Session) : s.forget.after s.log = s := by
  rw [forget, after, List.append_nil]

theorem event_after (past : List DbEvent) (s : Session) (store : Store) (faults : List Bool)
    (e : DbEvent) : (⟨s.isOpen, store, faults, (s.after past).log ++ [e]⟩ : Session) =
      after past ⟨s.isOpen, store, faults, s.log ++ [e]⟩ := by
  rw [after, after, List.append_assoc]

theorem filterMap_written?_filter_ok (l : List DbEvent) :
    (l.filter DbEvent.ok).filterMap DbEvent.written? = l.filterMap DbEvent.written? := by
  rw [List.filterMap_filter]
  refine congrArg (fun f => l.filterMap f) (funext fun e => ?_)
  -- only a statement that succeeded wrote something
  cases e with
  | write w ok => cases ok <;> rfl
  | prepare ok => cases ok <;> rfl
  | select ok => cases ok <;> rfl
  | _ => rfl

theorem CleanButRecords.of_executed {tx : Prop} {W : Write → Prop} {s s' : Session}
    (h : s'.CleanButRecords) (hexecuted : s.Executed tx W s') : s.CleanButRecords := by
  obtain ⟨new, hlog, -⟩ := hexecuted
  exact fun e he => h e (by rw [hlog]; exact List.mem_append_left _ he)

end Session

/-- What `f` does is the same after any past. -/
def Forgetful {α : Type} (f : DbM α) : Prop := ∀ past, Commutes (Session.after past) f

namespace Forgetful

variable {α β : Type} {f f' : DbM α} {g : α → DbM β}

theorem pure (a : α) : Forgetful (Pure.pure a : DbM α) := fun _ => Commutes.pure a

theorem bind (hf : Forgetful f) (hg : ∀ a, Forgetful (g a)) : Forgetful (f >>= g) :=
  fun past => (hf past).bind fun a => hg a past

theorem ite {c : Prop} [Decidable c] (hf : Forgetful f) (hf' : Forgetful f') :
    Forgetful (if c then f else f') :=
  fun past => (hf past).ite (hf' past)

end Forgetful

namespace DbM

theorem forgetful_isOpen : Forgetful isOpen := fun _ _ => rfl

theorem forgetful_onServer {α : Type} {refused : α} {f : DbM α} (hf : Forgetful f) :
    Forgetful (onServer refused f) := by
  intro past s
  change onServer refused f (s.after past) =
    ((onServer refused f s).1, (onServer refused f s).2.after past)
  by_cases hopen : s.isOpen = true
  · rw [onServer, onServer, if_pos hopen, if_pos (show (s.after past).isOpen = true from hopen)]
    exact hf past s
  · rw [onServer, onServer, if_neg hopen, if_neg (show ¬(s.after past).isOpen = true from hopen)]

theorem forgetful_transaction : Forgetful transaction :=
  forgetful_onServer fun past s => congrArg (Prod.mk true) (s.event_after past s.store s.faults _)

theorem forgetful_prepare : Forgetful prepare :=
  forgetful_onServer fun past s =>
    congrArg (Prod.mk _) (s.event_after past s.store s.faults.tail _)

theorem forgetful_execSelect {α : Type} (read : Store → List α) : Forgetful (execSelect read) :=
  forgetful_onServer fun past s =>
    congrArg (Prod.mk _) (s.event_after past s.store s.faults.tail _)

theorem forgetful_execWrite (w : Write) : Forgetful (execWrite w) := by
  refine forgetful_onServer fun past s => ?_
  simp only [StateT.run, Session.after]
  split <;> simp only [List.append_assoc]

end DbM

namespace DbUavController

open DbM

theorem forgetful_selectRows {α : Type} (read : Store → List α) : Forgetful (selectRows read) :=
  forgetful_isOpen.bind fun _ => .ite (.pure _) <|
    forgetful_prepare.bind fun _ => .ite (.pure _) (forgetful_execSelect read)

theorem forgetful_insertRow (w : Write) : Forgetful (insertRow w) :=
  forgetful_isOpen.bind fun _ => .ite (.pure _) <|
    forgetful_prepare.bind fun _ => .ite (.pure _) <|
      (forgetful_execWrite w).bind fun _ => .pure _

theorem forgetful_getDictionaryRecord (dictionary : Dictionary) (name : String) :
    Forgetful (getDictionaryRecord dictionary name) :=
  (forgetful_selectRows _).bind fun _ => .pure _

theorem forgetful_getUavRole (roleId : Nat) : Forgetful (getUavRole roleId) := by
  refine (forgetful_selectRows _).bind fun rows => ?_
  cases rows.bind List.head? <;> exact .pure _

theorem forgetful_getUavRoleByCode (code : String) : Forgetful (getUavRoleByCode code) :=
  (forgetful_selectRows _).bind fun _ => .pure _

theorem forgetful_addUav (uav : Uav) : Forgetful (addUav uav) :=
  forgetful_isOpen.bind fun _ => .ite (.pure _) <|
    forgetful_prepare.bind fun _ => .ite (.pure _) <|
      (forgetful_getUavRole _).bind fun _ => (forgetful_execWrite _).bind fun _ => .pure _

theorem forgetful_getUavByUavId (uavId : Nat) : Forgetful (getUavByUavId uavId) :=
  forgetful_isOpen.bind fun _ => .ite (.pure _) <|
    forgetful_transaction.bind fun _ => forgetful_prepare.bind fun _ => .ite (.pure _) <|
      (forgetful_execSelect _).bind fun _ => .pure _

theorem forgetful_getDevicesByType (deviceTypeId : Nat) :
    Forgetful (getDevicesByType deviceTypeId) := by
  refine (forgetful_selectRows _).bind fun rows => ?_
  cases rows <;> exact .pure _

theorem forgetful_getSourceId (sourceId sourceTypeId : Nat) :
    Forgetful (getSourceId sourceId sourceTypeId) :=
  (forgetful_selectRows _).bind fun _ => .pure _

end DbUavController

namespace DbUavManager

open DbUavController

theorem forgetful_dictionaryId (dictionary : Dictionary) (name : String) :
    Forgetful
      (recordIdFor (getDictionaryRecord dictionary) (addDictionaryRecord dictionary) name) :=
  (forgetful_getDictionaryRecord _ _).bind fun _ => .ite (forgetful_insertRow _) (.pure _)

theorem forgetful_uavIdFor (positionData : UAVPositionData) (role uavType : String) :
    Forgetful (uavIdFor positionData role uavType) := by
  have hrole : Forgetful (roleIdFor role) :=
    (forgetful_getUavRoleByCode role).bind fun _ => .ite (forgetful_insertRow _) (.pure _)
  exact (forgetful_getUavByUavId _).bind fun _ => .ite
    ((forgetful_dictionaryId .uavtypes uavType).bind fun _ =>
      hrole.bind fun _ => forgetful_addUav _) (.pure _)

theorem forgetful_deviceIdFor (positionData : UAVPositionData) (deviceType : String) :
    Forgetful (deviceIdFor positionData deviceType) := by
  refine (forgetful_dictionaryId .devicetypes deviceType).bind fun typeId =>
    (forgetful_getDevicesByType _).bind fun devices => ?_
  cases devices.2 with
  | nil => exact forgetful_insertRow _
  | cons device rest => exact .pure _

theorem forgetful_sourceIdFor (positionData : UAVPositionData) (sourceType : String) :
    Forgetful (sourceIdFor positionData sourceType) :=
  (forgetful_dictionaryId .sourcetypes sourceType).bind fun _ =>
    (forgetful_getSourceId _ _).bind fun _ =>
      .ite ((forgetful_insertRow _).bind fun _ => .pure _) (.pure _)

/-- The rows of a record are looked up and created without regard to what came before. -/
theorem forgetful_uavInfoFor (positionData : UAVPositionData)
    (role uavType status deviceType sourceType : String) :
    Forgetful (uavInfoFor positionData role uavType status deviceType sourceType) :=
  (forgetful_uavIdFor _ _ _).bind fun _ =>
    (forgetful_dictionaryId .statustypes status).bind fun _ =>
    (forgetful_deviceIdFor _ _).bind fun _ => (forgetful_sourceIdFor _ _).bind fun _ => .pure _

end DbUavManager

/-! ### A past with refused records -/

namespace Session

/-- The part of the past that succeeded stands for all of it. -/
theorem contents_after_filter_ok (past : List DbEvent) (s : Session) :
    (s.after (past.filter DbEvent.ok)).contents = (s.after past).contents := by
  simp only [contents, after, List.filterMap_append, filterMap_written?_filter_ok]

end Session

/-- **Where only records were refused**, a program that stores none does what it does where nothing
failed. -/
theorem Refines.run_of_cleanButRecords {α : Type} {f : DbM α} {g : StoreM α} (hf : Refines f g)
    (hforget : Forgetful f) (hexecutes : Executes True DbUavManager.NotInfo f) {s : Session}
    (hopen : s.isOpen = true) (hclean : (f.run s).2.CleanButRecords) :
    g.run s.contents = some ((f.run s).1, (f.run s).2.contents) := by
  -- the run from `s`, and the one after the past that succeeded
  have hrun := hforget s.log s.forget
  have hrun' := hforget (s.log.filter DbEvent.ok) s.forget
  rw [s.after_forget] at hrun
  obtain ⟨new, hnew, hwithin, hstays, -⟩ := hexecutes s.forget
  have hgood : (f.run (s.forget.after (s.log.filter DbEvent.ok))).2.Healthy := by
    rw [hrun']
    refine ⟨hstays.trans hopen, fun e he => ?_⟩
    rcases List.mem_append.mp he with hold | hadded
    · exact (List.mem_filter.mp hold).2
    · rw [hrun] at hclean
      refine hclean e (List.mem_append_right _ hadded) ?_
      rw [hnew] at hadded
      exact DbEvent.infoRow?_of_notInfo (hwithin e hadded)
  have hrefined := hf.run _ hgood
  rw [hrun', Session.contents_after_filter_ok, Session.contents_after_filter_ok,
    s.after_forget] at hrefined
  rw [hrun]
  exact hrefined

end ArmOd
