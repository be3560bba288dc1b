import ArmOd.DbBla.Growth

/-!
# The statements an operation executes

For every operation of the controller, the events it may append to the history of the connection.
`Within tx W` are the events an operation may leave when `tx` says whether it may begin or commit a
transaction and `W` which writes it may try. Two consequences are used later: an operation without
transaction statements leaves an open transaction as it found it, and nothing but `addUavInfo`
writes to `info`.
-/

namespace ArmOd

/-- Events without transaction statements (unless `tx`), with writes from `W` only. -/
def DbEvent.Within (tx : Prop) (W : Write → Prop) : DbEvent → Prop
  | .begin => tx
  | .commit => tx
  | .prepare _ => True
  | .select _ => True
  | .write w _ => W w

theorem DbEvent.Within.mono {tx tx' : Prop} {W W' : Write → Prop} (htx : tx → tx')
    (hW : ∀ w, W w → W' w) {e : DbEvent}
    (h : e.Within tx W) : e.Within tx' W' := by
  cases e with
  | begin => exact htx h
  | commit => exact htx h
  | prepare ok => trivial
  | select ok => trivial
  | write w ok => exact hW w h

/-- `s'` comes from `s` by events within `tx` and `W`; the successful writes among them account for
the tables. On a closed connection there are none. -/
def Session.Executed (tx : Prop) (W : Write → Prop) (s s' : Session) : Prop :=
  ∃ new, s'.log = s.log ++ new ∧ (∀ e ∈ new, e.Within tx W) ∧ s'.isOpen = s.isOpen ∧
    s.store.Writes (new.filterMap DbEvent.written?) s'.store ∧ (s.isOpen = false → new = [])

namespace Session.Executed

variable {tx tx' : Prop} {W W' : Write → Prop} {s s' : Session}

theorem refl (s : Session) : s.Executed tx W s :=
  ⟨[], (List.append_nil _).symm, fun _ he => absurd he List.not_mem_nil, rfl, .nil _, fun _ => rfl⟩

theorem trans {s'' : Session} (h : s.Executed tx W s') (h' : s'.Executed tx W s'') :
    s.Executed tx W s'' := by
  obtain ⟨new, hnew, hwithin, hopen, hwrites, hclosed⟩ := h
  obtain ⟨new', hnew', hwithin', hopen', hwrites', hclosed'⟩ := h'
  refine ⟨new ++ new', by rw [hnew', hnew, List.append_assoc], ?_, hopen'.trans hopen, ?_, ?_⟩
  · intro e he
    rcases List.mem_append.mp he with he | he
    · exact hwithin e he
    · exact hwithin' e he
  · rw [List.filterMap_append]
    exact hwrites.append hwrites'
  · intro hs
    rw [hclosed hs, hclosed' (hopen.trans hs)]
    rfl

instance : IsPreorder Session (Session.Executed tx W) where
  refl := refl
  trans := fun _ _ _ => trans

theorem mono (h : s.Executed tx W s') (htx : tx → tx') (hW : ∀ w, W w → W' w) :
    s.Executed tx' W' s' := by
  obtain ⟨new, hnew, hwithin, hopen, hwrites⟩ := h
  exact ⟨new, hnew, fun e he => (hwithin e he).mono htx hW, hopen, hwrites⟩

theorem grows (h : s.Executed tx W s') : s.store.Grows s'.store := by
  obtain ⟨_, _, _, _, hwrites, _⟩ := h
  exact hwrites.grows

theorem adds (h : s.Executed tx W s') : s.contents.Adds W s'.contents := by
  obtain ⟨new, hnew, hwithin, _, hwrites, _⟩ := h
  refine ⟨new.filterMap DbEvent.written?, ?_, fun w hw => ?_, hwrites⟩
  · rw [Session.contents, Session.contents, hnew, List.filterMap_append]
  · obtain ⟨e, he, hwritten⟩ := List.mem_filterMap.mp hw
    cases e with
    | write w' ok =>
        cases ok with
        | true =>
            cases hwritten
            exact hwithin _ he
        | false => cases hwritten
    | _ => cases hwritten

theorem event {e : DbEvent} {faults : List Bool} (hs : s.isOpen = true) (he : e.Within tx W)
    (hwrite : e.written? = none) :
    s.Executed tx W ⟨s.isOpen, s.store, faults, s.log ++ [e]⟩ := by
  refine ⟨[e], rfl, fun e' he' => ?_, rfl, ?_, fun hclosed =>
    absurd (hs.symm.trans hclosed) Bool.noConfusion⟩
  · rw [List.mem_singleton.mp he']
    exact he
  · rw [List.filterMap_cons_none hwrite]
    exact .nil _

end Session.Executed

/-- `f` executes no transaction statement unless `tx`, and tries writes from `W` only. -/
abbrev Executes (tx : Prop) (W : Write → Prop) {α : Type} (f : DbM α) : Prop :=
  Moves (Session.Executed tx W) f

theorem Executes.mono {tx tx' : Prop} {W W' : Write → Prop} {α : Type} {f : DbM α}
    (h : Executes tx W f) (htx : tx → tx')
    (hW : ∀ w, W w → W' w) : Executes tx' W' f :=
  Moves.mono h fun _ _ hexecuted => hexecuted.mono htx hW

namespace DbM

variable {tx : Prop} {W : Write → Prop}

theorem executes_isOpen : Executes tx W isOpen := fun s => .refl s

theorem executes_onServer {α : Type} {refused : α} {f : DbM α}
    (hf : ∀ s : Session, s.isOpen = true → s.Executed tx W (f s).2) :
    Executes tx W (onServer refused f) := by
  intro s
  change s.Executed tx W (onServer refused f s).2
  rw [onServer]
  split
  · exact hf s ‹_›
  · exact .refl s

theorem executes_prepare : Executes tx W prepare :=
  executes_onServer fun _ hs => .event hs trivial rfl

theorem executes_execSelect {α : Type} (read : Store → List α) : Executes tx W (execSelect read) :=
  executes_onServer fun _ hs => .event hs trivial rfl

theorem executes_execWrite {w : Write} (hw : W w) : Executes tx W (execWrite w) := by
  refine executes_onServer fun s hs => ?_
  split
  · rename_i id store _ happly
    refine ⟨[.write w true], rfl, fun e he => ?_, rfl, .single happly, fun hclosed =>
      absurd (hs.symm.trans hclosed) Bool.noConfusion⟩
    rw [List.mem_singleton.mp he]
    exact hw
  · exact .event hs hw rfl

theorem executes_transaction (htx : tx) : Executes tx W transaction :=
  executes_onServer fun _ hs => .event hs htx rfl

theorem executes_commit (htx : tx) : Executes tx W DbM.commit :=
  executes_onServer fun _ hs => .event hs htx rfl

end DbM

namespace DbUavController

open DbM

variable {tx : Prop} {W : Write → Prop}

theorem executes_selectRows {α : Type} (read : Store → List α) : Executes tx W (selectRows read) :=
  executes_isOpen.bind fun _ => Moves.ite (fun _ => Moves.pure _) fun _ =>
    executes_prepare.bind fun _ => Moves.ite (fun _ => Moves.pure _) fun _ =>
      executes_execSelect read

theorem executes_insertRow {w : Write} (hw : W w) : Executes tx W (insertRow w) :=
  executes_isOpen.bind fun _ => Moves.ite (fun _ => Moves.pure _) fun _ =>
    executes_prepare.bind fun _ => Moves.ite (fun _ => Moves.pure _) fun _ =>
      (executes_execWrite hw).bind fun _ => Moves.pure _

theorem executes_getDictionaryRecord (dictionary : Dictionary) (name : String) : Executes tx W
    (getDictionaryRecord dictionary name) :=
  (executes_selectRows _).bind fun _ => Moves.pure _

theorem executes_getUavRole (roleId : Nat) : Executes tx W (getUavRole roleId) := by
  refine (executes_selectRows _).bind fun rows => ?_
  cases rows.bind List.head? <;> exact Moves.pure _

theorem executes_getUavRoleByCode (code : String) : Executes tx W (getUavRoleByCode code) :=
  (executes_selectRows _).bind fun _ => Moves.pure _

theorem executes_addUav {uav : Uav} (hw : ∀ row, W (.insertUav row)) : Executes tx W (addUav uav) :=
  executes_isOpen.bind fun _ => Moves.ite (fun _ => Moves.pure _) fun _ =>
    executes_prepare.bind fun _ => Moves.ite (fun _ => Moves.pure _) fun _ =>
      (executes_getUavRole _).bind fun _ => (executes_execWrite (hw _)).bind fun _ => Moves.pure _

theorem executes_getUavByUavId (htx : tx) (uavId : Nat) : Executes tx W (getUavByUavId uavId) :=
  executes_isOpen.bind fun _ => Moves.ite (fun _ => Moves.pure _) fun _ =>
    (executes_transaction htx).bind fun _ => executes_prepare.bind fun _ => Moves.ite
    (fun _ => Moves.pure _) fun _ =>
      (executes_execSelect _).bind fun _ => Moves.pure _

theorem executes_getUav (id : Nat) : Executes tx W (getUav id) :=
  (executes_selectRows _).bind fun _ => Moves.pure _

theorem executes_getDevicesByType (deviceTypeId : Nat) : Executes tx W
    (getDevicesByType deviceTypeId) := by
  refine (executes_selectRows _).bind fun rows => ?_
  cases rows <;> exact Moves.pure _

theorem executes_getSourceId (sourceId sourceTypeId : Nat) : Executes tx W
    (getSourceId sourceId sourceTypeId) :=
  (executes_selectRows _).bind fun _ => Moves.pure _

theorem executes_getSource (sourceId : Nat) : Executes tx W (getSource sourceId) := by
  refine (executes_selectRows _).bind fun rows => ?_
  cases rows.bind List.head? <;> exact Moves.pure _

theorem executes_getUavMissionsByUavId (uavId : Nat) : Executes tx W
    (getUavMissionsByUavId uavId) := by
  refine (executes_selectRows _).bind fun rows => ?_
  cases rows <;> exact Moves.pure _

theorem executes_getTargetsByType (targetTypeId : Nat) : Executes tx W
    (getTargetsByType targetTypeId) :=
  (executes_selectRows _).bind fun _ => Moves.pure _

theorem executes_getTargetsByMission (missionId : Nat) : Executes tx W
    (getTargetsByMission missionId) := by
  refine (executes_selectRows _).bind fun missions => ?_
  cases missions with
  | none => exact Moves.pure _
  | some missions =>
      exact executes_prepare.bind fun _ => Moves.ite (fun _ => Moves.pure _) fun _ =>
        (executes_execSelect _).bind fun _ => Moves.pure _

end DbUavController

namespace DbUavManager

open DbM DbUavController

variable {tx : Prop} {W : Write → Prop}

theorem executes_recordIdFor {getByName add : String → DbM Int}
    (hget : ∀ name, Executes tx W (getByName name))
    (hadd : ∀ name, Executes tx W (add name)) (name : String) : Executes tx W
    (recordIdFor getByName add name) :=
  (hget name).bind fun _ => Moves.ite (fun _ => hadd name) fun _ => Moves.pure _

theorem executes_dictionaryId {dictionary : Dictionary}
    (hw : ∀ name, W (.insertDictionary dictionary name)) (name : String) :
    Executes tx W (recordIdFor (getDictionaryRecord dictionary)
      (addDictionaryRecord dictionary) name) :=
  executes_recordIdFor (executes_getDictionaryRecord dictionary)
    (fun name => executes_insertRow (hw name)) name

/-- A write that is not one to `info`. -/
def NotInfo : Write → Prop
  | .insertInfo _ => False
  | _ => True

theorem executes_roleIdFor (role : String) : Executes tx NotInfo (roleIdFor role) :=
  (executes_getUavRoleByCode role).bind fun _ =>
    Moves.ite (fun _ => executes_insertRow trivial) fun _ => Moves.pure _

theorem executes_createUav (positionData : UAVPositionData) (role uavType : String) :
    Executes tx NotInfo (createUav positionData role uavType) :=
  (executes_dictionaryId (fun _ => trivial) uavType).bind fun _ =>
    (executes_roleIdFor role).bind fun _ =>
    executes_addUav fun _ => trivial

theorem executes_uavIdFor (htx : tx) (positionData : UAVPositionData) (role uavType : String) :
    Executes tx NotInfo (uavIdFor positionData role uavType) :=
  (executes_getUavByUavId htx _).bind fun _ =>
    Moves.ite (fun _ => executes_createUav _ _ _) fun _ => Moves.pure _

theorem executes_deviceIdFor (positionData : UAVPositionData) (deviceType : String) :
    Executes tx NotInfo (deviceIdFor positionData deviceType) := by
  refine (executes_dictionaryId (fun _ => trivial) deviceType).bind fun typeId =>
    (executes_getDevicesByType _).bind fun devices => ?_
  cases devices.2 with
  | nil => exact executes_insertRow trivial
  | cons device rest => exact Moves.pure _

theorem executes_sourceIdFor (positionData : UAVPositionData) (sourceType : String) :
    Executes tx NotInfo (sourceIdFor positionData sourceType) :=
  (executes_dictionaryId (fun _ => trivial) sourceType).bind fun _ =>
    (executes_getSourceId _ _).bind fun _ =>
    Moves.ite (fun _ => Moves.bind (executes_insertRow trivial) fun _ => Moves.pure _) fun _ =>
      Moves.pure _

theorem executes_uavInfoFor (htx : tx) (positionData : UAVPositionData)
    (role uavType status deviceType sourceType : String) :
    Executes tx NotInfo (uavInfoFor positionData role uavType status deviceType sourceType) :=
  (executes_uavIdFor htx _ _ _).bind fun _ =>
    (executes_dictionaryId (fun _ => trivial) status).bind fun _ =>
    (executes_deviceIdFor _ _).bind fun _ => (executes_sourceIdFor _ _).bind fun _ => Moves.pure _

end DbUavManager

end ArmOd
