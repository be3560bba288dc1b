import ArmOd.Base.Run
import ArmOd.DbBla.Record

/-!
# Transaction discipline

Which operations begin and end transactions, and which leave the connection as they found it.
`Transacts a b f` follows the transaction through the text of `f`, from open or closed (`a`) to open
or closed (`b`), with every early return. It holds of every operation, and tells the ones that end
with the transaction closed from the ones that do not: a lookup of a UAV by its public id begins a
transaction and leaves it to whoever comes next.
-/

namespace ArmOd

namespace Session

/-- What the transaction saw between two moments of a connection. -/
def since (s s' : Session) : List (TxEvent Write) :=
  (s'.log.drop s.log.length).filterMap DbEvent.tx?

theorem since_of_append {s s' : Session} {new : List DbEvent} (h : s'.log = s.log ++ new) :
    s.since s' = new.filterMap DbEvent.tx? := by
  rw [since, h, List.drop_left]

variable {tx : Prop} {W : Write → Prop} {s s' s'' : Session}

theorem Executed.tx_eq (h : s.Executed tx W s') : s'.tx = s.tx.replay (s.since s') := by
  obtain ⟨new, hnew, -⟩ := h
  rw [since_of_append hnew, Session.tx, hnew, List.filterMap_append, TxState.replay_append]
  rfl

theorem Executed.since_trans (h : s.Executed tx W s') (h' : s'.Executed tx W s'') :
    s.since s'' = s.since s' ++ s'.since s'' := by
  obtain ⟨new, hnew, -⟩ := h
  obtain ⟨new', hnew', -⟩ := h'
  rw [since_of_append hnew, since_of_append hnew', ← List.filterMap_append]
  exact since_of_append (by rw [hnew', hnew, List.append_assoc])

theorem Executed.isWrite (h : s.Executed False W s') : ∀ e ∈ s.since s', TxState.IsWrite e := by
  obtain ⟨new, hnew, hwithin, -⟩ := h
  intro e he
  rw [since_of_append hnew] at he
  obtain ⟨event, hevent, htx⟩ := List.mem_filterMap.mp he
  have hquiet := hwithin event hevent
  rcases event with _ | _ | ok | ok | ⟨w, _ | _⟩ <;> cases htx
  · exact hquiet.elim
  · exact hquiet.elim
  · trivial

theorem Executed.isOpen_eq (h : s.Executed tx W s') : s'.isOpen = s.isOpen := by
  obtain ⟨_, _, _, hopen, _⟩ := h
  exact hopen

theorem Executed.since_closed (h : s.Executed tx W s') (hclosed : s.isOpen = false) :
    s.since s' = [] := by
  obtain ⟨new, hnew, -, -, -, hnothing⟩ := h
  rw [since_of_append hnew, hnothing hclosed]
  rfl

end Session

/-- Any statement at all. -/
abbrev ExecutesAny {α : Type} (f : DbM α) : Prop := Executes True (fun _ => True) f

theorem Executes.any {tx : Prop} {W : Write → Prop} {α : Type} {f : DbM α} (h : Executes tx W f) :
    ExecutesAny f :=
  h.mono (fun _ => trivial) fun _ _ => trivial

/-- On an open connection whose transaction is in the state `a`, `f` begins no transaction in an
open one, and leaves the transaction in the state `b`. -/
structure Transacts (a b : Bool) {α : Type} (f : DbM α) : Prop where
  executes : ExecutesAny f
  run : ∀ s : Session, s.isOpen = true → s.tx.isOpen = a → s.tx.Unnested (s.since (f.run s).2) ∧
    (f.run s).2.tx.isOpen = b

theorem run_whenOpen {α : Type} {x : α} {f : DbM α} {s : Session} (hopen : s.isOpen = true) :
    (DbM.isOpen >>= fun o => if (!o) = true then pure x else f).run s = f.run s := by
  rw [run_bind, show (DbM.isOpen.run s).1 = s.isOpen from rfl, hopen]
  rfl

namespace Transacts

variable {α β : Type} {a b c : Bool} {f : DbM α} {g : α → DbM β}

theorem bind (hf : Transacts a b f) (hg : ∀ x, Transacts b c (g x)) : Transacts a c (f >>= g) where
  executes := hf.executes.bind fun x => (hg x).executes
  run := by
    intro s hopen htx
    have hfirst := hf.executes s
    obtain ⟨hunnested, hmid⟩ := hf.run s hopen htx
    obtain ⟨hunnested', hend⟩ := (hg (f.run s).1).run (f.run s).2
      (hfirst.isOpen_eq.trans hopen) hmid
    rw [run_bind, hfirst.since_trans ((hg _).executes _)]
    rw [hfirst.tx_eq] at hunnested'
    exact ⟨hunnested.append hunnested', hend⟩

theorem ite {p : Prop} [Decidable p] {f' : DbM α} (hf : Transacts a b f) (hf' : Transacts a b f') :
    Transacts a b (if p then f else f') := by
  split
  · exact hf
  · exact hf'

theorem of_executes {W : Write → Prop} (h : Executes False W f) : Transacts a a f where
  executes := h.any
  run := by
    intro s _ htx
    refine ⟨TxState.unnested_of_writes _ (h s).isWrite, ?_⟩
    rw [(h s).tx_eq, TxState.isOpen_replay_of_writes _ (h s).isWrite, htx]

theorem pure (x : α) : Transacts a a (Pure.pure x : DbM α) :=
  of_executes (W := fun _ => False) (Moves.pure x)

theorem whenOpen {x : α} (hf : Transacts a b f) : Transacts a b
    (DbM.isOpen >>= fun o => if (!o) = true then Pure.pure x else f) where
  executes := DbM.executes_isOpen.bind fun _ =>
    Moves.ite (fun _ => Moves.pure x) fun _ => hf.executes
  run := by
    intro s hopen htx
    rw [run_whenOpen hopen]
    exact hf.run s hopen htx

end Transacts

namespace DbM

theorem since_transaction {s : Session} (hopen : s.isOpen = true) : s.since (transaction.run s).2 =
    [.begin] := by
  have hlog : (transaction.run s).2.log = s.log ++ [.begin] := by
    change (transaction s).2.log = _
    rw [transaction, onServer, if_pos hopen]
  exact Session.since_of_append hlog

theorem since_commit {s : Session} (hopen : s.isOpen = true) : s.since (DbM.commit.run s).2 =
    [.commit] := by
  have hlog : (DbM.commit.run s).2.log = s.log ++ [.commit] := by
    change (DbM.commit s).2.log = _
    rw [DbM.commit, onServer, if_pos hopen]
  exact Session.since_of_append hlog

theorem transacts_transaction : Transacts false true transaction where
  executes := executes_transaction trivial
  run := by
    intro s hopen htx
    have hexecutes : ExecutesAny transaction := executes_transaction trivial
    rw [(hexecutes s).tx_eq, since_transaction hopen]
    exact ⟨TxState.unnested_begin htx, rfl⟩

theorem transacts_commit {a : Bool} : Transacts a false DbM.commit where
  executes := executes_commit trivial
  run := by
    intro s hopen _
    have hexecutes : ExecutesAny DbM.commit := executes_commit trivial
    rw [(hexecutes s).tx_eq, since_commit hopen]
    exact ⟨TxState.unnested_commit _, rfl⟩

theorem transacts_prepare {a : Bool} : Transacts a a prepare :=
  .of_executes (W := fun _ => True) executes_prepare

theorem transacts_execWrite {a : Bool} (w : Write) : Transacts a a (execWrite w) :=
  .of_executes (W := fun _ => True) (executes_execWrite trivial)

end DbM

/-! ### The operations of the controller -/

namespace DbUavController

open DbM

variable {a : Bool}

theorem transacts_insertRow (w : Write) : Transacts a a (insertRow w) :=
  .of_executes (W := fun _ => True) (executes_insertRow trivial)

/-- **A lookup by the public id leaves a transaction open.** -/
theorem transacts_getUavByUavId (uavId : Nat) : Transacts false true (getUavByUavId uavId) :=
  Transacts.whenOpen (transacts_transaction.bind fun _ =>
    transacts_prepare.bind fun _ => .ite (.pure _)
    ((Transacts.of_executes (W := fun _ => False) (executes_execSelect _)).bind fun _ => .pure _))

theorem transacts_getUavMissionsByUavId (uavId : Nat) : Transacts a a
    (getUavMissionsByUavId uavId) :=
  .of_executes (W := fun _ => False) (executes_getUavMissionsByUavId uavId)

theorem transacts_write_commit (w : Write) : Transacts a false (do
    let succeeded ← execWrite w
    let _ ← DbM.commit
    return succeeded.isSome) :=
  (transacts_execWrite w).bind fun _ => transacts_commit.bind fun _ => .pure _

theorem transacts_deleteUavMissionsByUavId (uavId : Nat) : Transacts false false
    (deleteUavMissionsByUavId uavId) :=
  Transacts.whenOpen ((transacts_getUavMissionsByUavId uavId).bind fun _ => .ite (.pure _)
    (transacts_prepare.bind fun _ => .ite (.pure _) (transacts_write_commit _)))

theorem transacts_deleteUavMissionsByTargetId (targetId : Nat) : Transacts false false
    (deleteUavMissionsByTargetId targetId) :=
  Transacts.whenOpen (transacts_prepare.bind fun _ => .ite (.pure _) (transacts_write_commit _))

theorem transacts_addTarget (target : Target) : Transacts false false (addTarget target) :=
  Transacts.whenOpen (transacts_transaction.bind fun _ => transacts_prepare.bind fun _ =>
    .ite (transacts_commit.bind fun _ => .pure _)
    ((transacts_execWrite _).bind fun _ => transacts_commit.bind fun _ => .pure _))

theorem transacts_deleteTargetsById (id : Nat) : Transacts false false (deleteTargetsById id) :=
  Transacts.whenOpen (transacts_transaction.bind fun _ => transacts_prepare.bind fun _ =>
    .ite (transacts_commit.bind fun _ => .pure _)
    (transacts_write_commit _))

theorem transacts_getTargetsByUavId (uavId : Nat) : Transacts false true
    (getTargetsByUavId uavId) :=
  Transacts.whenOpen ((transacts_getUavByUavId uavId).bind fun _ =>
    .ite (.pure _) (transacts_prepare.bind fun _ => .ite (.pure _)
    ((Transacts.of_executes (W := fun _ => False) (executes_execSelect _)).bind fun _ => .pure _)))

theorem executes_deleteAfterLookup (uav : Uav) : ExecutesAny (do
    if uav.id = INVALID_INDEX then
      let _ ← DbM.commit
      return false
    if !(← prepare) then
      let _ ← DbM.commit
      return false
    let succeeded ← execWrite (.deleteTargetsByUavId uav.id)
    let _ ← DbM.commit
    return succeeded.isSome) :=
  Moves.ite (fun _ => (executes_commit trivial).bind fun _ => Moves.pure _) fun _ =>
    executes_prepare.bind fun _ => Moves.ite
      (fun _ => (executes_commit trivial).bind fun _ => Moves.pure _) fun _ =>
      (transacts_write_commit (a := true) _).executes

theorem executes_deleteTargetsByUavId (uavId : Nat) : ExecutesAny (deleteTargetsByUavId uavId) :=
  executes_isOpen.bind fun _ => Moves.ite (fun _ => Moves.pure _) fun _ =>
    (executes_transaction trivial).bind fun _ =>
    (executes_getUavByUavId trivial uavId).bind executes_deleteAfterLookup

end DbUavController

/-! ### A transaction inside another one -/

/-- On an open connection, what `f` does to the transaction starts with `first`. -/
def StartsWith (first : List (TxEvent Write)) {α : Type} (f : DbM α) : Prop :=
  ∀ s : Session, s.isOpen = true → first <+: s.since (f.run s).2

namespace StartsWith

variable {α β : Type} {first : List (TxEvent Write)} {f : DbM α} {g : α → DbM β}

theorem bind (hf : StartsWith first f) (hexecutes : ExecutesAny f) (hg : ∀ x, ExecutesAny (g x)) :
    StartsWith first (f >>= g) := by
  intro s hopen
  rw [run_bind, (hexecutes s).since_trans (hg _ _)]
  exact (hf s hopen).trans (List.prefix_append ..)

theorem whenOpen {x : α} (hf : StartsWith first f) : StartsWith first
    (DbM.isOpen >>= fun o => if (!o) = true then Pure.pure x else f) := by
  intro s hopen
  rw [run_whenOpen hopen]
  exact hf s hopen

theorem transaction (hf : StartsWith first f) (hexecutes : ExecutesAny f) : StartsWith
    (.begin :: first) (DbM.transaction >>= fun _ => f) := by
  intro s hopen
  have hbegin : ExecutesAny DbM.transaction := DbM.executes_transaction trivial
  rw [run_bind, (hbegin s).since_trans (hexecutes _), DbM.since_transaction hopen]
  exact List.cons_prefix_cons.mpr ⟨rfl, hf _ ((hbegin s).isOpen_eq.trans hopen)⟩

theorem nil : StartsWith [] f := fun _ _ => List.nil_prefix

end StartsWith

theorem startsWith_getUavByUavId (uavId : Nat) : StartsWith [.begin]
    (DbUavController.getUavByUavId uavId) :=
  (StartsWith.nil.transaction (DbM.executes_prepare.bind fun _ =>
    Moves.ite (fun _ => Moves.pure _) fun _ =>
    (DbM.executes_execSelect _).bind fun _ => Moves.pure _)).whenOpen

/-- **A deletion by the public id begins a transaction inside its own.** -/
theorem startsWith_deleteTargetsByUavId (uavId : Nat) : StartsWith [.begin, .begin]
    (DbUavController.deleteTargetsByUavId uavId) := by
  have hrest := DbUavController.executes_deleteAfterLookup
  exact (((startsWith_getUavByUavId uavId).bind
    (DbUavController.executes_getUavByUavId trivial uavId) hrest).transaction
    ((DbUavController.executes_getUavByUavId trivial uavId).bind hrest)).whenOpen

/-! ### The operations of the manager -/

namespace DbUavManager

open DbUavController

theorem executes_getTargetsByUavIdAndTargetType {tx : Prop} {W : Write → Prop} (uavId : Nat)
    (targetType : String) :
    Executes tx W (getTargetsByUavIdAndTargetType uavId targetType) := by
  have hinner : ∀ (records targets : List Target),
    Executes tx W (targets.foldlM (fun records target => do
      if target.type = (← getTargetTypeByName targetType) then return records ++ [target]
        else return records) records) :=
    fun records targets => Moves.foldlM (fun _ _ => (executes_getDictionaryRecord _ _).bind fun _ =>
      Moves.ite (fun _ => Moves.pure _) fun _ => Moves.pure _) records
  exact (executes_getUavMissionsByUavId _).bind fun missions =>
    (Moves.foldlM (fun records mission => (executes_getTargetsByMission _).bind fun targets =>
      hinner records targets.2) []).bind fun _ => Moves.pure _

variable {positionData : UAVPositionData} {role uavType status deviceType sourceType : String}
  {actual : Bool}

theorem executes_recordPosition : ExecutesAny
    (recordPosition positionData role uavType status deviceType sourceType actual) :=
  (executes_uavInfoFor (trivial : True) positionData role uavType status deviceType
    sourceType).any.bind fun info =>
    executes_recordOf info actual trivial

theorem transacts_recordPosition : Transacts false true
    (recordPosition positionData role uavType status deviceType sourceType actual) := by
  have hcreate : ∀ uav : Uav, Transacts true true
    (if uav.id < 0 then createUav positionData role uavType else pure uav.id) := fun _ =>
    .ite (.of_executes (executes_createUav _ _ _)) (.pure _)
  have hstatus : Transacts true true (recordIdFor getStatusByName addStatus status) :=
    .of_executes (W := NotInfo) (executes_dictionaryId (fun _ => trivial) status)
  exact Transacts.bind (((transacts_getUavByUavId _).bind hcreate).bind fun _ =>
    hstatus.bind fun _ =>
    (Transacts.of_executes (executes_deviceIdFor _ _)).bind fun _ =>
    (Transacts.of_executes (executes_sourceIdFor _ _)).bind fun _ => .pure _)
    fun info => .of_executes (W := fun _ => True) (executes_recordOf info actual trivial)

theorem startsWith_recordPosition : StartsWith [.begin]
    (recordPosition positionData role uavType status deviceType sourceType actual) :=
  (((startsWith_getUavByUavId _).bind (executes_getUavByUavId trivial _) fun _ =>
      Moves.ite (fun _ => (executes_createUav _ _ _ : Executes False NotInfo _).any) fun _ =>
        Moves.pure _).bind
    (executes_uavIdFor (trivial : True) _ _ _).any fun _ =>
    (executes_dictionaryId (fun _ => trivial) status).bind fun _ =>
      (executes_deviceIdFor _ _ : Executes False NotInfo _).any.bind fun _ =>
        (executes_sourceIdFor _ _ : Executes False NotInfo _).any.bind fun _ => Moves.pure _).bind
    (executes_uavInfoFor (trivial : True) _ _ _ _ _ _).any fun info =>
    executes_recordOf info actual trivial

section Manager

variable {tail tailStdDev : List QPointF} {w : World}

theorem executes_addUavInfoToDb : w.m_dbController.Executed True (fun _ => True)
    ((addUavInfoToDb positionData role uavType status deviceType sourceType actual tail
    tailStdDev).run w).2.m_dbController := by
  rw [addUavInfoToDb_session]
  exact executes_recordPosition _

theorem startsWith_addUavInfoToDb (hopen : w.m_dbController.isOpen = true) {s : Session}
    (hafter : ((addUavInfoToDb positionData role uavType status deviceType sourceType actual tail
    tailStdDev).run w).2.m_dbController.Executed
      True (fun _ => True) s) : [.begin] <+: w.m_dbController.since s := by
  rw [executes_addUavInfoToDb.since_trans hafter, addUavInfoToDb_session]
  exact (startsWith_recordPosition w.m_dbController hopen).trans (List.prefix_append ..)

variable {now : QDateTime} {source i : Nat}

theorem executes_enemyPoints {uavs : List UAVPositionDataEnemy} :
    w.m_dbController.Executed True (fun _ => True)
      ((enemyPoints now source i tail tailStdDev uavs).run w).2.m_dbController := by
  induction uavs generalizing i tail tailStdDev w with
  | nil => exact .refl _
  | cons uav rest ih =>
      rw [enemyPoints, run_bind, addEnemyUavInfoToDb]
      exact executes_addUavInfoToDb.trans ih

theorem startsWith_enemyPoints (hopen : w.m_dbController.isOpen = true) {uav : UAVPositionDataEnemy}
    {rest : List UAVPositionDataEnemy} :
    [.begin] <+: w.m_dbController.since
    ((enemyPoints now source i tail tailStdDev (uav :: rest)).run w).2.m_dbController := by
  rw [enemyPoints, run_bind, addEnemyUavInfoToDb]
  exact startsWith_addUavInfoToDb hopen executes_enemyPoints

end Manager

/-! ### Any number of operations -/

/-- The operations on targets and missions. -/
inductive TargetOp where
  | addUavMission (mission : UavMission)
  | getUavMissionsByUavId (uavId : Nat)
  | deleteUavMissionsByUavId (uavId : Nat)
  | deleteUavMissionsByTargetId (targetId : Nat)
  | addTarget (target : Target)
  | getTargetsByType (targetTypeId : Nat)
  | getTargetsByUavId (uavId : Nat)
  | getTargetsByUavIdAndTargetType (uavId : Nat) (targetType : String)
  | deleteTargetsByUavId (uavId : Nat)
  | deleteTargetsById (id : Nat)
  | addTargetType (name : String)
  | getTargetTypeByName (name : String)

def TargetOp.program : TargetOp → DbM PUnit
  | .addUavMission mission => do let _ ← DbUavController.addUavMission mission
  | .getUavMissionsByUavId uavId => do let _ ← DbUavController.getUavMissionsByUavId uavId
  | .deleteUavMissionsByUavId uavId => do let _ ← DbUavController.deleteUavMissionsByUavId uavId
  | .deleteUavMissionsByTargetId targetId =>
      do let _ ← DbUavController.deleteUavMissionsByTargetId targetId
  | .addTarget target => do let _ ← DbUavController.addTarget target
  | .getTargetsByType targetTypeId => do let _ ← DbUavController.getTargetsByType targetTypeId
  | .getTargetsByUavId uavId => do let _ ← DbUavController.getTargetsByUavId uavId
  | .getTargetsByUavIdAndTargetType uavId targetType =>
      do let _ ← DbUavManager.getTargetsByUavIdAndTargetType uavId targetType
  | .deleteTargetsByUavId uavId => do let _ ← DbUavController.deleteTargetsByUavId uavId
  | .deleteTargetsById id => do let _ ← DbUavController.deleteTargetsById id
  | .addTargetType name => do let _ ← DbUavController.addTargetType name
  | .getTargetTypeByName name => do let _ ← DbUavController.getTargetTypeByName name

inductive DbOp where
  | message (m : RpcMessage)
  | target (op : TargetOp)

def dbStep (w : World) : DbOp → World
  | .message m => handleMessage w m
  | .target op => ((db op.program).run w).2

/-- The message is a batch of the solver. -/
def RpcMessage.IsBatch (m : RpcMessage) : Prop :=
  m.method ≠ RPC_SLOT_SERVER_SEND_BLA_POINTS ∧ enemySource m.method ≠ none

def DbOp.IsBatch : DbOp → Prop
  | .message m => m.IsBatch
  | .target _ => False

/-- The operation looks a UAV up by its public id. -/
def DbOp.LooksUp : DbOp → Prop
  | .message m => (m.method = RPC_SLOT_SERVER_SEND_BLA_POINTS ∧ m.argument.positionDataVector ≠ [])
        ∨ (m.IsBatch ∧ m.argument.uavList ≠ [])
  | .target (.getTargetsByUavId _) => True
  | .target (.deleteTargetsByUavId _) => True
  | .target _ => False

/-- What an operation owes to the transaction: none is begun in an open one and none is left open,
everything written is durable afterwards, and a batch becomes durable all together. -/
structure Orderly (batch : Prop) (s s' : Session) : Prop where
  disciplined : s.tx.Disciplined (s.since s')
  durable : s'.tx.pending = []
  atomic : batch → s.tx.Atomic (s.since s')

theorem orderly_of_disciplined {batch : Prop} {s s' : Session}
    (hexecuted : s.Executed True (fun _ => True) s')
    (hdisciplined : s.tx.Disciplined (s.since s')) (hatomic : batch → s.tx.Atomic (s.since s')) :
    Orderly batch s s' := by
  refine ⟨hdisciplined, ?_, hatomic⟩
  rw [hexecuted.tx_eq]
  exact TxState.pending_of_disciplined (TxState.settled_initial.replay _) hdisciplined

theorem orderly_of_nothing {batch : Prop} {s s' : Session}
    (hexecuted : s.Executed True (fun _ => True) s') (hclosed : s.tx.isOpen = false)
    (hnothing : s.since s' = []) : Orderly batch s s' := by
  refine orderly_of_disciplined hexecuted ?_ fun _ => ?_
  · rw [hnothing]
    exact ⟨TxState.unnested_of_writes _ fun _ he => absurd he List.not_mem_nil, hclosed⟩
  · rw [hnothing]
    intro before hbefore
    rw [List.prefix_nil.mp hbefore]
    exact Or.inl rfl

theorem Orderly.closed {batch : Prop} {s s' : Session} (h : Orderly batch s s')
    (hexecuted : s.Executed True (fun _ => True) s') :
    s'.tx.isOpen = false := by
  rw [hexecuted.tx_eq]
  exact h.disciplined.2

theorem TargetOp.executes (op : TargetOp) : ExecutesAny op.program := by
  cases op with
  | addUavMission mission =>
      exact (transacts_insertRow (a := false) _).executes.bind fun _ => Moves.pure _
  | getUavMissionsByUavId uavId =>
      exact (executes_getUavMissionsByUavId _).bind fun _ => Moves.pure _
  | deleteUavMissionsByUavId uavId =>
      exact (transacts_deleteUavMissionsByUavId _).executes.bind fun _ => Moves.pure _
  | deleteUavMissionsByTargetId targetId =>
      exact (transacts_deleteUavMissionsByTargetId _).executes.bind fun _ => Moves.pure _
  | addTarget target => exact (transacts_addTarget _).executes.bind fun _ => Moves.pure _
  | getTargetsByType targetTypeId => exact (executes_getTargetsByType _).bind fun _ => Moves.pure _
  | getTargetsByUavId uavId =>
      exact (transacts_getTargetsByUavId _).executes.bind fun _ => Moves.pure _
  | getTargetsByUavIdAndTargetType uavId targetType =>
      exact (executes_getTargetsByUavIdAndTargetType _ _).bind fun _ => Moves.pure _
  | deleteTargetsByUavId uavId => exact (executes_deleteTargetsByUavId _).bind fun _ => Moves.pure _
  | deleteTargetsById id =>
      exact (transacts_deleteTargetsById _).executes.bind fun _ => Moves.pure _
  | addTargetType name =>
      exact (transacts_insertRow (a := false) _).executes.bind fun _ => Moves.pure _
  | getTargetTypeByName name => exact (executes_getDictionaryRecord _ _).bind fun _ => Moves.pure _

/-- The operations that look nobody up end the transaction they begin. -/
theorem TargetOp.transacts {op : TargetOp} (hop : ¬DbOp.LooksUp (.target op)) :
    Transacts false false op.program := by
  have hquiet : ∀ {α : Type} {f : DbM α}, Executes False (fun _ => True) f →
    Transacts false false (f >>= fun _ => pure PUnit.unit) :=
    fun hf => (Transacts.of_executes hf).bind fun _ => .pure _
  cases op with
  | addUavMission mission => exact (transacts_insertRow _).bind fun _ => .pure _
  | getUavMissionsByUavId uavId => exact hquiet (executes_getUavMissionsByUavId _)
  | deleteUavMissionsByUavId uavId =>
      exact (transacts_deleteUavMissionsByUavId _).bind fun _ => .pure _
  | deleteUavMissionsByTargetId targetId =>
      exact (transacts_deleteUavMissionsByTargetId _).bind fun _ => .pure _
  | addTarget target => exact (transacts_addTarget _).bind fun _ => .pure _
  | getTargetsByType targetTypeId => exact hquiet (executes_getTargetsByType _)
  | getTargetsByUavId uavId => exact absurd trivial hop
  | getTargetsByUavIdAndTargetType uavId targetType =>
      exact hquiet (executes_getTargetsByUavIdAndTargetType _ _)
  | deleteTargetsByUavId uavId => exact absurd trivial hop
  | deleteTargetsById id => exact (transacts_deleteTargetsById _).bind fun _ => .pure _
  | addTargetType name => exact (transacts_insertRow _).bind fun _ => .pure _
  | getTargetTypeByName name => exact hquiet (executes_getDictionaryRecord _ _)

theorem handleMessage_executes {w : World} {m : RpcMessage} :
    w.m_dbController.Executed True (fun _ => True) (handleMessage w m).m_dbController := by
  rw [handleMessage, onMethodCalled_eq]
  split
  · split
    · exact .refl _
    · exact executes_addUavInfoToDb
  · split
    · rw [sendEnemyUavPoints_eq]
      have hbegin : ExecutesAny beginTransaction := DbM.executes_transaction trivial
      have hcommit : ExecutesAny DbUavController.commit := DbM.executes_commit trivial
      exact (hbegin _).trans (Session.Executed.trans executes_enemyPoints (hcommit _))
    · exact .refl _

theorem dbStep_executes {w : World} {op : DbOp} : w.m_dbController.Executed True (fun _ => True)
    (dbStep w op).m_dbController := by
  cases op with
  | message m => exact handleMessage_executes
  | target op => exact op.executes _

variable {w : World} {m : RpcMessage}

theorem sendEnemyUavPoints_since (now : QDateTime) (uavList : List UAVPositionDataEnemy)
    (source : Nat) (hopen : w.m_dbController.isOpen = true) :
    ∃ positions, w.m_dbController.since
      ((sendEnemyUavPoints now uavList source).run w).2.m_dbController =
      .begin :: (positions ++ [.commit]) ∧
      (uavList = [] → positions = []) ∧ (uavList ≠ [] → [.begin] <+: positions) := by
  have hbegin : ExecutesAny beginTransaction := DbM.executes_transaction trivial
  have hcommit : ExecutesAny DbUavController.commit := DbM.executes_commit trivial
  let begun : World := { w with m_dbController := (beginTransaction.run w.m_dbController).2 }
  let written : World := ((enemyPoints now source 0 [] [] uavList).run begun).2
  have hpositions : begun.m_dbController.Executed True (fun _ => True) written.m_dbController :=
    executes_enemyPoints
  have hbegun : begun.m_dbController.isOpen = true := (hbegin _).isOpen_eq.trans hopen
  refine ⟨begun.m_dbController.since written.m_dbController, ?_, ?_, ?_⟩
  · rw [sendEnemyUavPoints_eq]
    change w.m_dbController.since (DbUavController.commit.run written.m_dbController).2 = _
    rw [(hbegin _).since_trans (hpositions.trans (hcommit _)), hpositions.since_trans (hcommit _),
      show w.m_dbController.since begun.m_dbController = [.begin] from DbM.since_transaction hopen,
      show written.m_dbController.since (DbUavController.commit.run written.m_dbController).2 =
        [.commit] from DbM.since_commit (hpositions.isOpen_eq.trans hbegun)]
    rfl
  · rintro rfl
    exact Session.since_of_append (List.append_nil _).symm
  · intro hlist
    obtain ⟨uav, rest, rfl⟩ := List.exists_cons_of_ne_nil hlist
    exact startsWith_enemyPoints hbegun

/-- A position of one of our boards leaves its transaction open, and a batch that is not empty
begins one inside its own. -/
theorem handleMessage_not_disciplined (hopen : w.m_dbController.isOpen = true)
    (hclosed : w.m_dbController.tx.isOpen = false)
    (hlooks : DbOp.LooksUp (.message m)) : ¬w.m_dbController.tx.Disciplined
    (w.m_dbController.since (handleMessage w m).m_dbController) := by
  intro hdisc
  rcases hlooks with ⟨hmethod, hvector⟩ | ⟨⟨hmethod, hsource⟩, hlist⟩
  · obtain ⟨positionData, rest, hcons⟩ := List.exists_cons_of_ne_nil hvector
    have hend := hdisc.2
    rw [← handleMessage_executes.tx_eq, handleMessage, onMethodCalled_eq, if_pos hmethod,
      hcons] at hend
    simp only [addUavInfoToDb_session] at hend
    rw [(transacts_recordPosition.run _ hopen hclosed).2] at hend
    exact Bool.noConfusion hend
  · obtain ⟨source, hsource⟩ := Option.ne_none_iff_exists'.mp hsource
    have hnested := hdisc.1
    rw [handleMessage, onMethodCalled_eq, if_neg hmethod, hsource] at hnested
    obtain ⟨positions, hsince, -, hstart⟩ :=
      sendEnemyUavPoints_since m.now m.argument.uavList source hopen
    obtain ⟨history, rfl⟩ := hstart hlist
    simp only [hsince] at hnested
    exact TxState.not_unnested_begin_begin hnested

/-- The other messages do nothing, or begin and commit an empty transaction. -/
theorem handleMessage_orderly (hopen : w.m_dbController.isOpen = true)
    (hclosed : w.m_dbController.tx.isOpen = false)
    (hlooks : ¬DbOp.LooksUp (.message m)) : Orderly m.IsBatch w.m_dbController
    (handleMessage w m).m_dbController := by
  have hnothing : ∀ {batch : Prop}, Orderly batch w.m_dbController w.m_dbController :=
    orderly_of_nothing (.refl _) hclosed (Session.since_of_append (List.append_nil _).symm)
  rw [handleMessage, onMethodCalled_eq]
  by_cases hmethod : m.method = RPC_SLOT_SERVER_SEND_BLA_POINTS
  · rw [if_pos hmethod]
    cases hvector : m.argument.positionDataVector with
    | nil => exact hnothing
    | cons positionData rest =>
        exact absurd (Or.inl ⟨hmethod, by rw [hvector]; exact List.cons_ne_nil _ _⟩) hlooks
  · rw [if_neg hmethod]
    cases hsource : enemySource m.method with
    | none => exact hnothing
    | some source =>
        have hempty : m.argument.uavList = [] := by
          by_contra hlist
          exact hlooks (Or.inr ⟨⟨hmethod, by rw [hsource]; exact Option.some_ne_none _⟩, hlist⟩)
        have hexecuted := handleMessage_executes (w := w) (m := m)
        rw [handleMessage, onMethodCalled_eq, if_neg hmethod, hsource] at hexecuted
        obtain ⟨positions, hsince, hnone, -⟩ :=
          sendEnemyUavPoints_since m.now m.argument.uavList source hopen
        rw [hnone hempty] at hsince
        have hsettled : w.m_dbController.tx.Settled := TxState.settled_initial.replay _
        refine orderly_of_disciplined hexecuted ?_ fun _ => ?_
        · simp only [hsince]
          exact ⟨(TxState.unnested_begin hclosed).append (TxState.unnested_commit _), rfl⟩
        · simp only [hsince]
          exact TxState.atomic_begin_writes_commit (hsettled hclosed) fun _ he =>
            absurd he List.not_mem_nil

/-- **One operation.** On an open connection it is orderly exactly when it looks nobody up by the
public id. -/
theorem orderly_iff (hclosed : w.m_dbController.tx.isOpen = false) (op : DbOp) :
    Orderly op.IsBatch w.m_dbController (dbStep w op).m_dbController ↔
      (w.m_dbController.isOpen = true → ¬op.LooksUp) := by
  constructor
  · intro horderly hopen hlooks
    have hdisc := horderly.disciplined
    cases op with
    | message m => exact handleMessage_not_disciplined hopen hclosed hlooks hdisc
    | target op =>
        cases op with
        | getTargetsByUavId uavId =>
            have htransacts : Transacts false true (TargetOp.program (.getTargetsByUavId uavId)) :=
              (transacts_getTargetsByUavId uavId).bind fun _ => .pure _
            have hend := (htransacts.run _ hopen hclosed).2
            exact Bool.noConfusion (hend.symm.trans (horderly.closed dbStep_executes))
        | deleteTargetsByUavId uavId =>
            have hstart : StartsWith [.begin, .begin]
              (TargetOp.program (.deleteTargetsByUavId uavId)) :=
              (startsWith_deleteTargetsByUavId uavId).bind (executes_deleteTargetsByUavId uavId)
                fun _ => Moves.pure _
            obtain ⟨history, hhistory⟩ := hstart _ hopen
            have hnested := hdisc.1
            rw [show (dbStep w (.target (.deleteTargetsByUavId uavId))).m_dbController =
              ((TargetOp.program (.deleteTargetsByUavId uavId)).run w.m_dbController).2 from rfl,
              ← hhistory] at hnested
            exact TxState.not_unnested_begin_begin hnested
        | addUavMission | getUavMissionsByUavId | deleteUavMissionsByUavId
              | deleteUavMissionsByTargetId | addTarget | getTargetsByType
        | getTargetsByUavIdAndTargetType | deleteTargetsById | addTargetType | getTargetTypeByName =>
            exact hlooks.elim
  · intro hquiet
    have hexecuted : w.m_dbController.Executed True (fun _ => True) (dbStep w op).m_dbController :=
      dbStep_executes
    cases hopen : w.m_dbController.isOpen with
    | false => exact orderly_of_nothing hexecuted hclosed (hexecuted.since_closed hopen)
    | true =>
        cases op with
        | message m => exact handleMessage_orderly hopen hclosed (hquiet hopen)
        | target op =>
            obtain ⟨hunnested, hend⟩ := (TargetOp.transacts (hquiet hopen)).run _ hopen hclosed
            refine orderly_of_disciplined hexecuted ⟨hunnested, ?_⟩ fun hbatch => hbatch.elim
            rw [← hexecuted.tx_eq]
            exact hend

/-- **Any operations on one connection**, whatever fails: every one is orderly exactly when none of
them looks a UAV up by its public id on an open connection. -/
theorem along_orderly_iff (w : World) (hclosed : w.m_dbController.tx.isOpen = false)
    (ops : List DbOp) :
    Along dbStep (fun w op => Orderly op.IsBatch w.m_dbController
      (dbStep w op).m_dbController) w ops ↔
      Along dbStep (fun w op => w.m_dbController.isOpen = true → ¬op.LooksUp) w ops :=
  Along.congr (fun _ _ _ horderly => horderly.closed dbStep_executes)
    (fun _ op h => orderly_iff h op) hclosed

/-- A fresh connection to the empty database, and no listeners. -/
def fresh : World := ⟨.connect .empty [], { m_receiversList := [] }, []⟩

theorem along_orderly_iff_fresh :
    Along dbStep (fun w op => Orderly op.IsBatch w.m_dbController
      (dbStep w op).m_dbController) fresh
      [.target (.addTargetType "Point"), .target (.deleteUavMissionsByUavId 1),
        .target (.deleteTargetsById 1)] := by
  refine (along_orderly_iff fresh rfl _).mpr ?_
  exact ⟨fun _ h => h, fun _ h => h, fun _ h => h, trivial⟩

/-- One position of a board of ours. -/
def boardMessage : RpcMessage :=
  ⟨⟨0, 0⟩, RPC_SLOT_SERVER_SEND_BLA_POINTS,
    { positionDataVector := [{ boardID := 7, dateTime := ⟨0, 0⟩ }] }⟩

/-- A batch of two positions of different frequencies. -/
def twoPositions : RpcMessage :=
  ⟨⟨0, 0⟩, RPC_SLOT_SERVER_SEND_BPLA_POINTS_SINGLE,
    { uavList := [{ frequency := 100, time := 0 }, { frequency := 200, time := 0 }] }⟩

/-- The record of the board waits for a commit that does not come, and what is written for the first
position of the batch is durable before what is written for the second. -/
theorem not_along_orderly :
    ¬Along dbStep (fun w op => Orderly op.IsBatch w.m_dbController (dbStep w op).m_dbController)
      fresh [.message boardMessage] ∧
      ¬fresh.m_dbController.tx.Atomic
        (fresh.m_dbController.since (dbStep fresh (.message twoPositions)).m_dbController) := by
  constructor
  · intro h
    have hdurable := h.1.durable
    revert hdurable
    decide +kernel
  · intro h
    have hprefix := h ((fresh.m_dbController.since
      (dbStep fresh (.message twoPositions)).m_dbController).take 12) (List.take_prefix ..)
    revert hprefix
    decide +kernel

end DbUavManager

end ArmOd
