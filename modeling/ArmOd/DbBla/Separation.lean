import ArmOd.Base.Run
import ArmOd.DbBla.Record

/-!
# Friend and foe

Our own boards are looked up by their board id and the enemies by a board id made of the frequency,
in one table and by one lookup that does not ask for the role. What a message produces is a row of
the message's role exactly where every record it writes finds no row of another role under its board
id. Rows are only added, and with the role of the message that adds them, so this can be read off
the tables before the message.
-/

namespace ArmOd

namespace Store

/-- Every UAV has a role. -/
def RolesKnown (s : Store) : Prop := ∀ r ∈ s.uav.rows, ∃ role, s.roleOf r.1 = some role

theorem apply_rolesKnown {s s' : Store} {w : Write} {id : Nat} (h : s.apply w = some (id, s'))
    (hknown : s.RolesKnown) : s'.RolesKnown := by
  intro r hr
  have hgrows := apply_grows h
  have hold : r ∈ s.uav.rows → ∃ role, s'.roleOf r.1 = some role := by
    intro hr
    obtain ⟨role, hrole⟩ := hknown r hr
    exact ⟨role, hgrows.roleOf hrole⟩
  cases w with
  | insertUav row =>
      obtain ⟨t, hinsert, rfl⟩ := apply_insertUav h
      rcases (Table.mem_rows_insert hinsert).mp hr with hr | rfl
      · exact hold hr
      · rw [apply] at h
        split at h
        · rename_i hrefs
          rw [Bool.and_eq_true] at hrefs
          obtain ⟨roleRow, hroleRow⟩ := Option.isSome_iff_exists.mp hrefs.2
          refine ⟨roleRow.code, ?_⟩
          rw [roleOf, Table.insert_get? hinsert, Option.bind_some]
          exact Option.map_eq_some_iff.mpr ⟨roleRow, hroleRow, rfl⟩
        · cases h
  | _ =>
      rw [apply_uav_eq (by intro row heq; cases heq) h] at hr
      exact hold hr

theorem Writes.rolesKnown {s s' : Store} {ws : List Write} (h : s.Writes ws s')
    (hknown : s.RolesKnown) : s'.RolesKnown := by
  induction h with
  | nil => exact hknown
  | cons happly _ ih => exact ih (apply_rolesKnown happly hknown)

/-- The row looked up by a board id, where there is one, has the role. -/
def RoleAgrees (s : Store) (role : String) (boardID : Nat) : Prop :=
  ∀ id, (s.uav.firstId fun row => row.uavId == boardID) = some id → s.roleOf id = some role

instance (s : Store) (role : String) (boardID : Nat) : Decidable (s.RoleAgrees role boardID) :=
  inferInstanceAs (Decidable (∀ id ∈ s.uav.firstId fun row => row.uavId == boardID,
    s.roleOf id = some role))

end Store

namespace DbUavManager

open DbUavController

/-- The UAV of a notification has the role. -/
def RefersTo (s : Store) (role : String) : UavNotification → Prop
  | .onUavAdded uav uavRole => uavRole = role ∧ ∃ id : Nat, uav.id = id ∧ s.roleOf id = some role
  | .onUavInfoChanged uavInfo uavRole _ _ =>
      uavRole = role ∧ ∃ id row, s.uav.get? id = some row ∧ uint row.uavId = uavInfo.uavId ∧
        s.roleOf id = some role
  | .onUavRemoved _ _ => True

/-- Every record written between two states, and every notification sent, is about a UAV of the
role. -/
def Produces (role : String) (w w' : World) : Prop :=
  ∃ newWrites newSent, w'.m_dbController.contents.written =
    w.m_dbController.contents.written ++ newWrites ∧ w'.sent = w.sent ++ newSent ∧
    (∀ row, Write.insertInfo row ∈ newWrites →
      w'.m_dbController.store.roleOf row.uavID = some role) ∧
    ∀ n ∈ newSent, RefersTo w'.m_dbController.store role n.2

theorem RefersTo.grows {s s' : Store} {role : String} {n : UavNotification} (h : RefersTo s role n)
    (hgrows : s.Grows s') :
    RefersTo s' role n := by
  cases n with
  | onUavAdded uav uavRole =>
      obtain ⟨hrole, id, hid, hof⟩ := h
      exact ⟨hrole, id, hid, hgrows.roleOf hof⟩
  | onUavInfoChanged uavInfo uavRole tail tailStdDev =>
      obtain ⟨hrole, id, row, hrow, hid, hof⟩ := h
      exact ⟨hrole, id, row, hgrows.uav.get? hrow, hid, hgrows.roleOf hof⟩
  | onUavRemoved uav uavRole => trivial

theorem Produces.refl (role : String) (w : World) : Produces role w w :=
  ⟨[], [], (List.append_nil _).symm, (List.append_nil _).symm, fun _ h => absurd h List.not_mem_nil,
    fun _ h => absurd h List.not_mem_nil⟩

theorem Produces.trans {role : String} {w w' w'' : World} (h : Produces role w w')
    (h' : Produces role w' w'')
    (hgrows : w'.m_dbController.store.Grows w''.m_dbController.store) : Produces role w w'' := by
  obtain ⟨writes, sent, hwrites, hsent, hrecords, hrefers⟩ := h
  obtain ⟨writes', sent', hwrites', hsent', hrecords', hrefers'⟩ := h'
  refine ⟨writes ++ writes', sent ++ sent', by rw [hwrites', hwrites, List.append_assoc],
    by rw [hsent', hsent, List.append_assoc], ?_, ?_⟩
  · intro row hrow
    rcases List.mem_append.mp hrow with hrow | hrow
    · exact hgrows.roleOf (hrecords row hrow)
    · exact hrecords' row hrow
  · intro n hn
    rcases List.mem_append.mp hn with hn | hn
    · exact (hrefers n hn).grows hgrows
    · exact hrefers' n hn

/-! ### One position -/

theorem trackUav_sent (uav : Uav) (uavRole : String) (w : World) :
    ∃ new, ((trackUav uav uavRole).run w).2.sent = w.sent ++ new ∧
      ∀ n ∈ new, n.2 = .onUavAdded uav uavRole := by
  cases hnew : w.manager.isNew uav.uavId with
  | true =>
      refine ⟨w.manager.m_receiversList.map fun receiver =>
        (receiver, .onUavAdded uav uavRole), ?_, ?_⟩
      · simp only [trackUav, run_bind, run_get, run_update, run_notify, hnew, if_true, insertUav]
      · simp
  | false =>
      refine ⟨[], ?_, fun n hn => absurd hn List.not_mem_nil⟩
      simp only [trackUav, run_bind, run_get, run_update, hnew, Bool.false_eq_true, if_false,
        List.append_nil]

theorem announce_sent (uavInfo : UavInfo) (r : Recorded) (tail tailStdDev : List QPointF)
    (w : World) :
    ∃ new, ((announce uavInfo r tail tailStdDev).run w).2.sent = w.sent ++ new ∧
      ∀ n ∈ new, n.2 = .onUavAdded r.uav r.uavRole ∨
        n.2 = .onUavInfoChanged { uavInfo with uavId := r.uav.uavId, source := r.source } r.uavRole
        tail tailStdDev := by
  obtain ⟨added, hadded, haddedKind⟩ := trackUav_sent r.uav r.uavRole w
  rw [announce, run_bind, run_ite]
  split
  · refine ⟨added ++ _, by rw [run_notify, hadded, List.append_assoc], fun n hn => ?_⟩
    rcases List.mem_append.mp hn with hn | hn
    · exact Or.inl (haddedKind n hn)
    · obtain ⟨receiver, -, rfl⟩ := List.mem_map.mp hn
      exact Or.inr rfl
  · exact ⟨added, hadded, fun n hn => Or.inl (haddedKind n hn)⟩

theorem addUavInfoToDb_cases {positionData : UAVPositionData}
    {role uavType status deviceType sourceType : String} {actual : Bool}
    {tail tailStdDev : List QPointF} {w w' : World}
    (hw' : ((addUavInfoToDb positionData role uavType status deviceType sourceType actual tail
      tailStdDev).run w).2 = w')
    (hhealthy : w'.m_dbController.Healthy) :
    ∃ info afterUav built r, (StoreM.uavId positionData role uavType).run w.m_dbController.contents
      = some (info.uavId, afterUav) ∧
      afterUav.Adds StoreM.IsAuxiliary built ∧
        (StoreM.recordOf info actual).run built = some (r, w'.m_dbController.contents) ∧
      ∃ new, w'.sent = w.sent ++ new ∧ ∀ n ∈ new, ∃ recorded, r = some recorded ∧
        (n.2 = .onUavAdded recorded.uav recorded.uavRole ∨
        n.2 = .onUavInfoChanged { info with uavId := recorded.uav.uavId, source := recorded.source }
          recorded.uavRole tail tailStdDev) := by
  have hsession : w'.m_dbController =
    ((recordPosition positionData role uavType status deviceType sourceType actual).run
    w.m_dbController).2 := by
    rw [← hw', addUavInfoToDb_session]
  rw [hsession] at hhealthy
  obtain ⟨info, afterUav, built, hinfo, huav, hadds, hrecord⟩ := recordPosition_run hhealthy
  refine ⟨info, afterUav, built, _, huav, hadds, by rw [hsession]; exact hrecord, ?_⟩
  rw [recordPosition, run_bind, hinfo]
  rw [addUavInfoToDb_run] at hw'
  simp only [hinfo] at hw'
  rcases hr : (recordOf info actual).run
    ((uavInfoFor positionData role uavType status deviceType sourceType).run
    w.m_dbController).2 with ⟨_ | r, s⟩
  · simp only [hr] at hw'
    rw [← hw']
    exact ⟨[], (List.append_nil _).symm, fun n hn => absurd hn List.not_mem_nil⟩
  · simp only [hr] at hw'
    obtain ⟨new, hnew, hkinds⟩ := announce_sent info r tail tailStdDev
      { w with m_dbController := s }
    rw [← hw']
    exact ⟨new, hnew, fun n hn => ⟨r, rfl, hkinds n hn⟩⟩

theorem notInfo_of_isAuxiliary {w : Write} (h : StoreM.IsAuxiliary w) : NotInfo w := by
  cases w with
  | insertInfo row => exact h
  | _ => trivial

theorem adds_notInfo {positionData : UAVPositionData} {role uavType : String} {id : Nat}
    {c afterUav built : DbContents}
    (huav : (StoreM.uavId positionData role uavType).run c = some (id, afterUav))
    (hadds : afterUav.Adds StoreM.IsAuxiliary built) :
    c.Adds NotInfo built :=
  (StoreM.uavId_adds huav trivial trivial fun _ => trivial).trans
    (hadds.mono fun _ => notInfo_of_isAuxiliary)

section Position

variable {positionData : UAVPositionData} {role uavType status deviceType sourceType : String}
  {actual : Bool} {tail tailStdDev : List QPointF}
  {w w' : World} (hw' : ((addUavInfoToDb positionData role uavType status deviceType sourceType
    actual tail tailStdDev).run w).2 = w')
  (hhealthy : w'.m_dbController.Healthy)

include hw' hhealthy

theorem position_adds : w.m_dbController.contents.Adds
    (fun _ => True) w'.m_dbController.contents := by
  obtain ⟨info, afterUav, built, r, huav, hadds, hrecord, -⟩ := addUavInfoToDb_cases hw' hhealthy
  exact ((StoreM.uavId_adds huav trivial trivial fun _ => trivial).trans
    (hadds.mono fun _ _ => trivial)).trans
    ((StoreM.recordOf_adds hrecord).mono fun _ _ => trivial)

/-- The rows a position adds have its role, so that no lookup goes wrong by it. -/
theorem position_roleAgrees {boardID : Nat}
    (hagrees : w.m_dbController.store.RoleAgrees role boardID) :
    w'.m_dbController.store.RoleAgrees role boardID := by
  have hgrows := (position_adds hw' hhealthy).grows
  obtain ⟨info, afterUav, built, r, huav, hadds, hrecord, -⟩ := addUavInfoToDb_cases hw' hhealthy
  have hrest := (hadds.mono fun w hw row => StoreM.ne_insertUav_of_isAuxiliary hw row).trans
    ((StoreM.recordOf_adds hrecord).mono fun w hw row heq => by rw [hw] at heq; cases heq)
  have hsame := hrest.uav_eq fun _ h => h
  intro id hfirst
  rw [show w'.m_dbController.store.uav = afterUav.store.uav from hsame] at hfirst
  rcases StoreM.uavId_cases huav with ⟨-, rfl⟩ | ⟨-, row, mid, -, hinsert, -, -, -, hrole⟩
  · exact hgrows.roleOf (hagrees id hfirst)
  · rw [Table.firstId_insert hinsert] at hfirst
    rcases hold : w.m_dbController.store.uav.firstId fun row => row.uavId == boardID with _ | first
    · rw [show w.m_dbController.contents.store.uav.firstId _ = none from hold,
        Option.none_or] at hfirst
      split at hfirst
      · cases hfirst
        exact hrest.grows.roleOf hrole
      · cases hfirst
    · rw [show w.m_dbController.contents.store.uav.firstId _ = some first from hold,
        Option.some_or] at hfirst
      cases hfirst
      exact hgrows.roleOf (hagrees _ hold)

/-- Where the lookup agrees, or nothing is to be told, what a position produces is of its role. -/
theorem position_produces (hagrees : actual = true →
      w.m_dbController.store.RoleAgrees role positionData.boardID) :
    Produces role w w' := by
  have hgrows := (position_adds hw' hhealthy).grows
  obtain ⟨info, afterUav, built, r, huav, hadds, hrecord, newSent, hsent, hkinds⟩ :=
    addUavInfoToDb_cases hw' hhealthy
  obtain ⟨first, hfirst, hfirstKinds, -⟩ := adds_notInfo huav hadds
  cases actual with
  | false =>
      obtain ⟨rfl, hsame⟩ := StoreM.recordOf_false hrecord
      refine ⟨first, newSent, by rw [hsame, hfirst], hsent, fun row hrow =>
        absurd (hfirstKinds _ hrow) id, fun n hn => ?_⟩
      obtain ⟨recorded, hrecorded, -⟩ := hkinds n hn
      cases hrecorded
  | true =>
      obtain ⟨row, hrow⟩ := StoreM.uavId_get? huav
      have hafter := (hadds.mono fun _ _ => trivial).trans
        ((StoreM.recordOf_adds hrecord).mono fun _ _ => (trivial : True))
      have hrole : w'.m_dbController.store.roleOf info.uavId = some role := by
        rcases StoreM.uavId_cases huav with ⟨hfound, rfl⟩ | ⟨-, _, _, -, -, -, -, -, hcreated⟩
        · exact hgrows.roleOf (hagrees rfl _ hfound)
        · exact hafter.grows.roleOf hcreated
      obtain ⟨hwritten, recorded, rfl, hid, huavId, hroleEq, -⟩ :=
        StoreM.recordOf_true (hadds.grows.uav.get? hrow) hrecord
      refine ⟨first ++ [.insertInfo (infoRow info)], newSent,
        by rw [hwritten, hfirst, List.append_assoc], hsent, ?_, fun n hn => ?_⟩
      · intro row' hrow'
        rcases List.mem_append.mp hrow' with hrow' | hrow'
        · exact absurd (hfirstKinds _ hrow') id
        · cases List.mem_singleton.mp hrow'
          exact hrole
      · obtain ⟨_, heq, hkind⟩ := hkinds n hn
        cases heq
        have hcode := hroleEq role hrole
        rcases hkind with hkind | hkind
        · rw [hkind]
          exact ⟨hcode, info.uavId, hid, hrole⟩
        · rw [hkind]
          exact ⟨hcode, info.uavId, row, hafter.grows.uav.get? hrow, huavId.symm, hrole⟩

theorem position_writes (hactual : actual = true) {id : Nat}
    (hfirst : (w.m_dbController.store.uav.firstId fun row => row.uavId == positionData.boardID)
    = some id) :
    ∃ new row, w'.m_dbController.contents.written = w.m_dbController.contents.written ++ new ∧
      Write.insertInfo row ∈ new ∧ row.uavID = id := by
  obtain ⟨info, afterUav, built, r, huav, hadds, hrecord, -⟩ := addUavInfoToDb_cases hw' hhealthy
  obtain ⟨row, hrow⟩ := StoreM.uavId_get? huav
  subst hactual
  obtain ⟨hwritten, -⟩ := StoreM.recordOf_true (hadds.grows.uav.get? hrow) hrecord
  have hid : info.uavId = id := by
    rcases StoreM.uavId_cases huav with ⟨hfound, -⟩ | ⟨hnone, -⟩
    · exact Option.some.inj (hfound.symm.trans hfirst)
    · exact absurd (hfirst.symm.trans hnone) (Option.some_ne_none id)
  obtain ⟨first, hfirst', -⟩ := adds_notInfo huav hadds
  exact ⟨first ++ [.insertInfo (infoRow info)], infoRow info,
    by rw [hwritten, hfirst', List.append_assoc],
    List.mem_append_right _ List.mem_cons_self, hid⟩

end Position

/-! ### One message -/

/-- The positions of a batch that are written: the last one, or all of them where each is a source
of its own. -/
def actualPositions (sourceType : Nat) : List UAVPositionDataEnemy → List UAVPositionDataEnemy
  | [] => []
  | uav :: rest =>
      if (rest.isEmpty || isSingleSource sourceType) = true then
        uav :: actualPositions sourceType rest else actualPositions sourceType rest

theorem mem_actualPositions_cons {sourceType : Nat} {uav other : UAVPositionDataEnemy}
    {rest : List UAVPositionDataEnemy} :
    other ∈ actualPositions sourceType (uav :: rest) ↔
      (rest.isEmpty || isSingleSource sourceType) = true ∧ other = uav ∨
      other ∈ actualPositions sourceType rest := by
  rw [actualPositions]
  split
  · rename_i hactual
    rw [List.mem_cons, and_iff_right hactual]
  · rename_i hactual
    rw [or_iff_right fun h => hactual h.1]

theorem healthy_of_addUavInfoToDb {positionData : UAVPositionData}
    {role uavType status deviceType sourceType : String} {actual : Bool}
    {tail tailStdDev : List QPointF} {w : World}
    (hhealthy : ((addUavInfoToDb positionData role uavType status deviceType sourceType actual tail
      tailStdDev).run w).2.m_dbController.Healthy) :
    w.m_dbController.Healthy := by
  rw [addUavInfoToDb_session] at hhealthy
  exact (refines_recordPosition _ _ _ _ _ _ _).back _ hhealthy

section Batch

variable {now : QDateTime} {sourceType i : Nat} {tail tailStdDev : List QPointF}
  {uavs : List UAVPositionDataEnemy} {w w' : World}
  (hw' : ((enemyPoints now sourceType i tail tailStdDev uavs).run w).2 = w')
    (hhealthy : w'.m_dbController.Healthy)

include hw' hhealthy

theorem healthy_of_enemyPoints : w.m_dbController.Healthy := by
  induction uavs generalizing i tail tailStdDev w with
  | nil =>
      rw [← hw'] at hhealthy
      exact hhealthy
  | cons uav rest ih =>
      rw [enemyPoints, run_bind, addEnemyUavInfoToDb] at hw'
      exact healthy_of_addUavInfoToDb (ih hw')

theorem enemyPoints_adds : w.m_dbController.contents.Adds
    (fun _ => True) w'.m_dbController.contents := by
  induction uavs generalizing i tail tailStdDev w with
  | nil =>
      rw [← hw']
      exact .refl _
  | cons uav rest ih =>
      rw [enemyPoints, run_bind, addEnemyUavInfoToDb] at hw'
      exact (position_adds rfl (healthy_of_enemyPoints hw' hhealthy)).trans (ih hw')

theorem enemyPoints_produces
    (hagrees : ∀ uav ∈ actualPositions sourceType uavs,
    w.m_dbController.store.RoleAgrees ENEMY_UAV_ROLE (enemyBoardID uav.frequency)) :
    Produces ENEMY_UAV_ROLE w w' := by
  induction uavs generalizing i tail tailStdDev w with
  | nil =>
      rw [← hw']
      exact .refl ENEMY_UAV_ROLE w
  | cons uav rest ih =>
      rw [enemyPoints, run_bind, addEnemyUavInfoToDb] at hw'
      have hstep := healthy_of_enemyPoints hw' hhealthy
      have hfirst := position_produces rfl hstep fun hactual =>
        hagrees uav (mem_actualPositions_cons.mpr (Or.inl ⟨hactual, rfl⟩))
      exact hfirst.trans (ih hw' fun other hother =>
        position_roleAgrees rfl hstep (hagrees other
        (mem_actualPositions_cons.mpr (Or.inr hother))))
        (enemyPoints_adds hw' hhealthy).grows

theorem enemyPoints_writes {uav : UAVPositionDataEnemy}
    (huav : uav ∈ actualPositions sourceType uavs) {id : Nat}
    (hfirst : (w.m_dbController.store.uav.firstId fun row =>
      row.uavId == enemyBoardID uav.frequency) = some id) :
    ∃ new row, w'.m_dbController.contents.written = w.m_dbController.contents.written ++ new ∧
      Write.insertInfo row ∈ new ∧ row.uavID = id := by
  induction uavs generalizing i tail tailStdDev w with
  | nil => exact absurd huav List.not_mem_nil
  | cons head rest ih =>
      rw [enemyPoints, run_bind, addEnemyUavInfoToDb] at hw'
      have hstep := healthy_of_enemyPoints hw' hhealthy
      rcases mem_actualPositions_cons.mp huav with ⟨hactual, rfl⟩ | huav
      · obtain ⟨new, row, hnew, hrow, hid⟩ := position_writes rfl hstep hactual hfirst
        obtain ⟨after, hafter, -⟩ := enemyPoints_adds hw' hhealthy
        exact ⟨new ++ after, row, by rw [hafter, hnew, List.append_assoc],
          List.mem_append_left _ hrow, hid⟩
      · obtain ⟨before, hbefore, -⟩ := position_adds rfl hstep
        obtain ⟨new, row, hnew, hrow, hid⟩ :=
          ih hw' huav ((position_adds rfl hstep).grows.uav.firstId hfirst)
        exact ⟨before ++ new, row, by rw [hnew, hbefore, List.append_assoc],
          List.mem_append_right _ hrow, hid⟩

end Batch

/-! ### Any number of messages -/

/-- The role of the UAVs a message is about. -/
def messageRole (method : String) : Option String :=
  if method = RPC_SLOT_SERVER_SEND_BLA_POINTS then some OUR_UAV_ROLE
    else (enemySource method).map fun _ => ENEMY_UAV_ROLE

/-- The board ids under which a message writes records. -/
def writtenBoards (m : RpcMessage) : List Nat :=
  if m.method = RPC_SLOT_SERVER_SEND_BLA_POINTS then
    m.argument.positionDataVector.head?.toList.map UAVPositionData.boardID
  else match enemySource m.method with
    | some sourceType =>
        (actualPositions sourceType m.argument.uavList).map fun uav => enemyBoardID uav.frequency
    | none => []

/-- Everything a message produces is about UAVs of the message's role. -/
def Separated (w : World) (m : RpcMessage) : Prop :=
  ∀ role, messageRole m.method = some role → Produces role w (handleMessage w m)

/-- Under every board id a message writes to, a row that is found has the message's role. -/
def LookupsAgree (w : World) (m : RpcMessage) : Prop :=
  ∀ role, messageRole m.method = some role →
    ∀ boardID ∈ writtenBoards m, w.m_dbController.store.RoleAgrees role boardID

instance (w : World) (m : RpcMessage) : Decidable (LookupsAgree w m) :=
  inferInstanceAs (Decidable (∀ role ∈ messageRole m.method, ∀ boardID ∈ writtenBoards m,
    w.m_dbController.store.RoleAgrees role boardID))

/-- What is written to the row a lookup finds decides its role. -/
theorem roleAgrees_of_produces {role : String} {w w' : World} {boardID : Nat}
    (hknown : w.m_dbController.store.RolesKnown)
    (hgrows : w.m_dbController.store.Grows w'.m_dbController.store) (hproduces : Produces role w w')
    (hwrites : ∀ id, (w.m_dbController.store.uav.firstId fun row =>
      row.uavId == boardID) = some id →
      ∃ new row, w'.m_dbController.contents.written = w.m_dbController.contents.written ++ new ∧
        Write.insertInfo row ∈ new ∧ row.uavID = id) :
    w.m_dbController.store.RoleAgrees role boardID := by
  intro id hfirst
  obtain ⟨uavRow, hget, -⟩ := Table.firstId_eq_some hfirst
  obtain ⟨other, hother⟩ := hknown _ ((Table.get?_eq_some_iff _).mp hget)
  obtain ⟨new, row, hnew, hrow, rfl⟩ := hwrites id hfirst
  obtain ⟨newWrites, -, hwritten, -, hrecords, -⟩ := hproduces
  rw [hnew, List.append_cancel_left_eq] at hwritten
  have hrole := hrecords row (hwritten ▸ hrow)
  rw [hgrows.roleOf hother] at hrole
  rw [hother, hrole]

/-- The transaction around a batch changes neither the tables nor what was sent. -/
theorem sendEnemyUavPoints_run {now : QDateTime} {uavList : List UAVPositionDataEnemy}
    {sourceType : Nat} {w : World}
    (hhealthy : ((sendEnemyUavPoints now uavList sourceType).run w).2.m_dbController.Healthy) :
    w.m_dbController.Healthy ∧ ∃ w₁ w₂, w₁.m_dbController.contents = w.m_dbController.contents ∧
      w₁.sent = w.sent ∧
      ((enemyPoints now sourceType 0 [] [] uavList).run w₁).2 = w₂ ∧ w₂.m_dbController.Healthy ∧
      ((sendEnemyUavPoints now uavList sourceType).run w).2.m_dbController.contents =
        w₂.m_dbController.contents ∧
      ((sendEnemyUavPoints now uavList sourceType).run w).2.sent = w₂.sent := by
  let w₁ : World := { w with m_dbController := (beginTransaction.run w.m_dbController).2 }
  let w₂ := ((enemyPoints now sourceType 0 [] [] uavList).run w₁).2
  have hcommit : ((sendEnemyUavPoints now uavList sourceType).run w).2 =
      { w₂ with m_dbController := (DbUavController.commit.run w₂.m_dbController).2 } :=
      sendEnemyUavPoints_eq ..
  rw [hcommit] at hhealthy ⊢
  have hafter := DbM.refines_commit.back _ hhealthy
  have hcommitted := DbM.refines_commit.run _ hhealthy
  have hbefore : w₁.m_dbController.Healthy := healthy_of_enemyPoints rfl hafter
  have hbegun := DbM.refines_transaction.run _ hbefore
  exact ⟨DbM.refines_transaction.back _ hbefore, w₁, w₂,
    (Prod.mk.inj (Option.some.inj hbegun)).2.symm, rfl, rfl, hafter,
    (Prod.mk.inj (Option.some.inj hcommitted)).2.symm, rfl⟩

theorem produces_congr {role : String} {w w' v v' : World}
    (hw : v.m_dbController.contents = w.m_dbController.contents) (hsent : v.sent = w.sent)
    (hw' : v'.m_dbController.contents = w'.m_dbController.contents) (hsent' : v'.sent = w'.sent) :
    Produces role v v' ↔ Produces role w w' := by
  have hstore : v'.m_dbController.store = w'.m_dbController.store := congrArg DbContents.store hw'
  rw [Produces, Produces, hw, hsent, hw', hsent', hstore]

theorem handleMessage_adds {w : World} {m : RpcMessage}
    (hhealthy : (handleMessage w m).m_dbController.Healthy) :
    w.m_dbController.contents.Adds (fun _ => True) (handleMessage w m).m_dbController.contents := by
  rw [handleMessage, onMethodCalled_eq] at hhealthy ⊢
  split at hhealthy
  · rw [if_pos ‹_›]
    split at hhealthy
    · exact .refl _
    · exact position_adds rfl hhealthy
  · rw [if_neg ‹_›]
    split at hhealthy
    · obtain ⟨-, w₁, w₂, hw₁, -, hloop, hafter, hw', -⟩ := sendEnemyUavPoints_run hhealthy
      rw [hw', ← hw₁]
      exact enemyPoints_adds hloop hafter
    · exact .refl _

theorem separated_bla {positionData : UAVPositionData} {w w' : World}
    (hw' : ((addUavInfoToDb positionData OUR_UAV_ROLE "UnknownUavType" "UnknownStatus"
    "UnknownDeviceType" "UnknownSourceType" true [] []).run w).2 = w')
    (hhealthy : w'.m_dbController.Healthy) (hknown : w.m_dbController.store.RolesKnown) :
    Produces OUR_UAV_ROLE w w' ↔ w.m_dbController.store.RoleAgrees OUR_UAV_ROLE
      positionData.boardID :=
  ⟨fun hproduces => roleAgrees_of_produces hknown (position_adds hw' hhealthy).grows hproduces
    fun _ hfirst => position_writes hw' hhealthy rfl hfirst,
    fun hagrees => position_produces hw' hhealthy fun _ => hagrees⟩

theorem separated_enemy {now : QDateTime} {uavList : List UAVPositionDataEnemy} {sourceType : Nat}
    {w w' : World}
    (hw' : ((sendEnemyUavPoints now uavList sourceType).run w).2 = w')
    (hhealthy : w'.m_dbController.Healthy)
    (hknown : w.m_dbController.store.RolesKnown) :
    Produces ENEMY_UAV_ROLE w w' ↔
      ∀ uav ∈ actualPositions sourceType uavList,
      w.m_dbController.store.RoleAgrees ENEMY_UAV_ROLE (enemyBoardID uav.frequency) := by
  rw [← hw'] at hhealthy
  obtain ⟨-, w₁, w₂, hw₁, hsent₁, hloop, hafter, hw₂, hsent₂⟩ := sendEnemyUavPoints_run hhealthy
  rw [hw'] at hw₂ hsent₂
  rw [← produces_congr hw₁ hsent₁ hw₂.symm hsent₂.symm]
  have hstore : w₁.m_dbController.store = w.m_dbController.store := congrArg DbContents.store hw₁
  rw [← hstore] at hknown ⊢
  constructor
  · intro hproduces uav huav
    exact roleAgrees_of_produces hknown (enemyPoints_adds hloop hafter).grows hproduces
      fun _ hfirst =>
      enemyPoints_writes hloop hafter huav hfirst
  · exact fun hagrees => enemyPoints_produces hloop hafter hagrees

/-- **One message.** It produces rows of its role exactly where its lookups agree. -/
theorem separated_iff {w : World} {m : RpcMessage}
    (hhealthy : (handleMessage w m).m_dbController.Healthy)
    (hknown : w.m_dbController.store.RolesKnown) : Separated w m ↔ LookupsAgree w m := by
  rw [Separated, LookupsAgree]
  refine forall_congr' fun role => imp_congr_right fun hrole => ?_
  rw [handleMessage, onMethodCalled_eq] at hhealthy ⊢
  rw [messageRole] at hrole
  rw [writtenBoards]
  by_cases hmethod : m.method = RPC_SLOT_SERVER_SEND_BLA_POINTS
  · rw [if_pos hmethod] at hhealthy hrole ⊢
    rw [if_pos hmethod]
    cases hrole
    cases hvector : m.argument.positionDataVector with
    | nil => exact ⟨fun _ _ h => absurd h List.not_mem_nil, fun _ => Produces.refl OUR_UAV_ROLE w⟩
    | cons positionData rest =>
        simp only [hvector] at hhealthy ⊢
        simpa using separated_bla rfl hhealthy hknown
  · rw [if_neg hmethod] at hhealthy hrole ⊢
    rw [if_neg hmethod]
    cases hsource : enemySource m.method with
    | none =>
        rw [hsource] at hrole
        cases hrole
    | some sourceType =>
        rw [hsource] at hrole
        cases hrole
        simp only [hsource] at hhealthy ⊢
        simpa using separated_enemy rfl hhealthy hknown

theorem handleMessage_rolesKnown {w : World} {m : RpcMessage}
    (hhealthy : (handleMessage w m).m_dbController.Healthy)
    (hknown : w.m_dbController.store.RolesKnown) :
    (handleMessage w m).m_dbController.store.RolesKnown := by
  obtain ⟨_, _, _, hwrites⟩ := handleMessage_adds hhealthy
  exact hwrites.rolesKnown hknown

theorem healthy_of_handleMessage {w : World} {m : RpcMessage}
    (hhealthy : (handleMessage w m).m_dbController.Healthy) :
    w.m_dbController.Healthy := by
  rw [handleMessage, onMethodCalled_eq] at hhealthy
  split at hhealthy
  · split at hhealthy
    · exact hhealthy
    · exact healthy_of_addUavInfoToDb hhealthy
  · split at hhealthy
    · exact (sendEnemyUavPoints_run hhealthy).1
    · exact hhealthy

theorem healthy_of_handleMessages {w : World} (ms : List RpcMessage)
    (hhealthy : (ms.foldl handleMessage w).m_dbController.Healthy) :
    w.m_dbController.Healthy := by
  induction ms generalizing w with
  | nil => exact hhealthy
  | cons m ms ih => exact healthy_of_handleMessage (ih hhealthy)

/-- **Friend and foe stay apart exactly in the runs whose lookups agree.** -/
theorem along_separated_iff (w : World) (ms : List RpcMessage)
    (hempty : w.m_dbController.store.uav.rows = [])
    (hhealthy : (ms.foldl handleMessage w).m_dbController.Healthy) :
    Along handleMessage Separated w ms ↔ Along handleMessage LookupsAgree w ms := by
  have hknown : w.m_dbController.store.RolesKnown := by
    intro r hr
    rw [hempty] at hr
    exact absurd hr List.not_mem_nil
  clear hempty
  induction ms generalizing w with
  | nil => exact Iff.rfl
  | cons m ms ih =>
      have hstep := healthy_of_handleMessages ms hhealthy
      exact and_congr (separated_iff hstep hknown)
        (ih (handleMessage w m) hhealthy (handleMessage_rolesKnown hstep hknown))

/-- A database that knows the sources of both kinds of message, and no UAV. -/
def withoutUavs : Store :=
  [Write.insertDictionary .sourcetypes "UnknownSourceType", .insertSource ⟨1, UAV_AUTOPILOT_SOURCE⟩,
    .insertDictionary .sourcetypes "Solver Manual",
    .insertSource ⟨2, UAV_SOLVER_MANUAL_SOURCE⟩].foldl
    (fun s w => ((s.apply w).map Prod.snd).getD s) .empty

def connected : World := ⟨Session.connect withoutUavs [], { m_receiversList := [0] }, []⟩

/-- A message of our board with some id. -/
def blaPoint (boardID : Nat) : RpcMessage :=
  ⟨⟨0, 0⟩, RPC_SLOT_SERVER_SEND_BLA_POINTS,
    { positionDataVector := [{ boardID, dateTime := ⟨0, 0⟩ }] }⟩

/-- A message of the solver with one position, for some frequency. -/
def bplaPoint (frequency : Double) : RpcMessage :=
  ⟨⟨0, 0⟩, RPC_SLOT_SERVER_SEND_BPLA_POINTS, { uavList := [{ frequency, time := 0 }] }⟩

theorem along_separated_iff_433 : Along handleMessage Separated connected
    [blaPoint 7, bplaPoint 433] :=
  (along_separated_iff connected [blaPoint 7, bplaPoint 433] rfl
    ⟨by decide +kernel, by decide +kernel⟩).mpr
    (Along.cons.mpr ⟨by decide +kernel, Along.cons.mpr ⟨by decide +kernel, Along.nil⟩⟩)

def record? : Write → Option InfoRow
  | .insertInfo row => some row
  | _ => none

/-- The solver's position of 100 is written to our board 100. -/
theorem not_along_separated_100 :
    connected.m_dbController.store.uav.rows = [] ∧
      ([blaPoint 100, bplaPoint 100].foldl handleMessage connected).m_dbController.Healthy ∧
      ¬Along handleMessage Separated connected [blaPoint 100, bplaPoint 100] := by
  refine ⟨rfl, ⟨by decide +kernel, by decide +kernel⟩, fun hseparated => ?_⟩
  obtain ⟨-, hsecond, -⟩ := hseparated
  obtain ⟨newWrites, -, hwritten, -, hrecords, -⟩ := hsecond ENEMY_UAV_ROLE (by decide +kernel)
  have hnew := congrArg (List.drop
    (handleMessage connected (blaPoint 100)).m_dbController.contents.written.length) hwritten
  rw [List.drop_left] at hnew
  have hroles : (newWrites.filterMap record?).map
      (fun row => (handleMessage (handleMessage connected (blaPoint 100))
      (bplaPoint 100)).m_dbController.store.roleOf row.uavID) =
        [some OUR_UAV_ROLE] := by
    rw [← hnew]
    decide +kernel
  obtain ⟨row, hrow, hrole⟩ := List.mem_map.mp
    (hroles ▸ List.mem_singleton_self (some OUR_UAV_ROLE))
  obtain ⟨write, hwrite, hrecord⟩ := List.mem_filterMap.mp hrow
  cases write with
  | insertInfo row' =>
      cases hrecord
      rw [hrecords row hwrite] at hrole
      exact absurd hrole (by decide)
  | _ => cases hrecord

end DbUavManager

end ArmOd
