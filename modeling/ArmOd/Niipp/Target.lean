import ArmOd.Base.Run
import ArmOd.Niipp.Niipp

/-!
# The target of a complex

An observer of the operations notes the latest target that was accepted while the complex was
started, and the latest point clicked on the map. The commands are to name these two. They do as
long as the settings are not changed on a started complex whose target has different coordinates:
re-sending the stored target overwrites its latitude before reading it.
-/

namespace ArmOd

namespace NiippController

/-- What an observer has noted, each point with the latitude first. -/
structure Seen where
  target : Option QPointF := none
  click : Option QPointF := none
  deriving DecidableEq, Repr

/-- The target of an enemy update that is accepted while the complex is started. -/
def acceptedTarget (n : Niipp) : NiippOp → Option QPointF
  | .uavInfoChanged view _ uavInfo uavRole =>
      if uavRole = ENEMY_UAV_ROLE ∧
          (uavInfo.source = UAV_SOLVER_MANUAL_SOURCE ∨ uavInfo.source = UAV_SOLVER_AUTO_SOURCE) ∧
          (n.m_id = 100 ∨ n.m_id = 101) ∧ view.startState = true ∧ n.m_enable = true then
        some ⟨uavInfo.lat, uavInfo.lon⟩
      else none
  | _ => none

def clickedPoint : NiippOp → Option QPointF
  | .setPoint coord => some ⟨coord.y, coord.x⟩
  | _ => none

def observe (n : Niipp) (op : NiippOp) (seen : Seen) : Seen where
  target := (acceptedTarget n op).or seen.target
  click := (clickedPoint op).or seen.click

/-- An operation of the complex, under observation. -/
def observedStep (state : Niipp × Seen) (op : NiippOp) : Niipp × Seen :=
  (step state.1 op, observe state.1 op state.2)

/-- The complex as it is constructed. -/
def constructed (id : Int) (parentTab : Bool) : Niipp × Seen :=
  ({ m_id := id, m_parentTab := parentTab }, {})

/-- The commands an operation sends. -/
def commandsOf (n : Niipp) (op : NiippOp) : List CommandMessage :=
  (step n op).sent.drop n.sent.length

/-- A command reads back with the points that were noted, where there are any. -/
def Carries (seen : Seen) (command : CommandMessage) : Prop :=
  ∃ request, TcpNIIPPCoder.readRequest.run command.data = some (request, []) ∧
    (∀ target, seen.target = some target → request.point = target) ∧
    (∀ click, seen.click = some click → request.point2 = click)

/-- The operator actions that send the stored target again. -/
def resends : NiippOp → Bool
  | .valuePowerChanged _ _ | .antennaTypeChanged _ _ _ | .modeChanged _ _ => true
  | _ => false

/-- Every command names the points that were noted, and sending again does not alter the target. -/
def KeepsTarget (state : Niipp × Seen) (op : NiippOp) : Prop :=
  (∀ command ∈ commandsOf state.1 op, Carries (observe state.1 op state.2) command) ∧
    (resends op = true → (step state.1 op).m_pointBPLA = state.1.m_pointBPLA)

/-- A setting is changed only while the complex is not started, or its target has equal coordinates.
-/
def SettledTarget (state : Niipp × Seen) (op : NiippOp) : Prop :=
  resends op = true → state.1.m_parentTab = true → state.1.m_enable = true →
    state.1.m_pointBPLA.x = state.1.m_pointBPLA.y

/-! ### One operation -/

theorem readRequest_command (now : QDateTime) (status : String) (alt velocity_dir zone : Int)
    (n : Niipp) :
    ∃ request, TcpNIIPPCoder.readRequest.run (n.command now status alt velocity_dir zone).data
      = some (request, []) ∧
      request.point = n.m_pointBPLA ∧ request.point2 = n.m_pointUvodeNiipp :=
  ⟨_, rfl, rfl, rfl⟩

/-- What the reference leaves in the stored target: its coordinates the other way round, but the
second one of a reference to the stored target itself is read after it was overwritten. -/
def stored (n : Niipp) : PointRef → QPointF
  | .value point => ⟨point.y, point.x⟩
  | .m_pointBPLA => ⟨n.m_pointBPLA.y, n.m_pointBPLA.y⟩

/-- The complex with another stored target. -/
def aimedAt (n : Niipp) (point : QPointF) : Niipp := { n with m_pointBPLA := point }

theorem sendEvil_of_started {n : Niipp} (hparent : n.m_parentTab = true)
    (henable : n.m_enable = true)
    (now : QDateTime) (point : PointRef) (alt bearing : Double) :
    n.sendEvil now point alt bearing =
      (aimedAt n (stored n point)).send
      ((aimedAt n (stored n point)).command now n.targetStatus alt.toInt
        bearing.toInt n.m_sbPowerValue) := by
  rw [Niipp.sendEvil, if_neg (by simp [hparent]), if_neg (by simp [henable])]
  cases point <;> rfl

theorem sendEvil_of_not_started {n : Niipp} (hidle : ¬(n.m_parentTab = true ∧ n.m_enable = true))
    (now : QDateTime) (point : PointRef) (alt bearing : Double) :
    n.sendEvil now point alt bearing = n := by
  rw [Niipp.sendEvil]
  split_ifs with hparent henable
  · rfl
  · rfl
  · simp only [Bool.not_eq_true', Bool.not_eq_false] at hparent henable
    exact absurd ⟨hparent, henable⟩ hidle

/-- What the commands are made of, and whether they are sent. -/
structure Aim where
  m_pointBPLA : QPointF
  m_pointUvodeNiipp : QPointF
  m_parentTab : Bool
  m_enable : Bool
  sent : List CommandMessage

def aim (n : Niipp) : Aim := ⟨n.m_pointBPLA, n.m_pointUvodeNiipp, n.m_parentTab, n.m_enable, n.sent⟩

theorem step_of_resends (n : Niipp) {op : NiippOp} (hop : resends op = true) :
    ∃ n' now, aim n' = aim n ∧ step n op = n'.sendEvil now .m_pointBPLA 0 0 := by
  cases op with
  | valuePowerChanged now value =>
      refine ⟨_, now, ?_, rfl⟩
      split_ifs <;> rfl
  | antennaTypeChanged view now value =>
      refine ⟨_, now, ?_, rfl⟩
      dsimp only [Niipp.setAntenaIndex]
      split <;> rfl
  | modeChanged now value => exact ⟨{ n with m_mode := value }, now, rfl, rfl⟩
  | _ => cases hop

theorem step_of_accepted {n : Niipp} {op : NiippOp} {target : QPointF}
    (haccepted : acceptedTarget n op = some target) :
    n.m_enable = true ∧
      ∃ n' now alt bearing, aim n' = aim n ∧
      step n op = n'.sendEvil now (.value ⟨target.y, target.x⟩) alt bearing := by
  cases op with
  | uavInfoChanged view now uavInfo uavRole =>
      rw [acceptedTarget] at haccepted
      split_ifs at haccepted with hall
      obtain ⟨hrole, hsource, hid, hstart, henable⟩ := hall
      cases haccepted
      refine ⟨henable, (n.setAntenaIndex view.antenaIndex).setSBpowerValue view.sbPowerValue, now,
        uavInfo.alt,
        uavInfo.yaw, rfl, ?_⟩
      rw [step, onUavInfoChanged, if_neg (not_not.mpr hrole), if_neg (by tauto), if_pos hid,
        sendEnemyBpla, hstart]
      rfl
  | _ => cases haccepted

theorem aim_of_not_accepted {n : Niipp} {view : NiippView} {now : QDateTime} {uavInfo : UavInfo}
    {uavRole : String}
    (hrejected : acceptedTarget n (.uavInfoChanged view now uavInfo uavRole) = none) :
    aim (step n (.uavInfoChanged view now uavInfo uavRole)) = aim n := by
  rw [acceptedTarget] at hrejected
  split_ifs at hrejected with hall
  rw [step, onUavInfoChanged]
  split_ifs with hrole hsource hid
  · rfl
  · rfl
  · rw [sendEnemyBpla]
    split
    · rfl
    · rw [sendEvil_of_not_started]
      · rfl
      · rintro ⟨-, henable⟩
        exact hall ⟨not_not.mp hrole, by tauto, hid, by simp_all, henable⟩
  · rfl

/-! ### Any number of operations -/

/-- The stored points are the ones that were noted. Without a way to the server no target is stored.
-/
structure Noted (state : Niipp × Seen) : Prop where
  target : state.1.m_parentTab = true → ∀ target, state.2.target = some target →
    state.1.m_pointBPLA = target
  click : ∀ click, state.2.click = some click → state.1.m_pointUvodeNiipp = click

theorem carries_command {n : Niipp} {seen : Seen}
    (htarget : ∀ target, seen.target = some target → n.m_pointBPLA = target)
    (hclick : ∀ click, seen.click = some click → n.m_pointUvodeNiipp = click) (now : QDateTime)
    (status : String)
    (alt velocity_dir zone : Int) : Carries seen (n.command now status alt velocity_dir zone) := by
  obtain ⟨request, hread, hpoint, hpoint2⟩ := readRequest_command now status alt velocity_dir zone n
  exact ⟨request, hread, fun target h => hpoint.trans (htarget target h), fun click h =>
    hpoint2.trans (hclick click h)⟩

theorem commandsOf_of_sent {n : Niipp} {op : NiippOp} {commands : List CommandMessage}
    (hsent : (step n op).sent = n.sent ++ commands) : commandsOf n op = commands := by
  rw [commandsOf, hsent, List.drop_left]

theorem keepsTarget_of_silent {n : Niipp} {op : NiippOp} {seen : Seen}
    (hsent : (step n op).sent = n.sent)
    (htarget : (step n op).m_pointBPLA = n.m_pointBPLA) : KeepsTarget (n, seen) op := by
  have hnone : commandsOf n op = [] := commandsOf_of_sent (hsent.trans (List.append_nil _).symm)
  refine ⟨fun command hcommand => ?_, fun _ => htarget⟩
  rw [hnone] at hcommand
  exact absurd hcommand List.not_mem_nil

/-- A started complex that sends a target names what was noted, if the target it stores was. -/
theorem keepsTarget_of_started {n n' : Niipp} {op : NiippOp} {seen : Seen} {now : QDateTime}
    {point : PointRef}
    {alt bearing : Double} (hnoted : Noted (n, seen)) (haim : aim n' = aim n)
    (hstep : step n op = n'.sendEvil now point alt bearing) (hparent : n.m_parentTab = true)
    (henable : n.m_enable = true)
    (htarget : ∀ target, (observe n op seen).target = some target → stored n point = target)
    (hclick : (observe n op seen).click = seen.click)
    (hresends : resends op = true → stored n point = n.m_pointBPLA) :
    KeepsTarget (n, seen) op ∧ Noted (observedStep (n, seen) op) := by
  have hstored : stored n' point = stored n point := by
    cases point with
    | value point => rfl
    | m_pointBPLA =>
        rw [stored, stored, show n'.m_pointBPLA = n.m_pointBPLA from congrArg Aim.m_pointBPLA haim]
  have huvode : n'.m_pointUvodeNiipp = n.m_pointUvodeNiipp := congrArg Aim.m_pointUvodeNiipp haim
  have hlog : n'.sent = n.sent := congrArg Aim.sent haim
  rw [sendEvil_of_started ((congrArg Aim.m_parentTab haim).trans hparent)
    ((congrArg Aim.m_enable haim).trans henable),
    hstored] at hstep
  have hclicked : ∀ click, (observe n op seen).click = some click →
    n'.m_pointUvodeNiipp = click := by
    intro click hseen
    rw [hclick] at hseen
    exact huvode.trans (hnoted.click click hseen)
  refine ⟨⟨fun command hcommand => ?_, fun hop => ?_⟩, fun _ => ?_, ?_⟩
  · have hsent : (step n op).sent =
      n.sent ++ [(aimedAt n' (stored n point)).command now n'.targetStatus alt.toInt
        bearing.toInt n'.m_sbPowerValue] := by
      rw [hstep, ← hlog]
      rfl
    rw [commandsOf_of_sent hsent, List.mem_singleton] at hcommand
    subst hcommand
    exact carries_command (n := aimedAt n' (stored n point)) htarget hclicked _ _ _ _ _
  · rw [hstep]
    exact hresends hop
  · rw [observedStep, hstep]
    exact htarget
  · rw [observedStep, hstep]
    exact hclicked

theorem sent_sendEvil_of_not_started {n n' : Niipp} (haim : aim n' = aim n)
    (hidle : ¬(n.m_parentTab = true ∧ n.m_enable = true)) (now : QDateTime) (point : PointRef)
    (alt bearing : Double) :
    aim (n'.sendEvil now point alt bearing) = aim n := by
  have hidle' : ¬(n'.m_parentTab = true ∧ n'.m_enable = true) := by
    rwa [show n'.m_parentTab = n.m_parentTab from congrArg Aim.m_parentTab haim,
      show n'.m_enable = n.m_enable from congrArg Aim.m_enable haim]
  rw [sendEvil_of_not_started hidle', haim]

/-- An operation that changes nothing the commands are made of, and notes nothing that could be
sent. -/
theorem keepsTarget_of_aim {n : Niipp} {op : NiippOp} {seen : Seen} (hnoted : Noted (n, seen))
    (haim : aim (step n op) = aim n)
    (htarget : n.m_parentTab = true → (observe n op seen).target = seen.target)
    (hclick : (observe n op seen).click = seen.click) :
    KeepsTarget (n, seen) op ∧ Noted (observedStep (n, seen) op) := by
  have hpoint : (step n op).m_pointBPLA = n.m_pointBPLA := congrArg Aim.m_pointBPLA haim
  have huvode : (step n op).m_pointUvodeNiipp = n.m_pointUvodeNiipp :=
    congrArg Aim.m_pointUvodeNiipp haim
  have hparent : (step n op).m_parentTab = n.m_parentTab := congrArg Aim.m_parentTab haim
  refine ⟨keepsTarget_of_silent (congrArg Aim.sent haim) hpoint, fun hsent target hseen => ?_,
    fun click hseen => ?_⟩
  · dsimp only [observedStep] at hsent hseen ⊢
    rw [hparent] at hsent
    rw [htarget hsent] at hseen
    exact hpoint.trans (hnoted.target hsent target hseen)
  · dsimp only [observedStep] at hseen ⊢
    rw [hclick] at hseen
    exact huvode.trans (hnoted.click click hseen)

theorem Noted.update {n : Niipp} {seen : Seen} {view : NiippView} {now : QDateTime}
    {uavInfo : UavInfo}
    {uavRole : String} (hnoted : Noted (n, seen)) :
    KeepsTarget (n, seen) (.uavInfoChanged view now uavInfo uavRole) ∧
      Noted (observedStep (n, seen) (.uavInfoChanged view now uavInfo uavRole)) := by
  cases haccepted : acceptedTarget n (.uavInfoChanged view now uavInfo uavRole) with
  | none =>
      refine keepsTarget_of_aim hnoted (aim_of_not_accepted haccepted) (fun _ => ?_) rfl
      rw [observe, haccepted, Option.none_or]
  | some target =>
      obtain ⟨henable, n', now', alt, bearing, haim, hstep⟩ := step_of_accepted haccepted
      by_cases hparent : n.m_parentTab = true
      · refine keepsTarget_of_started hnoted haim hstep hparent henable (fun target' hseen => ?_)
          rfl fun hop => nomatch hop
        rw [observe, haccepted, Option.some_or] at hseen
        cases hseen
        rfl
      · refine keepsTarget_of_aim hnoted ?_ (fun hsent => absurd hsent hparent) rfl
        rw [hstep]
        exact sent_sendEvil_of_not_started haim (fun hstarted => hparent hstarted.1) _ _ _ _

/-- Sending the stored target again keeps it if its coordinates are equal. -/
theorem Noted.resend {n : Niipp} {seen : Seen} {op : NiippOp} (hnoted : Noted (n, seen))
    (hop : SettledTarget (n, seen) op)
    (hresends : resends op = true) : KeepsTarget (n, seen) op ∧ Noted
    (observedStep (n, seen) op) := by
  obtain ⟨n', now, haim, hstep⟩ := step_of_resends n hresends
  have hseen : (observe n op seen).target = seen.target ∧
    (observe n op seen).click = seen.click := by
    cases op <;> first | exact ⟨rfl, rfl⟩ | cases hresends
  by_cases hstarted : n.m_parentTab = true ∧ n.m_enable = true
  · have hequal : stored n .m_pointBPLA = n.m_pointBPLA := by
      have hxy := hop hresends hstarted.1 hstarted.2
      dsimp only at hxy
      rw [stored, ← hxy]
      conv_rhs => rw [show n.m_pointBPLA = ⟨n.m_pointBPLA.x, n.m_pointBPLA.y⟩ from rfl, ← hxy]
    refine keepsTarget_of_started hnoted haim hstep hstarted.1 hstarted.2 (fun target htarget => ?_)
      hseen.2 fun _ => hequal
    rw [hseen.1] at htarget
    exact hequal.trans (hnoted.target hstarted.1 target htarget)
  · refine keepsTarget_of_aim hnoted ?_ (fun _ => hseen.1) hseen.2
    rw [hstep]
    exact sent_sendEvil_of_not_started haim hstarted _ _ _ _

theorem Noted.send {n : Niipp} {seen : Seen} {op : NiippOp} {now : QDateTime} {status : String}
    {alt velocity_dir zone : Int} (hnoted : Noted (n, seen)) (hparent : n.m_parentTab = true)
    (hsent : (NiippController.step n op).sent =
      n.sent ++ [n.command now status alt velocity_dir zone])
    (hpoint : (NiippController.step n op).m_pointBPLA = n.m_pointBPLA)
    (huvode : (NiippController.step n op).m_pointUvodeNiipp = n.m_pointUvodeNiipp)
    (hobserve : observe n op seen = seen) :
    KeepsTarget (n, seen) op ∧ Noted (observedStep (n, seen) op) := by
  refine ⟨⟨fun command hcommand => ?_, fun _ => hpoint⟩, fun _ target hseen => ?_,
    fun click hseen => ?_⟩
  · rw [commandsOf_of_sent hsent, List.mem_singleton] at hcommand
    subst hcommand
    dsimp only
    rw [hobserve]
    exact carries_command (hnoted.target hparent) hnoted.click _ _ _ _ _
  · dsimp only [observedStep] at hseen ⊢
    rw [hobserve] at hseen
    exact hpoint.trans (hnoted.target hparent target hseen)
  · dsimp only [observedStep] at hseen ⊢
    rw [hobserve] at hseen
    exact huvode.trans (hnoted.click click hseen)

/-- **One operation.** -/
theorem Noted.step {n : Niipp} {seen : Seen} {op : NiippOp} (hnoted : Noted (n, seen))
    (hop : SettledTarget (n, seen) op) :
    KeepsTarget (n, seen) op ∧ Noted (observedStep (n, seen) op) := by
  cases op with
  | uavInfoChanged view now uavInfo uavRole => exact hnoted.update
  | valuePowerChanged now value => exact hnoted.resend hop rfl
  | antennaTypeChanged view now value => exact hnoted.resend hop rfl
  | modeChanged now value => exact hnoted.resend hop rfl
  | setPoint coord =>
      refine ⟨keepsTarget_of_silent rfl rfl, hnoted.target, fun click hseen => ?_⟩
      cases hseen
      rfl
  | startClicked => exact ⟨keepsTarget_of_silent rfl rfl, hnoted.target, hnoted.click⟩
  | stopClicked now =>
      by_cases hparent : n.m_parentTab = true
      · have hstep : NiippController.step n (.stopClicked now) =
            { n.send (n.command now "0300" 0 0 0) with m_enable := false } :=
            if_neg (by simp [hparent])
        exact hnoted.send hparent (by rw [hstep]; rfl) (by rw [hstep]; rfl) (by rw [hstep]; rfl) rfl
      · have hstep : NiippController.step n (.stopClicked now) = n := if_pos (by simp [hparent])
        exact keepsTarget_of_aim hnoted (congrArg aim hstep) (fun _ => rfl) rfl
  | complexEnabled now state =>
      by_cases hparent : n.m_parentTab = true
      · have hstep : NiippController.step n (.complexEnabled now state) =
            n.send (n.command now (if state then "0000" else "0001") 0 0 0) :=
            if_neg (by simp [hparent])
        exact hnoted.send hparent (by rw [hstep]; rfl) (by rw [hstep]; rfl) (by rw [hstep]; rfl) rfl
      · have hstep : NiippController.step n (.complexEnabled now state) = n :=
          if_pos (by simp [hparent])
        exact keepsTarget_of_aim hnoted (congrArg aim hstep) (fun _ => rfl) rfl

theorem settledTarget_of_keepsTarget {n : Niipp} {seen : Seen} {op : NiippOp}
    (hkeeps : KeepsTarget (n, seen) op) :
    SettledTarget (n, seen) op := by
  intro hresends hparent henable
  obtain ⟨n', now, haim, hstep⟩ := step_of_resends n hresends
  have hsame := hkeeps.2 hresends
  dsimp only at hparent henable hsame ⊢
  rw [hstep, sendEvil_of_started ((congrArg Aim.m_parentTab haim).trans hparent)
    ((congrArg Aim.m_enable haim).trans henable)] at hsame
  have hpoint : n'.m_pointBPLA = n.m_pointBPLA := congrArg Aim.m_pointBPLA haim
  have hx : n'.m_pointBPLA.y = n.m_pointBPLA.x := congrArg QPointF.x hsame
  rw [← hx, hpoint]

/-- **The target of a complex.** In a run of operations every command names the latest target that
was accepted while the complex was started and the latest click, and sending again never alters the
stored target, exactly if no setting is changed on a started complex whose target has different
coordinates. -/
theorem keepsTarget_iff (id : Int) (parentTab : Bool) (ops : List NiippOp) :
    Along observedStep KeepsTarget (constructed id parentTab) ops ↔
      Along observedStep SettledTarget (constructed id parentTab) ops := by
  have hinit : Noted (constructed id parentTab) :=
    ⟨fun _ _ hnone => (nomatch hnone), fun _ hnone => (nomatch hnone)⟩
  have hiff : ∀ state op, Noted state → (SettledTarget state op ↔ KeepsTarget state op) :=
    fun _ _ hnoted => ⟨fun hop => (hnoted.step hop).1, settledTarget_of_keepsTarget⟩
  exact (Along.congr (fun _ _ hnoted hop => (hnoted.step hop).2) hiff hinit).symm

/-- The view of a started complex. -/
def startedView : NiippView := ⟨true, 0, 0, 0⟩

/-- A position of an enemy. -/
def enemyAt (lat lon : ℚ) : UavInfo where
  uavId := 51
  source := UAV_SOLVER_AUTO_SOURCE
  lat := .fin lat
  lon := .fin lon
  latStddev := 0
  lonStddev := 0
  alt := 300
  speed := 20
  yaw := 90
  restTime := 0
  statusId := 1
  dateTime := ⟨0, 0⟩

/-- Changing the mode of a started complex aims it at the longitude twice. -/
theorem modeChanged_alters_target : ¬ ∀ ops : List NiippOp,
    Along observedStep KeepsTarget (constructed 100 true) ops := by
  intro hkeeps
  have hresend := (hkeeps
    [.startClicked, .uavInfoChanged startedView ⟨0, 0⟩ (enemyAt 55 37) ENEMY_UAV_ROLE,
    .modeChanged ⟨0, 0⟩ 1]).2.2.1
  exact absurd (settledTarget_of_keepsTarget hresend rfl rfl rfl) (by decide +kernel)

end NiippController

end ArmOd
