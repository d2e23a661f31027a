import FanucDriver.RobotState.Status

/-!
# Whether a robot status makes sense

`irs_update` derives 'motion possible' in `mot_poss_` from an order of tests, and takes it back when
one of the two programs does not run.  An emergency stop is not among the tests: it is left to the
FAULT LED and the servos.

* `TaskInfo`, `isRunning`, `Controller.withTasks` — the states of the two tasks.
* `motPoss_iff`, `irsUpdate_eq` — the tests, and the packet that is made of them.
* `Permits`, `irsUpdate_mtnPsble`, `irsUpdate_eStopped` — when motion is possible, and when the
  robot is stopped.
* `irsUpdate_consistent`; `irsUpdate_eStop_possible` — a stopped robot that may move.
-/

set_option autoImplicit false

namespace FanucDriver

open Wire

/-- What `GET_TSK_INFO` reports of a program: its status and that of the task. -/
structure TaskInfo where
  stat : Int
  taskStat : Int
  deriving DecidableEq, Repr

/-- `is_running_`; the value of `PG_RUNNING` is the controller's. -/
def isRunning (pgRunning : Int) (t : TaskInfo) : Bool :=
  decide (t.stat = 0) && decide (t.taskStat = pgRunning)

/-- The controller with these tasks for `ROS_RELAY` and `ROS`. -/
def Controller.withTasks (pgRunning : Int) (rosRelay ros : TaskInfo) (c : Controller) :
    Controller :=
  { c with rosRelayRunning := isRunning pgRunning rosRelay, rosRunning := isRunning pgRunning ros }

theorem isRunning_iff {pgRunning : Int} {t : TaskInfo} :
    isRunning pgRunning t = true ↔ t.stat = 0 ∧ t.taskStat = pgRunning := by
  simp [isRunning]

/-! ## Motion possible -/

/-- **The tests of `mot_poss_`**, all of which have to be passed. -/
theorem motPoss_iff (c : Controller) (this : IndRs) (sstat : Word) :
    motPoss c this sstat = true ↔ this.inError = TS_FALSE ∧ c.sopoHeld = false ∧
      this.drvPwd = TS_TRUE ∧ (this.mode ≠ RS_M_AUTO ∧ c.tpEnabled = true →
        sstat &&& MFS_DEADMAN = 0 ∧ c.kyShift = true) := by
  unfold motPoss
  split
  · rename_i herror
    simp [herror]
  · rename_i herror
    split
    · rename_i hheld
      simp [hheld]
    · rename_i hheld
      split
      · rename_i hpwd
        simp [hpwd]
      · rename_i hpwd
        rw [not_not] at herror hpwd
        split
        · rename_i hman
          simp [herror, hheld, hpwd, hman]
        · rename_i hman
          simp only [herror, hpwd, true_and, true_iff]
          exact ⟨Bool.not_eq_true _ ▸ hheld, fun h => absurd h hman⟩

/-- The packet before the last two tests. -/
def measured (c : Controller) : IndRs :=
  { irsReset with
    mode := if c.inAutoMode then RS_M_AUTO else RS_M_MAN
    eStopped := if c.safetyStat &&& (MFS_EMGOP ||| MFS_EMGTP ||| MFS_EMGEX) ≠ 0 then TS_TRUE
      else TS_FALSE
    inMotion := if c.robMove then TS_TRUE else TS_FALSE
    inError := if c.sopoFault then TS_TRUE else TS_FALSE
    errorCode := if c.sopoFault then c.errCode else 0
    drvPwd := if c.servoReady then TS_TRUE else TS_FALSE }

/-- **The packet**: 'motion possible' is never left unknown, and needs both programs. -/
theorem irsUpdate_eq (c : Controller) :
    irsUpdate c = { measured c with
      mtnPsble := if motPoss c (measured c) c.safetyStat ∧ c.rosRelayRunning ∧ c.rosRunning then
        TS_TRUE else TS_FALSE } := by
  have hposs : irsUpdate c =
      if ¬ c.rosRelayRunning ∨ ¬ c.rosRunning then { measured c with mtnPsble := TS_FALSE }
      else { measured c with
        mtnPsble := if motPoss c (measured c) c.safetyStat then TS_TRUE else TS_FALSE } := rfl
  rw [hposs]
  cases c.rosRelayRunning <;> cases c.rosRunning <;> simp

/-- Everything that allows the robot to move; no emergency stop among it. -/
structure Permits (c : Controller) : Prop where
  noFault : c.sopoFault = false
  notHeld : c.sopoHeld = false
  powered : c.servoReady = true
  pendant : c.inAutoMode = false → c.tpEnabled = true →
    c.safetyStat &&& MFS_DEADMAN = 0 ∧ c.kyShift = true
  relay : c.rosRelayRunning = true
  ros : c.rosRunning = true

theorem flag_eq_true (b : Bool) : (if b then TS_TRUE else TS_FALSE) = TS_TRUE ↔ b = true := by
  cases b <;> decide

theorem flag_eq_false (b : Bool) : (if b then TS_TRUE else TS_FALSE) = TS_FALSE ↔ b = false := by
  cases b <;> decide

theorem irsUpdate_mtnPsble (c : Controller) : (irsUpdate c).mtnPsble = TS_TRUE ↔ Permits c := by
  have hmode : (measured c).mode ≠ RS_M_AUTO ↔ c.inAutoMode = false := by
    simp only [measured]
    cases c.inAutoMode <;> decide
  have hflag : ∀ (P : Prop) [Decidable P], (if P then TS_TRUE else TS_FALSE) = TS_TRUE ↔ P := by
    intro P _
    split
    · rename_i h
      exact iff_of_true rfl h
    · rename_i h
      exact iff_of_false (by decide) h
  rw [irsUpdate_eq]
  dsimp only
  rw [hflag, motPoss_iff, hmode]
  simp only [measured, flag_eq_true, flag_eq_false]
  constructor
  · rintro ⟨⟨hfault, hheld, hpwd, htp⟩, hrelay, hros⟩
    exact ⟨hfault, hheld, hpwd, fun hman htpOn => htp ⟨hman, htpOn⟩, hrelay, hros⟩
  · rintro ⟨hfault, hheld, hpwd, htp, hrelay, hros⟩
    exact ⟨⟨hfault, hheld, hpwd, fun h => htp h.1 h.2⟩, hrelay, hros⟩

/-! ## Emergency stops -/

/-- One of the three bits of an emergency stop is set. -/
def EmergencyStop (sstat : Word) : Prop :=
  sstat &&& MFS_EMGOP ≠ 0 ∨ sstat &&& MFS_EMGTP ≠ 0 ∨ sstat &&& MFS_EMGEX ≠ 0

instance (sstat : Word) : Decidable (EmergencyStop sstat) :=
  inferInstanceAs (Decidable (_ ∨ _ ∨ _))

theorem irsUpdate_eStopped (c : Controller) :
    (irsUpdate c).eStopped = TS_TRUE ↔ EmergencyStop c.safetyStat := by
  have hmask : c.safetyStat &&& (MFS_EMGOP ||| MFS_EMGTP ||| MFS_EMGEX) ≠ 0 ↔
      EmergencyStop c.safetyStat := by
    have hor : ∀ x y : Word, x ||| y = 0 ↔ x = 0 ∧ y = 0 := fun _ _ => BitVec.or_eq_zero_iff
    rw [BitVec.and_or_distrib_left, BitVec.and_or_distrib_left, Ne, hor, hor, not_and_or,
      not_and_or, or_assoc, EmergencyStop]
  rw [irsUpdate_eq]
  dsimp only [measured]
  split
  · rename_i hbits
    exact iff_of_true rfl (hmask.mp hbits)
  · rename_i hbits
    exact iff_of_false (by decide) (fun h => hbits (hmask.mpr h))

theorem irsUpdate_eStopped_false (c : Controller) (h : ¬ EmergencyStop c.safetyStat) :
    (irsUpdate c).eStopped = TS_FALSE := by
  have hne := mt (irsUpdate_eStopped c).mp h
  rw [irsUpdate_eq] at hne ⊢
  dsimp only [measured] at hne ⊢
  split
  · rename_i hbits
    rw [if_pos hbits] at hne
    exact absurd rfl hne
  · rfl

/-- **The status is consistent**, for every input: motion is possible only without an error and
without hold, with powered drives, both programs running and, in manual mode with the pendant
enabled, deadman and shift pressed; and the robot counts as stopped exactly if one of the three
emergency stop bits is set.  That a stopped robot cannot move is up to the controller: it holds
of all inputs in which such a bit comes with the FAULT LED or without ready servos. -/
theorem irsUpdate_consistent (pgRunning : Int) (rosRelay ros : TaskInfo) (c : Controller) :
    let this := irsUpdate (c.withTasks pgRunning rosRelay ros)
    (this.mtnPsble = TS_TRUE →
      this.inError = TS_FALSE ∧ this.drvPwd = TS_TRUE ∧ c.sopoHeld = false ∧
        (rosRelay.stat = 0 ∧ rosRelay.taskStat = pgRunning) ∧
        (ros.stat = 0 ∧ ros.taskStat = pgRunning) ∧
        (this.mode = RS_M_MAN → c.tpEnabled = true →
          c.safetyStat &&& MFS_DEADMAN = 0 ∧ c.kyShift = true)) ∧
    (this.eStopped = TS_TRUE ↔ EmergencyStop c.safetyStat) ∧
    ((EmergencyStop c.safetyStat → c.sopoFault = true ∨ c.servoReady = false) →
      this.mtnPsble = TS_TRUE → this.eStopped = TS_FALSE) := by
  intro this
  have hpermits := irsUpdate_mtnPsble (c.withTasks pgRunning rosRelay ros)
  have hstopped := irsUpdate_eStopped (c.withTasks pgRunning rosRelay ros)
  refine ⟨?_, hstopped, ?_⟩
  · intro hposs
    obtain ⟨hfault, hheld, hpwd, htp, hrelay, hros⟩ := hpermits.mp hposs
    refine ⟨?_, ?_, hheld, isRunning_iff.mp hrelay, isRunning_iff.mp hros, ?_⟩
    · simp only [this, irsUpdate_eq, measured, flag_eq_false]
      exact hfault
    · simp only [this, irsUpdate_eq, measured, flag_eq_true]
      exact hpwd
    · intro hman
      apply htp
      simp only [this, irsUpdate_eq, measured] at hman
      split at hman
      · cases hman
      · rename_i hauto
        exact Bool.not_eq_true _ ▸ hauto
  · intro himplied hposs
    apply irsUpdate_eStopped_false
    intro hstop
    obtain ⟨hfault, -, hpwd, -⟩ := hpermits.mp hposs
    rcases himplied hstop with h | h
    · exact absurd (h.symm.trans hfault) (by decide)
    · exact absurd (h.symm.trans hpwd) (by decide)

/-- An enabled pendant in manual mode, deadman and shift pressed, and both tasks running. -/
theorem irsUpdate_consistent_manual :
    (irsUpdate (Controller.withTasks 2 ⟨0, 2⟩ ⟨0, 2⟩
      ⟨false, 512, true, false, false, 0, true, true, true, false, false⟩)).inError = TS_FALSE ∧
    (irsUpdate (Controller.withTasks 2 ⟨0, 2⟩ ⟨0, 2⟩
      ⟨false, 512, true, false, false, 0, true, true, true, false, false⟩)).eStopped = TS_FALSE :=
  have h := irsUpdate_consistent 2 ⟨0, 2⟩ ⟨0, 2⟩
    ⟨false, 512, true, false, false, 0, true, true, true, false, false⟩
  ⟨(h.1 (by decide)).1, h.2.2 (fun hstop => absurd hstop (by decide)) (by decide)⟩

/-- An emergency stop at the operator panel, without the FAULT LED and with ready servos: the
status says that the robot is stopped and that motion is possible. -/
theorem irsUpdate_eStop_possible :
    (irsUpdate (Controller.withTasks 2 ⟨0, 2⟩ ⟨0, 2⟩
      ⟨true, 1, false, false, false, 0, true, false, false, false, false⟩)).eStopped = TS_TRUE ∧
    (irsUpdate (Controller.withTasks 2 ⟨0, 2⟩ ⟨0, 2⟩
      ⟨true, 1, false, false, false, 0, true, false, false, false, false⟩)).mtnPsble = TS_TRUE := by
  decide

end FanucDriver
