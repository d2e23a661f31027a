import FanucDriver.Lib.Rounding
import FanucDriver.Motion.Relay
import FanucDriver.RobotState.Program
import FanucDriver.Socket.Programs
import FanucDriver.WeldCommand.Idle

/-!
# The configuration of the four server programs

Each program keeps a configuration of its own type, completes it with `check_cfg_`, and computes
`sleep_time_` from its `loop_hz`.  An entry that is `UNINIT` is `none`.

* `RrelayCfgVars`, `RstateCfgVars`, `WeldCfgVars` — the configurations, with their `checkCfg`.
* `Checked` — what a `check_cfg_` does, entry by entry; `Program.config` — that of each program.
* `Checked.ok_iff`, `Checked.kept`, `Checked.complete` — what holds of each of them.
* `realDiv`, `ROUND`, `sleepTime`, `startUp` — the first lines of the main programs.
* `sleepTime_pos_iff` — which frequencies give a sleep time.
* `startUp_checked` — what an accepted configuration leads to.
-/

set_option autoImplicit false

namespace FanucDriver

/-! ## `ros_relay` -/

namespace TrajRelay

open WeldServer (CFG_OK CFG_NOTDONE setDefault)

def MOTION_TAG : Int := 4
def MOTION_TCP_P : Int := 11000
def LOOP_HZ : Int := 42
def MOVE_PREG : Int := 1
def MOVE_SPD_REG : Int := 1
def MOVE_CNT_REG : Int := 2
def RI_MSM_RDY : Int := 1
def RI_MSM_DRDY : Int := 2

/-- `rrelay_cfg_t` -/
structure RrelayCfgVars where
  checked : Option Bool
  fMsmRdy : Option Int
  fMsmDrdy : Option Int
  loopHz : Option Int
  moveCnt : Option Int
  moveSpeed : Option Int
  prMove : Option Int
  rMoveSpd : Option Int
  rMoveCnt : Option Int
  sTcpNr : Option Int
  sTagNr : Option Int
  umClear : Option Bool
  deriving DecidableEq, Repr

/-- `check_cfg_` of `ros_relay` -/
def checkCfg (cfg : RrelayCfgVars) : Int × RrelayCfgVars :=
  let a := false
  let (fMsmRdy, a) := setDefault cfg.fMsmRdy RI_MSM_RDY a
  let (fMsmDrdy, a) := setDefault cfg.fMsmDrdy RI_MSM_DRDY a
  let (loopHz, a) := setDefault cfg.loopHz LOOP_HZ a
  let (moveCnt, a) := setDefault cfg.moveCnt MOVE_CNT a
  let (moveSpeed, a) := setDefault cfg.moveSpeed MOVE_SPEED a
  let (prMove, a) := setDefault cfg.prMove MOVE_PREG a
  let (rMoveSpd, a) := setDefault cfg.rMoveSpd MOVE_SPD_REG a
  let (rMoveCnt, a) := setDefault cfg.rMoveCnt MOVE_CNT_REG a
  let (sTcpNr, a) := setDefault cfg.sTcpNr MOTION_TCP_P a
  let (sTagNr, a) := setDefault cfg.sTagNr MOTION_TAG a
  let (umClear, a) := setDefault cfg.umClear true a
  let (checked, a) := setDefault cfg.checked false a
  let cfg := ⟨checked, fMsmRdy, fMsmDrdy, loopHz, moveCnt, moveSpeed, prMove, rMoveSpd, rMoveCnt,
    sTcpNr, sTagNr, umClear⟩
  if checked ≠ some true ∨ a then (CFG_NOTDONE, cfg) else (CFG_OK, cfg)

end TrajRelay

/-! ## `ros_state` -/

namespace RobotState

open WeldServer (CFG_OK CFG_NOTDONE setDefault)

def STATE_TAG : Int := 3
def STATE_TCP_P : Int := 11002
def LOOP_HZ : Int := 42
def STAT_LP_CNT : Int := 10

/-- `rstate_cfg_t` -/
structure RstateCfgVars where
  checked : Option Bool
  loopHz : Option Int
  sloopDiv : Option Int
  sTcpNr : Option Int
  sTagNr : Option Int
  umClear : Option Bool
  deriving DecidableEq, Repr

/-- `check_cfg_` of `ros_state` -/
def checkCfg (cfg : RstateCfgVars) : Int × RstateCfgVars :=
  let a := false
  let (loopHz, a) := setDefault cfg.loopHz LOOP_HZ a
  let (sloopDiv, a) := setDefault cfg.sloopDiv STAT_LP_CNT a
  let (sTcpNr, a) := setDefault cfg.sTcpNr STATE_TCP_P a
  let (sTagNr, a) := setDefault cfg.sTagNr STATE_TAG a
  let (umClear, a) := setDefault cfg.umClear true a
  let (checked, a) := setDefault cfg.checked false a
  let cfg := ⟨checked, loopHz, sloopDiv, sTcpNr, sTagNr, umClear⟩
  if checked ≠ some true ∨ a then (CFG_NOTDONE, cfg) else (CFG_OK, cfg)

end RobotState

/-! ## `ros_weld_state_reader` -/

namespace WeldStateReader

open WeldServer (CFG_OK CFG_NOTDONE setDefault)

def WELD_TAG : Int := 3
def WELD_TCP_P : Int := 11002
def LOOP_HZ : Int := 10
def DEF_VOLT_GI : Int := 2
def DEF_CURR_GI : Int := 3
def DEF_ARC_DI : Int := 249
def DEF_POWER_ERR_DI : Int := 252
def DEF_DEPOS_DI : Int := 251
def DEF_EWM_ERR_GI : Int := 1
def DEF_WFS_GI : Int := 4
def DEF_MOTOR_CURR_GI : Int := 5
def DEF_WARNING_GI : Int := 6

/-- `weld_cfg_t` of `ros_weld_state_reader` -/
structure WeldCfgVars where
  checked : Option Bool
  loopHz : Option Int
  sTcpNr : Option Int
  sTagNr : Option Int
  umClear : Option Bool
  voltGi : Option Int
  currGi : Option Int
  arcDi : Option Int
  powerErrDi : Option Int
  deposDi : Option Int
  ewmErrGi : Option Int
  wfsGi : Option Int
  motorCurrGi : Option Int
  warningGi : Option Int
  deriving DecidableEq, Repr

/-- `check_cfg_` of `ros_weld_state_reader` -/
def checkCfg (cfg : WeldCfgVars) : Int × WeldCfgVars :=
  let a := false
  let (loopHz, a) := setDefault cfg.loopHz LOOP_HZ a
  let (sTcpNr, a) := setDefault cfg.sTcpNr WELD_TCP_P a
  let (sTagNr, a) := setDefault cfg.sTagNr WELD_TAG a
  let (umClear, a) := setDefault cfg.umClear true a
  let (checked, a) := setDefault cfg.checked false a
  let (voltGi, a) := setDefault cfg.voltGi DEF_VOLT_GI a
  let (currGi, a) := setDefault cfg.currGi DEF_CURR_GI a
  let (arcDi, a) := setDefault cfg.arcDi DEF_ARC_DI a
  let (powerErrDi, a) := setDefault cfg.powerErrDi DEF_POWER_ERR_DI a
  let (deposDi, a) := setDefault cfg.deposDi DEF_DEPOS_DI a
  let (ewmErrGi, a) := setDefault cfg.ewmErrGi DEF_EWM_ERR_GI a
  let (wfsGi, a) := setDefault cfg.wfsGi DEF_WFS_GI a
  let (motorCurrGi, a) := setDefault cfg.motorCurrGi DEF_MOTOR_CURR_GI a
  let (warningGi, a) := setDefault cfg.warningGi DEF_WARNING_GI a
  let cfg := ⟨checked, loopHz, sTcpNr, sTagNr, umClear, voltGi, currGi, arcDi, powerErrDi, deposDi,
    ewmErrGi, wfsGi, motorCurrGi, warningGi⟩
  if checked ≠ some true ∨ a then (CFG_NOTDONE, cfg) else (CFG_OK, cfg)

end WeldStateReader

/-! ## Entry by entry -/

namespace Socket

open WeldServer (CFG_OK CFG_NOTDONE setDefault_eq verdict_eq)

/-- An entry of the configuration `C`, an INTEGER or a BOOLEAN, with its default. -/
structure Entry (C : Type) where
  {Value : Type}
  get : C → Option Value
  default : Value

/-- A `check_cfg_` that fills in the defaults of its entries, and accepts a configuration that had
all of them and is `checked`. -/
structure Checked where
  Cfg : Type
  entries : List (Entry Cfg)
  checked : Cfg → Option Bool
  loopHz : Cfg → Option Int
  defaultHz : Int
  checkCfg : Cfg → Int × Cfg
  loopHz_mem : ⟨loopHz, defaultHz⟩ ∈ entries
  /-- the entries are the whole configuration -/
  ext : ∀ v w, (∀ e ∈ entries, e.get v = e.get w) → v = w
  filled : ∀ v, ∀ e ∈ entries, e.get (checkCfg v).2 = some ((e.get v).getD e.default)
  verdict : ∀ v, (checkCfg v).1 =
    if checked v = some true ∧ ∀ e ∈ entries, (e.get v).isSome then CFG_OK else CFG_NOTDONE

/-- `ros_relay` -/
def rosRelayCfg : Checked where
  Cfg := TrajRelay.RrelayCfgVars
  entries := [
    ⟨(·.fMsmRdy), TrajRelay.RI_MSM_RDY⟩,
    ⟨(·.fMsmDrdy), TrajRelay.RI_MSM_DRDY⟩,
    ⟨(·.loopHz), TrajRelay.LOOP_HZ⟩,
    ⟨(·.moveCnt), TrajRelay.MOVE_CNT⟩,
    ⟨(·.moveSpeed), TrajRelay.MOVE_SPEED⟩,
    ⟨(·.prMove), TrajRelay.MOVE_PREG⟩,
    ⟨(·.rMoveSpd), TrajRelay.MOVE_SPD_REG⟩,
    ⟨(·.rMoveCnt), TrajRelay.MOVE_CNT_REG⟩,
    ⟨(·.sTcpNr), TrajRelay.MOTION_TCP_P⟩,
    ⟨(·.sTagNr), TrajRelay.MOTION_TAG⟩,
    ⟨(·.umClear), true⟩,
    ⟨(·.checked), false⟩]
  checked := (·.checked)
  loopHz := (·.loopHz)
  defaultHz := TrajRelay.LOOP_HZ
  checkCfg := TrajRelay.checkCfg
  loopHz_mem := by simp
  ext := by
    intro v w h
    cases v
    cases w
    simp_all
  filled := by
    intro v
    simp only [TrajRelay.checkCfg, setDefault_eq, verdict_eq]
    simp
  verdict := by
    intro v
    simp only [TrajRelay.checkCfg, setDefault_eq, verdict_eq]
    simp [and_assoc]

/-- `ros_state` -/
def rosStateCfg : Checked where
  Cfg := RobotState.RstateCfgVars
  entries := [
    ⟨(·.loopHz), RobotState.LOOP_HZ⟩,
    ⟨(·.sloopDiv), RobotState.STAT_LP_CNT⟩,
    ⟨(·.sTcpNr), RobotState.STATE_TCP_P⟩,
    ⟨(·.sTagNr), RobotState.STATE_TAG⟩,
    ⟨(·.umClear), true⟩,
    ⟨(·.checked), false⟩]
  checked := (·.checked)
  loopHz := (·.loopHz)
  defaultHz := RobotState.LOOP_HZ
  checkCfg := RobotState.checkCfg
  loopHz_mem := by simp
  ext := by
    intro v w h
    cases v
    cases w
    simp_all
  filled := by
    intro v
    simp only [RobotState.checkCfg, setDefault_eq, verdict_eq]
    simp
  verdict := by
    intro v
    simp only [RobotState.checkCfg, setDefault_eq, verdict_eq]
    simp [and_assoc]

/-- `ros_weld_relay` -/
def rosWeldRelayCfg : Checked where
  Cfg := WeldServer.WeldCfgVars
  entries := [
    ⟨(·.loopHz), WeldServer.LOOP_HZ⟩,
    ⟨(·.sTcpNr), WeldServer.WELD_TCP_P⟩,
    ⟨(·.sTagNr), WeldServer.WELD_TAG⟩,
    ⟨(·.umClear), true⟩,
    ⟨(·.hbEn), false⟩,
    ⟨(·.progNumGo), weldCfgDefault.progNumGo⟩,
    ⟨(·.wireGo), weldCfgDefault.wireGo⟩,
    ⟨(·.correctionGo), weldCfgDefault.correctionGo⟩,
    ⟨(·.dynGo), weldCfgDefault.dynGo⟩,
    ⟨(·.modeGo), weldCfgDefault.modeGo⟩,
    ⟨(·.stdPulseGo), weldCfgDefault.stdPulseGo⟩,
    ⟨(·.arcStartDo), weldCfgDefault.arcStartDo⟩,
    ⟨(·.gasDo), weldCfgDefault.gasDo⟩,
    ⟨(·.jogFeedDo), weldCfgDefault.jogFeedDo⟩,
    ⟨(·.jogRetractDo), weldCfgDefault.jogRetractDo⟩,
    ⟨(·.checked), false⟩]
  checked := (·.checked)
  loopHz := (·.loopHz)
  defaultHz := WeldServer.LOOP_HZ
  checkCfg := WeldServer.checkCfg
  loopHz_mem := by simp
  ext := by
    intro v w h
    cases v
    cases w
    simp_all
  filled := by
    intro v
    simp only [WeldServer.checkCfg, setDefault_eq, verdict_eq]
    simp
  verdict := by
    intro v
    simp only [WeldServer.checkCfg, setDefault_eq, verdict_eq]
    simp [and_assoc]

/-- `ros_weld_state_reader` -/
def rosWeldStateReaderCfg : Checked where
  Cfg := WeldStateReader.WeldCfgVars
  entries := [
    ⟨(·.loopHz), WeldStateReader.LOOP_HZ⟩,
    ⟨(·.sTcpNr), WeldStateReader.WELD_TCP_P⟩,
    ⟨(·.sTagNr), WeldStateReader.WELD_TAG⟩,
    ⟨(·.umClear), true⟩,
    ⟨(·.checked), false⟩,
    ⟨(·.voltGi), WeldStateReader.DEF_VOLT_GI⟩,
    ⟨(·.currGi), WeldStateReader.DEF_CURR_GI⟩,
    ⟨(·.arcDi), WeldStateReader.DEF_ARC_DI⟩,
    ⟨(·.powerErrDi), WeldStateReader.DEF_POWER_ERR_DI⟩,
    ⟨(·.deposDi), WeldStateReader.DEF_DEPOS_DI⟩,
    ⟨(·.ewmErrGi), WeldStateReader.DEF_EWM_ERR_GI⟩,
    ⟨(·.wfsGi), WeldStateReader.DEF_WFS_GI⟩,
    ⟨(·.motorCurrGi), WeldStateReader.DEF_MOTOR_CURR_GI⟩,
    ⟨(·.warningGi), WeldStateReader.DEF_WARNING_GI⟩]
  checked := (·.checked)
  loopHz := (·.loopHz)
  defaultHz := WeldStateReader.LOOP_HZ
  checkCfg := WeldStateReader.checkCfg
  loopHz_mem := by simp
  ext := by
    intro v w h
    cases v
    cases w
    simp_all
  filled := by
    intro v
    simp only [WeldStateReader.checkCfg, setDefault_eq, verdict_eq]
    simp
  verdict := by
    intro v
    simp only [WeldStateReader.checkCfg, setDefault_eq, verdict_eq]
    simp [and_assoc]

/-- The configuration of each program. -/
def Program.config : Program → Checked
  | .rosRelay => rosRelayCfg
  | .rosState => rosStateCfg
  | .rosWeldRelay => rosWeldRelayCfg
  | .rosWeldStateReader => rosWeldStateReaderCfg

namespace Checked

variable (P : Checked)

/-- No entry is `UNINIT`. -/
def Complete (v : P.Cfg) : Prop :=
  ∀ e ∈ P.entries, (e.get v).isSome

theorem ok_iff (v : P.Cfg) :
    (P.checkCfg v).1 = CFG_OK ↔ P.Complete v ∧ P.checked v = some true := by
  rw [P.verdict v, Complete]
  split
  · simp_all
  · rename_i h
    constructor
    · intro hok
      exact absurd hok (by decide)
    · intro hok
      exact absurd hok.symm h

/-- An entry that has a value keeps it. -/
theorem kept (v : P.Cfg) {e : Entry P.Cfg} (he : e ∈ P.entries) {x : e.Value}
    (h : e.get v = some x) : e.get (P.checkCfg v).2 = some x := by
  rw [P.filled v e he, h]
  rfl

theorem complete (v : P.Cfg) : P.Complete (P.checkCfg v).2 := by
  intro e he
  rw [P.filled v e he]
  rfl

/-- An accepted configuration is left as it was. -/
theorem accepted_eq {v : P.Cfg} (h : (P.checkCfg v).1 = CFG_OK) : (P.checkCfg v).2 = v := by
  refine P.ext _ _ fun e he => ?_
  obtain ⟨x, hx⟩ := Option.isSome_iff_exists.mp (((P.ok_iff v).mp h).1 e he)
  rw [P.kept v he hx, hx]

theorem Complete.loopHz {v : P.Cfg} (h : P.Complete v) : ∃ hz, P.loopHz v = some hz :=
  Option.isSome_iff_exists.mp (h _ P.loopHz_mem)

end Checked

/-! ## The sleep time -/

/-- A division of REALs, which are numbers of 24 binary digits; it fails for the divisor zero. -/
def realDiv (real : Rounding 24) (x y : ℚ) : Option ℚ :=
  if y = 0 then none else some (real.fl (x / y))

/-- To the nearest INTEGER, and away from zero halfway between two. -/
def ROUND (x : ℚ) : Int :=
  if 0 ≤ x then ⌊x + 1 / 2⌋ else ⌈x - 1 / 2⌉

/-- `ROUND(1000.0 / cfg_.loop_hz)` -/
def sleepTime (real : Rounding 24) (loopHz : Int) : Option Int :=
  (realDiv real 1000 (real.fl loopHz)).map ROUND

/-- How far a main program comes. -/
inductive Start where
  /-- `check_cfg_` did not return `CFG_OK` -/
  | returned (stat : Int)
  /-- the expression for `sleep_time_` has no value -/
  | failed
  | started (sleepTime : Int)
  deriving DecidableEq, Repr

/-- The first lines of the main programs, up to `sleep_time_`. -/
def startUp (real : Rounding 24) (P : Checked) (v : P.Cfg) : Start :=
  let (stat, v) := P.checkCfg v
  if stat ≠ CFG_OK then .returned stat
  else
    match (P.loopHz v).bind (sleepTime real) with
    | none => .failed
    | some t => .started t

theorem one_le_round (x : ℚ) : 1 ≤ ROUND x ↔ 1 / 2 ≤ x := by
  unfold ROUND
  split
  · rw [Int.le_floor]
    constructor <;> intro h <;> push_cast at * <;> linarith
  · rename_i hneg
    have hceil : ⌈x - 1 / 2⌉ ≤ 0 := Int.ceil_le.mpr (by push_cast; linarith)
    constructor <;> intro h
    · omega
    · linarith

theorem sleepTime_zero (real : Rounding 24) : sleepTime real 0 = none := by
  rw [sleepTime, realDiv, if_pos (by simpa using real.fl_zero)]
  rfl

/-- `loop_hz` is not rounded to zero. -/
theorem sleepTime_of_ne (real : Rounding 24) {hz : Int} (h : hz ≠ 0) :
    sleepTime real hz = some (ROUND (real.fl (1000 / real.fl hz))) := by
  have hfl : real.fl hz ≠ 0 := by
    rcases Int.lt_or_gt_of_ne h with hneg | hpos
    · have hle := real.fl_le_int (m := -1) (by decide) (show hz ≤ -1 by omega)
      push_cast at hle
      linarith
    · have hle := real.int_le_fl (m := 1) (by decide) (show 1 ≤ hz by omega)
      push_cast at hle
      linarith
  rw [sleepTime, realDiv, if_neg hfl]
  rfl

theorem sleepTime_isSome_iff (real : Rounding 24) (hz : Int) :
    (sleepTime real hz).isSome ↔ hz ≠ 0 := by
  rcases eq_or_ne hz 0 with rfl | hne
  · simp [sleepTime_zero]
  · simp [sleepTime_of_ne real hne, hne]

/-- A thousand divided by the frequency, as a REAL, is at least one half up to 2000 Hz. -/
theorem half_le_fl_div_iff (real : Rounding 24) (hz : Int) :
    1 / 2 ≤ real.fl (1000 / real.fl hz) ↔ 1 ≤ hz ∧ hz ≤ 2000 := by
  have hhalf : ((1 : ℤ) : ℚ) * 2 ^ (-1 : ℤ) = 1 / 2 := by norm_num
  constructor
  · intro h
    by_contra hout
    rcases (show hz ≤ 0 ∨ 2001 ≤ hz by omega) with hneg | hlarge
    · have hfl := real.fl_le_int (m := 0) (by decide) hneg
      push_cast at hfl
      have hle := real.fl_le (m := 0) (k := 0) (by decide)
        (show 1000 / real.fl hz ≤ ((0 : ℤ) : ℚ) * 2 ^ (0 : ℤ) by
          simpa using div_nonpos_of_nonneg_of_nonpos (by norm_num) hfl)
      norm_num at hle
      linarith
    · -- a number of the format lies between 1000 / 2001 and one half
      have hfl := real.int_le_fl (m := 2001) (by decide) hlarge
      push_cast at hfl
      have hle := real.fl_le (m := 8191) (k := -14) (by decide)
        (show 1000 / real.fl hz ≤ ((8191 : ℤ) : ℚ) * 2 ^ (-14 : ℤ) by
          calc
            1000 / real.fl hz ≤ 1000 / 2001 :=
              div_le_div_of_nonneg_left (by norm_num) (by norm_num) hfl
            _ ≤ ((8191 : ℤ) : ℚ) * 2 ^ (-14 : ℤ) := by norm_num)
      norm_num at hle
      linarith
  · rintro ⟨hpos, hle⟩
    have hlow := real.int_le_fl (m := 1) (by decide) hpos
    have hhigh := real.fl_le_int (m := 2000) (by decide) hle
    push_cast at hlow hhigh
    rw [← hhalf]
    refine real.le_fl (by decide) ?_
    rw [hhalf, le_div_iff₀ (by linarith)]
    linarith

/-- **The sleep time** is positive from 1 Hz to 2000 Hz. -/
theorem sleepTime_pos_iff (real : Rounding 24) (hz : Int) :
    (∃ t, sleepTime real hz = some t ∧ 1 ≤ t) ↔ 1 ≤ hz ∧ hz ≤ 2000 := by
  rw [← half_le_fl_div_iff real hz, ← one_le_round]
  rcases eq_or_ne hz 0 with rfl | hne
  · rw [sleepTime_zero, one_le_round, half_le_fl_div_iff]
    simp
  · simp [sleepTime_of_ne real hne]

/-! ## The start of a program -/

/-- An accepted configuration is used as it is. -/
theorem startUp_accepted (real : Rounding 24) (P : Checked) {v : P.Cfg}
    (hok : (P.checkCfg v).1 = CFG_OK) : ∃ hz, P.loopHz v = some hz ∧
      startUp real P v = match sleepTime real hz with
        | none => .failed
        | some t => .started t := by
  obtain ⟨hz, hhz⟩ := ((P.ok_iff v).mp hok).1.loopHz
  refine ⟨hz, hhz, ?_⟩
  unfold startUp
  simp only [P.accepted_eq hok, hok, ne_eq, not_true_eq_false, if_false, hhz, Option.bind_some]

/-- **The configuration of every program.** -/
theorem startUp_checked (real : Rounding 24) (p : Program) (v : p.config.Cfg) :
    ((p.config.checkCfg v).1 = CFG_OK → p.config.Complete v ∧ p.config.checked v = some true) ∧
    (∀ e ∈ p.config.entries, ∀ x, e.get v = some x → e.get (p.config.checkCfg v).2 = some x) ∧
    p.config.Complete (p.config.checkCfg v).2 ∧
    ((p.config.checkCfg v).1 = CFG_OK → ∃ hz, p.config.loopHz v = some hz ∧
      (startUp real p.config v ≠ .failed ↔ hz ≠ 0) ∧
      ((∃ t, startUp real p.config v = .started t ∧ 1 ≤ t) ↔ 1 ≤ hz ∧ hz ≤ 2000)) := by
  refine ⟨(p.config.ok_iff v).mp, fun e he x hx => p.config.kept v he hx, p.config.complete v, ?_⟩
  intro hok
  obtain ⟨hz, hhz, hstart⟩ := startUp_accepted real p.config hok
  refine ⟨hz, hhz, ?_, ?_⟩
  · rw [hstart, ← sleepTime_isSome_iff real hz]
    cases sleepTime real hz <;> simp
  · rw [hstart, ← sleepTime_pos_iff real hz]
    cases sleepTime real hz <;> simp

theorem startUp_checked_defaults :
    WeldServer.checkCfg WeldServer.checkedDefaults = (CFG_OK, WeldServer.checkedDefaults) ∧
      ∃ t, startUp (.nearest (p := 24) (by decide)) rosWeldRelayCfg WeldServer.checkedDefaults =
        .started t ∧ 1 ≤ t := by
  have hok : WeldServer.checkCfg WeldServer.checkedDefaults =
    (CFG_OK, WeldServer.checkedDefaults) := rfl
  obtain ⟨-, -, -, hstart⟩ := startUp_checked (.nearest (p := 24) (by decide)) .rosWeldRelay
    WeldServer.checkedDefaults
  obtain ⟨hz, hhz, -, hpos⟩ := hstart (congrArg Prod.fst hok)
  cases hhz
  exact ⟨hok, hpos.mpr (by decide)⟩

/-- A complete and checked configuration with `loop_hz` zero: `check_cfg_` accepts it, and the
division that follows fails. -/
theorem checkCfg_zero_loopHz :
    WeldServer.checkCfg { WeldServer.checkedDefaults with loopHz := some 0 } =
        (CFG_OK, { WeldServer.checkedDefaults with loopHz := some 0 }) ∧
      startUp (.nearest (p := 24) (by decide)) rosWeldRelayCfg
        { WeldServer.checkedDefaults with loopHz := some 0 } = .failed := by
  refine ⟨rfl, ?_⟩
  obtain ⟨hz, hhz, hstart⟩ := startUp_accepted (.nearest (p := 24) (by decide)) rosWeldRelayCfg
    (v := { WeldServer.checkedDefaults with loopHz := some 0 }) rfl
  cases hhz
  rw [hstart, sleepTime_zero]

end Socket

end FanucDriver
