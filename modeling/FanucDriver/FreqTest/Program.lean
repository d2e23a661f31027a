import FanucDriver.Lib.Lts
import FanucDriver.Lib.Signal
import FanucDriver.WeldCommand.Outputs

/-!
# The wire speed tests (`weld_control_freq_test.py`)

`run_wire_speed_test` and `run_pulse_test` publish a set-point at every sample and measure how
long the wire takes to reach it.  Times, parameters and draws are numbers of an ordered field;
every reading of the clock and every draw is given by the label.

* `WireSpeedTest`, `PulseTest` — the arguments of the two tests and their defaults.
* `Reading` — what one pass of a loop reads; `PulseTest.pass` — the pulse generator.
* `Tester`, `Label`, `step` — the node with its pending commands; `_state_cb` comes between two
  passes.  `Trans`, `step_trans` — every step is one of these.
* `Executed` — what it means that the robot executes a command; `executed_iff`.
-/

set_option autoImplicit false

namespace FanucDriver

open Signal Wire

namespace FreqTest

variable {K : Type} [Field K] [LinearOrder K]

/-! ## Parameters -/

inductive Waveform where
  | sine
  | step
  deriving DecidableEq, Repr

/-- The arguments of `run_wire_speed_test`. -/
structure WireSpeedTest (K : Type) where
  waveform : Waveform
  freq : K
  amp : K
  offset : K
  duration : K
  sampleRate : K

/-- The arguments of `run_pulse_test`. -/
structure PulseTest (K : Type) where
  stepFreq : K
  stepAmp : K
  offset : K
  pulseRate : K
  pulseAmp : K
  pulseDuration : K
  duration : K
  sampleRate : K

/-- The defaults of the command line. -/
def WireSpeedTest.defaults : WireSpeedTest K where
  waveform := .sine
  freq := 1
  amp := 15
  offset := 20
  duration := 30
  sampleRate := 40

def PulseTest.defaults : PulseTest K where
  stepFreq := 1
  stepAmp := 15
  offset := 20
  pulseRate := 3
  pulseAmp := 8
  pulseDuration := 1 / 5
  duration := 30
  sampleRate := 50

inductive Test (K : Type) where
  | wire (p : WireSpeedTest K)
  | pulse (p : PulseTest K)

def Test.duration : Test K → K
  | .wire p => p.duration
  | .pulse p => p.duration

/-- The loop is reached: `rospy.Rate` has accepted the rate, and the pulse test divides by it. -/
def Test.starts (rateOk : K → Bool) : Test K → Bool
  | .wire p => rateOk p.sampleRate
  | .pulse p => rateOk p.sampleRate && decide (p.sampleRate ≠ 0)

/-! ## The signals -/

/-- `math.sin` and `math.pi` -/
structure Trig (K : Type) where
  sin : K → K
  pi : K

/-- One pass: the clock at the loop's condition, for `t_now`, for `current_time` and when the
command is remembered, and the draws of `random.random` and `random.uniform`. -/
structure Reading (K : Type) [Field K] [LinearOrder K] where
  check : K
  now : K
  current : K
  stamp : K
  random : Draw K
  amplitude : Draw K

structure PulseState (K : Type) where
  pulseEndTime : K
  currentPulseAmplitude : K

def PulseState.init : PulseState K := ⟨0, 0⟩

def PulseTest.pulseProbPerSample (p : PulseTest K) : K := p.pulseRate / p.sampleRate

/-- A pulse that has expired is taken back, and another one may start. -/
def PulseTest.pulse (p : PulseTest K) (r : Reading K) (s : PulseState K) : PulseState K :=
  if s.pulseEndTime ≤ r.current then
    if r.random.val < p.pulseProbPerSample then
      { pulseEndTime := r.current + p.pulseDuration
        currentPulseAmplitude := uniform (-p.pulseAmp) p.pulseAmp r.amplitude }
    else { s with currentPulseAmplitude := 0 }
  else s

/-- A pulse starts on this pass. -/
def PulseTest.starts (p : PulseTest K) (r : Reading K) (s : PulseState K) : Bool :=
  decide (s.pulseEndTime ≤ r.current ∧ r.random.val < p.pulseProbPerSample)

variable [FloorRing K]

/-- The first half of a period; `phase = x % 1.0`. -/
def firstHalf (x : K) : Bool := decide (Int.fract x < 1 / 2)

def WireSpeedTest.funcVal (m : Trig K) (p : WireSpeedTest K) (tNow : K) : K :=
  match p.waveform with
  | .sine => m.sin (2 * m.pi * p.freq * tNow)
  | .step => if firstHalf (tNow * p.freq) then 1 else -1

def PulseTest.baseSignal (p : PulseTest K) (tNow : K) : K :=
  if firstHalf (tNow * p.stepFreq) then p.stepAmp else -p.stepAmp

/-- The value whose truncation is published, and the pulse from this pass on. -/
def Test.signal (m : Trig K) (startTime : K) (r : Reading K) (s : PulseState K) :
    Test K → K × PulseState K
  | .wire p => (p.offset + p.amp * p.funcVal m (r.now - startTime), s)
  | .pulse p =>
    let s := p.pulse r s
    (p.offset + p.baseSignal (r.now - startTime) + s.currentPulseAmplitude, s)

/-! ## The node -/

/-- `_base_cmd` -/
def baseCmd : WeldCommand :=
  ⟨NO_CHANGE, NO_CHANGE, NO_CHANGE, NO_CHANGE, NO_CHANGE, NO_CHANGE, NO_CHANGE, NO_CHANGE,
    NO_CHANGE, NO_CHANGE⟩

/-- The message for a set-point; publishing raises where it is no `int32`. -/
def command (targetVal : Int) : Option WeldCommand :=
  if -2 ^ 31 ≤ targetVal ∧ targetVal < 2 ^ 31 then
    some { baseCmd with targetWireSpd := BitVec.ofInt 32 targetVal }
  else none

/-- `cmd_history.append`, with the length the deque is limited to. -/
def remember (history : List (Int × K)) (targetVal : Int) (stamp : K) : List (Int × K) :=
  (history ++ [(targetVal, stamp)]).drop (history.length + 1 - 2000)

structure Tester (K : Type) where
  startTime : K
  pulse : PulseState K
  published : List WeldCommand
  cmdHistory : List (Int × K)
  /-- each with the set-point it was measured against -/
  latencies : List (Int × K)
  /-- no exception has been raised -/
  running : Bool

def Tester.init (rateOk : K → Bool) (t : Test K) (startTime : K) : Tester K where
  startTime := startTime
  pulse := .init
  published := []
  cmdHistory := []
  latencies := []
  running := t.starts rateOk

inductive Label (K : Type) [Field K] [LinearOrder K] where
  /-- one pass of the loop -/
  | pass (r : Reading K)
  /-- `_state_cb`, with `act_wire_spd` and the clock -/
  | stateCb (actWireSpd : BitVec 16) (now : K)

def step (m : Trig K) (threshold : K) (t : Test K) (s : Tester K) : Label K → Option (Tester K)
  | .pass r =>
    if s.running ∧ r.check < s.startTime + t.duration then
      let out := t.signal m s.startTime r s.pulse
      match command (trunc out.1) with
      | some cmd =>
        some { s with
          pulse := out.2
          published := s.published ++ [cmd]
          cmdHistory := remember s.cmdHistory (trunc out.1) r.stamp }
      | none => some { s with pulse := out.2, running := false }
    else none
  | .stateCb actWireSpd now =>
    match s.cmdHistory with
    | [] => some s
    | (targetVal, tCmd) :: rest =>
      if |((actWireSpd.toInt - targetVal : Int) : K)| ≤ threshold then
        some { s with latencies := s.latencies ++ [(targetVal, now - tCmd)], cmdHistory := rest }
      else some s

/-- The steps, each with what it requires. -/
inductive Trans (m : Trig K) (t : Test K) (s : Tester K) : Label K → Tester K → Prop
  | published (r : Reading K) (cmd : WeldCommand) (running : s.running)
      (check : r.check < s.startTime + t.duration)
      (cmd_eq : command (trunc (t.signal m s.startTime r s.pulse).1) = some cmd) :
      Trans m t s (.pass r) { s with
        pulse := (t.signal m s.startTime r s.pulse).2
        published := s.published ++ [cmd]
        cmdHistory :=
          remember s.cmdHistory (trunc (t.signal m s.startTime r s.pulse).1) r.stamp }
  /-- publishing has raised -/
  | raised (r : Reading K) (running : s.running) (check : r.check < s.startTime + t.duration)
      (cmd_eq : command (trunc (t.signal m s.startTime r s.pulse).1) = none) :
      Trans m t s (.pass r) { s with
        pulse := (t.signal m s.startTime r s.pulse).2
        running := false }
  | measured (actWireSpd : BitVec 16) (now : K) (targetVal : Int) (tCmd : K)
      (rest : List (Int × K)) (pending : s.cmdHistory = (targetVal, tCmd) :: rest) :
      Trans m t s (.stateCb actWireSpd now)
        { s with latencies := s.latencies ++ [(targetVal, now - tCmd)], cmdHistory := rest }
  | unreached (actWireSpd : BitVec 16) (now : K) : Trans m t s (.stateCb actWireSpd now) s

/-- **What a step can do.** -/
theorem step_trans {m : Trig K} {threshold : K} {t : Test K} {s s' : Tester K} {l : Label K}
    (h : step m threshold t s l = some s') : Trans m t s l s' := by
  cases l with
  | pass r =>
    rw [step] at h
    split at h
    · rename_i hpass
      dsimp only at h
      split at h
      · rename_i cmd hcmd
        cases h
        exact .published r cmd hpass.1 hpass.2 hcmd
      · rename_i hcmd
        cases h
        exact .raised r hpass.1 hpass.2 hcmd
    · cases h
  | stateCb actWireSpd now =>
    rw [step] at h
    split at h
    · cases h
      exact .unreached actWireSpd now
    · rename_i targetVal tCmd rest hpending
      split at h
      · cases h
        exact .measured actWireSpd now targetVal tCmd rest hpending
      · cases h
        exact .unreached actWireSpd now

/-! ## What the robot executes -/

/-- The command sets the group output of the wire speed, whatever it was and whatever the packet
it is read into holds. -/
def Executed (cmd : WeldCommand) : Prop :=
  ∀ (p : IndWeldCmd) (seqNr : Word) (cfg : WeldCfg) (out : Outputs),
    (execWeldCmd (p.assign (commandPacket seqNr cmd).words) cfg out).1.gout cfg.wireGo =
      cmd.targetWireSpd

/-- Only the wire speed is commanded. -/
theorem execWeldCmd_baseCmd (v seqNr : Word) (p : IndWeldCmd) (cfg : WeldCfg) (out : Outputs) :
    (execWeldCmd (p.assign (commandPacket seqNr { baseCmd with targetWireSpd := v }).words) cfg
      out).1 = setGout cfg.wireGo v out := by
  simp [execWeldCmd, IndWeldCmd.assign, commandPacket, WeldCommandPacket.words, baseCmd, setGout,
    setDout]

/-- **A set-point is executed unless it is the sentinel.** -/
theorem executed_iff (v : Word) :
    Executed { baseCmd with targetWireSpd := v } ↔ v ≠ NO_CHANGE := by
  constructor
  · intro hex hv
    subst hv
    have hset := hex weldCmdInit 0 ⟨0, false, 0, 0, 0, 0, 0, 0, 0, 0, 0, 0⟩
      ⟨fun _ => 0, fun _ => false⟩
    rw [execWeldCmd_baseCmd, setGout, if_neg (not_not.mpr rfl)] at hset
    exact absurd hset (by decide)
  · intro hv p seqNr cfg out
    rw [execWeldCmd_baseCmd, setGout, if_pos hv]
    exact Function.update_self _ _ _

theorem command_eq {targetVal : Int} {cmd : WeldCommand} (h : command targetVal = some cmd) :
    cmd = { baseCmd with targetWireSpd := BitVec.ofInt 32 targetVal } ∧
      cmd.targetWireSpd.toInt = targetVal := by
  unfold command at h
  split at h
  · rename_i hrange
    cases h
    refine ⟨rfl, ?_⟩
    rw [BitVec.toInt_ofInt]
    simp only [Int.bmod]
    omega
  · cases h

theorem command_executed_iff {targetVal : Int} {cmd : WeldCommand}
    (h : command targetVal = some cmd) : Executed cmd ↔ cmd.targetWireSpd ≠ NO_CHANGE := by
  obtain ⟨rfl, -⟩ := command_eq h
  exact executed_iff _

theorem command_sentinel_iff {targetVal : Int} {cmd : WeldCommand}
    (h : command targetVal = some cmd) : cmd.targetWireSpd = NO_CHANGE ↔ targetVal = -1 := by
  obtain ⟨-, hval⟩ := command_eq h
  rw [← hval]
  constructor
  · intro hv
    rw [hv]
    decide
  · intro hv
    exact BitVec.eq_of_toInt_eq (hv.trans (by decide))

end FreqTest

end FanucDriver
