import FanucDriver.FreqTest.Pulse

/-!
# Set-points that are the sentinel

A set-point is published by truncation, and -1 is the value of a field that is not to be changed.

* `Books`, `step_books` — every pending or measured set-point has been published.
* `Tester.Safe`, `safe_iff` — every published and every measured set-point is executed.
* `InGap` — the numbers that are truncated to -1.
* `WireSpeedTest.Clear`, `PulseTest.Clear` — the parameters whose signals keep out of them.
  `signal_clear`, `exists_signal` — with these and only with these no set-point is -1.
* `run_clear`, `run_safe_iff` — for which parameters every run of a test is safe.
-/

set_option autoImplicit false

namespace FanucDriver

open Signal

namespace FreqTest

section Node

variable {K : Type}

/-! ## Published, pending and measured set-points -/

/-- The set-points of the node are those it has published. -/
structure Books (s : Tester K) : Prop where
  published : ∀ cmd ∈ s.published, ∃ targetVal, command targetVal = some cmd
  pending : ∀ e ∈ s.cmdHistory, ∃ cmd ∈ s.published, command e.1 = some cmd
  measured : ∀ e ∈ s.latencies, ∃ cmd ∈ s.published, command e.1 = some cmd

/-- Every set-point is executed: those published, and those latencies are measured against. -/
structure Tester.Safe (s : Tester K) : Prop where
  published : ∀ cmd ∈ s.published, cmd.targetWireSpd ≠ NO_CHANGE ∧ Executed cmd
  measured : ∀ e ∈ s.latencies, ∃ cmd ∈ s.published,
    cmd.targetWireSpd.toInt = e.1 ∧ Executed cmd

theorem safe_iff {s : Tester K} (hs : Books s) :
    s.Safe ↔ ∀ cmd ∈ s.published, cmd.targetWireSpd ≠ NO_CHANGE := by
  constructor
  · intro h cmd hcmd
    exact (h.published cmd hcmd).1
  · intro h
    have hexec : ∀ cmd ∈ s.published, Executed cmd := by
      intro cmd hcmd
      obtain ⟨n, hn⟩ := hs.published cmd hcmd
      exact (command_executed_iff hn).mpr (h cmd hcmd)
    refine ⟨fun cmd hcmd => ⟨h cmd hcmd, hexec cmd hcmd⟩, ?_⟩
    intro e he
    obtain ⟨cmd, hcmd, hval⟩ := hs.measured e he
    exact ⟨cmd, hcmd, (command_eq hval).2, hexec cmd hcmd⟩

variable [Field K] [LinearOrder K] [FloorRing K]

theorem step_books {m : Trig K} {threshold : K} {t : Test K} {s s' : Tester K} {l : Label K}
    (hs : Books s) (h : step m threshold t s l = some s') : Books s' := by
  cases step_trans h with
  | published r cmd _ _ hcmd =>
    have hmono : ∀ n, (∃ c ∈ s.published, command n = some c) →
        ∃ c ∈ s.published ++ [cmd], command n = some c := by
      rintro n ⟨c, hc, hn⟩
      exact ⟨c, List.mem_append_left _ hc, hn⟩
    refine ⟨?_, ?_, fun e he => hmono e.1 (hs.measured e he)⟩
    · rw [List.forall_mem_append, List.forall_mem_singleton]
      exact ⟨hs.published, _, hcmd⟩
    · intro e he
      dsimp only [remember] at he
      rcases List.mem_append.mp (List.mem_of_mem_drop he) with he | he
      · exact hmono e.1 (hs.pending e he)
      · rw [List.mem_singleton.mp he]
        exact ⟨cmd, by simp, hcmd⟩
  | raised => exact ⟨hs.published, hs.pending, hs.measured⟩
  | measured actWireSpd now targetVal tCmd rest hpending =>
    have hold := hs.pending
    rw [hpending, List.forall_mem_cons] at hold
    refine ⟨hs.published, hold.2, ?_⟩
    rw [List.forall_mem_append, List.forall_mem_singleton]
    exact ⟨hs.measured, hold.1⟩
  | unreached => exact hs

/-! ## Parameters that keep out of the gap -/

/-- The numbers that are truncated to -1. -/
def InGap (x : K) : Prop := ((-2 : Int) : K) < x ∧ x ≤ -1

/-- The signal of the wire speed test keeps out of the gap. -/
def WireSpeedTest.Clear (p : WireSpeedTest K) : Prop :=
  match p.waveform with
  | .sine =>
    if p.freq = 0 then ¬ InGap p.offset
    else p.offset + |p.amp| ≤ ((-2 : Int) : K) ∨ -1 < p.offset - |p.amp|
  | .step => ¬ InGap (p.offset + p.amp) ∧ (p.freq = 0 ∨ ¬ InGap (p.offset - p.amp))

/-- The pulses around one level of the step signal keep out of it. -/
def PulseTest.ClearAt (p : PulseTest K) (level : K) : Prop :=
  if 0 < p.pulseProbPerSample then
    ¬ (level - |p.pulseAmp| ≤ -1 ∧ (0 ≤ p.pulseAmp ∨ level - |p.pulseAmp| < -1) ∧
      ((-2 : Int) : K) < level + |p.pulseAmp|)
  else ¬ InGap level

def PulseTest.Clear (p : PulseTest K) : Prop :=
  p.ClearAt (p.offset + p.stepAmp) ∧ (p.stepFreq = 0 ∨ p.ClearAt (p.offset - p.stepAmp))

def Test.Clear : Test K → Prop
  | .wire p => p.Clear
  | .pulse p => p.Clear

/-- The pulse of the pulse test is one it can have. -/
def Test.Pulse (s : PulseState K) : Test K → Prop
  | .wire _ => True
  | .pulse p => p.Amplitude s.currentPulseAmplitude

theorem signal_pulse {m : Trig K} {t : Test K} (startTime : K) (r : Reading K) {s : PulseState K}
    (hs : t.Pulse s) : t.Pulse (t.signal m startTime r s).2 := by
  cases t with
  | wire p => trivial
  | pulse p => exact pulse_amplitude r hs

variable [IsStrictOrderedRing K]

theorem trunc_eq_sentinel_iff {x : K} : trunc x = -1 ↔ InGap x := by
  have hbelow : ((-1 : Int) : K) - 1 = ((-2 : Int) : K) := by norm_num
  have hend : ((-1 : Int) : K) = -1 := by norm_num
  rw [trunc_eq_iff_of_neg (by decide), hbelow, hend, InGap]

theorem firstHalf_zero : firstHalf (0 : K) = true := by
  rw [firstHalf, decide_eq_true_iff, Int.fract_zero]
  norm_num

/-- The pulses that occur keep out of the gap. -/
theorem PulseTest.ClearAt.amplitude {p : PulseTest K} {level a : K} (h : p.ClearAt level)
    (ha : p.Amplitude a) : ¬ InGap (level + a) := by
  unfold PulseTest.ClearAt at h
  split at h
  · rw [← exists_uniform_iff (x := ((-2 : Int) : K)) (by norm_num), not_exists] at h
    rcases ha with rfl | ⟨-, u, rfl⟩
    · have hzero := h ⟨1 / 2, by norm_num⟩
      rwa [uniform_half] at hzero
    · exact h u
  · rename_i hprob
    rcases ha with rfl | ⟨hpos, -⟩
    · rwa [add_zero]
    · exact absurd hpos hprob

/-- Otherwise one pulse falls into it. -/
theorem exists_pulse {p : PulseTest K} {level : K} (h : ¬ p.ClearAt level) :
    ∃ random amplitude : Draw K, ∀ r : Reading K, 0 ≤ r.current → r.random = random →
      r.amplitude = amplitude → InGap (level + (p.pulse r .init).currentPulseAmplitude) := by
  have hzero : (0 : K) ≤ 0 ∧ (0 : K) < 1 := ⟨le_rfl, one_pos⟩
  unfold PulseTest.ClearAt at h
  split at h
  · rename_i hprob
    rw [← exists_uniform_iff (x := ((-2 : Int) : K)) (by norm_num), not_not] at h
    obtain ⟨u, hu⟩ := h
    refine ⟨⟨0, hzero⟩, u, ?_⟩
    intro r hcurrent hrandom hamplitude
    have hinit : (PulseState.init : PulseState K).pulseEndTime ≤ r.current := hcurrent
    rw [PulseTest.pulse, if_pos hinit, hrandom, if_pos hprob, hamplitude]
    exact hu
  · rename_i hprob
    refine ⟨⟨0, hzero⟩, ⟨0, hzero⟩, ?_⟩
    intro r hcurrent hrandom _
    have hinit : (PulseState.init : PulseState K).pulseEndTime ≤ r.current := hcurrent
    rw [PulseTest.pulse, if_pos hinit, hrandom, if_neg hprob, add_zero]
    exact not_not.mp h

/-- Only a signal with a frequency has a lower level. -/
theorem ne_zero_of_not_firstHalf {t freq : K} (h : ¬ firstHalf (t * freq) = true) : freq ≠ 0 := by
  intro hzero
  rw [hzero, mul_zero] at h
  exact h firstHalf_zero

/-- The step signal has its upper level, and the lower one unless its frequency is zero. -/
theorem exists_firstHalf (freq : K) (upper : Bool) (h : upper = true ∨ freq ≠ 0) :
    ∃ t, 0 ≤ t ∧ firstHalf (t * freq) = upper := by
  cases upper with
  | true => exact ⟨0, le_rfl, by rw [zero_mul, firstHalf_zero]⟩
  | false =>
    obtain ⟨t, ht, hhalf⟩ := exists_second_half (h.resolve_left Bool.false_ne_true)
    exact ⟨t, ht, decide_eq_false hhalf⟩

end Node

/-! ## Real signals -/

noncomputable def realTrig : Trig ℝ := ⟨Real.sin, Real.pi⟩

theorem WireSpeedTest.Clear.value {p : WireSpeedTest ℝ} (h : p.Clear) (tNow : ℝ) :
    ¬ InGap (p.offset + p.amp * p.funcVal realTrig tNow) := by
  unfold WireSpeedTest.Clear at h
  unfold WireSpeedTest.funcVal
  cases hw : p.waveform with
  | sine =>
    simp only [hw] at h
    split at h
    · rename_i hfreq
      simpa [realTrig, hfreq] using h
    · have habs := abs_le.mp (abs_mul_sin_le p.amp (2 * Real.pi * p.freq * tNow))
      rintro ⟨hlo, hhi⟩
      simp only [realTrig] at hlo hhi
      rcases h with h | h
      · linarith
      · linarith
  | step =>
    simp only [hw] at h
    by_cases hhalf : firstHalf (tNow * p.freq) = true
    · simpa [hhalf] using h.1
    · have hfreq := ne_zero_of_not_firstHalf hhalf
      simpa [hhalf, ← sub_eq_add_neg] using h.2.resolve_left hfreq

theorem exists_value {p : WireSpeedTest ℝ} (h : ¬ p.Clear) :
    ∃ t, 0 ≤ t ∧ InGap (p.offset + p.amp * p.funcVal realTrig t) := by
  unfold WireSpeedTest.Clear at h
  unfold WireSpeedTest.funcVal
  cases hw : p.waveform with
  | sine =>
    simp only [hw] at h
    split at h
    · rename_i hfreq
      exact ⟨0, le_rfl, by simpa [realTrig] using h⟩
    · rename_i hfreq
      rw [not_or, not_le, not_lt] at h
      exact exists_sin_of hfreq (by norm_num) h.2 h.1
  | step =>
    simp only [hw] at h
    rw [not_and_or, not_or, not_not, not_not] at h
    rcases h with h | ⟨hfreq, h⟩
    · obtain ⟨t, ht, hhalf⟩ := exists_firstHalf p.freq true (.inl rfl)
      exact ⟨t, ht, by simpa [hhalf] using h⟩
    · obtain ⟨t, ht, hhalf⟩ := exists_firstHalf p.freq false (.inr hfreq)
      exact ⟨t, ht, by simpa [hhalf, ← sub_eq_add_neg] using h⟩

/-- **With clear parameters the signal keeps out of the gap**, whatever is read and drawn. -/
theorem signal_clear {t : Test ℝ} (h : t.Clear) (startTime : ℝ) (r : Reading ℝ)
    {s : PulseState ℝ} (hs : t.Pulse s) : ¬ InGap (t.signal realTrig startTime r s).1 := by
  cases t with
  | wire p => exact h.value _
  | pulse p =>
    obtain ⟨hupper, hlower⟩ := h
    have hamp := pulse_amplitude r hs
    simp only [Test.signal, PulseTest.baseSignal]
    by_cases hhalf : firstHalf ((r.now - startTime) * p.stepFreq) = true
    · rw [if_pos hhalf]
      exact hupper.amplitude hamp
    · have hfreq := ne_zero_of_not_firstHalf hhalf
      rw [if_neg hhalf, ← sub_eq_add_neg]
      exact (hlower.resolve_left hfreq).amplitude hamp

/-- A pass at a moment of the test, with its draws. -/
def firstPass (startTime tNow : ℝ) (random amplitude : Draw ℝ) : Reading ℝ where
  check := startTime
  now := startTime + tNow
  current := startTime + tNow
  stamp := startTime + tNow
  random := random
  amplitude := amplitude

/-- **Without, it falls into it**: on the first pass, for some moment of it and some draws. -/
theorem exists_signal {t : Test ℝ} (h : ¬ t.Clear) {startTime : ℝ} (h0 : 0 ≤ startTime) :
    ∃ r : Reading ℝ, r.check = startTime ∧ startTime ≤ r.now ∧ r.now ≤ r.current ∧
      r.current ≤ r.stamp ∧ InGap (t.signal realTrig startTime r .init).1 := by
  cases t with
  | wire p =>
    obtain ⟨tNow, ht, hgap⟩ := exists_value h
    have hzero : (0 : ℝ) ≤ 0 ∧ (0 : ℝ) < 1 := ⟨le_rfl, one_pos⟩
    refine ⟨firstPass startTime tNow ⟨0, hzero⟩ ⟨0, hzero⟩, rfl,
      le_add_of_nonneg_right ht, le_rfl, le_rfl, ?_⟩
    rwa [Test.signal, firstPass, add_sub_cancel_left]
  | pulse p =>
    -- the level around which a pulse falls into the gap
    have hlevel : ∃ upper, (upper = true ∨ p.stepFreq ≠ 0) ∧
        ¬ p.ClearAt (p.offset + if upper then p.stepAmp else -p.stepAmp) := by
      have hnot : ¬ p.Clear := h
      rw [PulseTest.Clear, not_and_or, not_or] at hnot
      rcases hnot with hupper | ⟨hfreq, hlower⟩
      · exact ⟨true, .inl rfl, hupper⟩
      · exact ⟨false, .inr hfreq, by simpa [← sub_eq_add_neg] using hlower⟩
    obtain ⟨upper, hfreq, hclear⟩ := hlevel
    obtain ⟨tNow, ht, hhalf⟩ := exists_firstHalf p.stepFreq upper hfreq
    obtain ⟨random, amplitude, hgap⟩ := exists_pulse hclear
    refine ⟨firstPass startTime tNow random amplitude, rfl, le_add_of_nonneg_right ht, le_rfl,
      le_rfl, ?_⟩
    have hpulse := hgap (firstPass startTime tNow random amplitude) (add_nonneg h0 ht) rfl rfl
    have hnow : (firstPass startTime tNow random amplitude).now - startTime = tNow :=
      add_sub_cancel_left startTime tNow
    simpa only [Test.signal, PulseTest.baseSignal, hnow, hhalf] using hpulse

/-! ## Runs -/

/-- With clear parameters a step publishes no sentinel. -/
theorem step_clear {threshold : ℝ} {t : Test ℝ} (ht : t.Clear) {s s' : Tester ℝ} {l : Label ℝ}
    (hpulse : t.Pulse s.pulse) (hs : ∀ cmd ∈ s.published, cmd.targetWireSpd ≠ NO_CHANGE)
    (h : step realTrig threshold t s l = some s') :
    t.Pulse s'.pulse ∧ ∀ cmd ∈ s'.published, cmd.targetWireSpd ≠ NO_CHANGE := by
  cases step_trans h with
  | published r cmd _ _ hcmd =>
    refine ⟨signal_pulse s.startTime r hpulse, ?_⟩
    rw [List.forall_mem_append, List.forall_mem_singleton]
    refine ⟨hs, ?_⟩
    rw [ne_eq, command_sentinel_iff hcmd, trunc_eq_sentinel_iff]
    exact signal_clear ht s.startTime r hpulse
  | raised r => exact ⟨signal_pulse s.startTime r hpulse, hs⟩
  | measured | unreached => exact ⟨hpulse, hs⟩

/-- The first pass, where its signal is in the gap. -/
theorem run_pass (rateOk : ℝ → Bool) (threshold : ℝ) {t : Test ℝ} {startTime : ℝ}
    {r : Reading ℝ} (hstarts : t.starts rateOk = true)
    (hcheck : r.check < startTime + t.duration)
    (hgap : InGap (t.signal realTrig startTime r .init).1) :
    ∃ s, Lts.run (step realTrig threshold t) (Tester.init rateOk t startTime) [.pass r] = some s ∧
      s.published = [baseCmd] := by
  have htrunc := trunc_eq_sentinel_iff.mpr hgap
  have hcmd : command (-1) = some baseCmd := rfl
  have hpass : (Tester.init rateOk t startTime).running ∧
      r.check < (Tester.init rateOk t startTime).startTime + t.duration := ⟨hstarts, hcheck⟩
  refine ⟨{ Tester.init rateOk t startTime with
    pulse := (t.signal realTrig startTime r .init).2
    published := [baseCmd]
    cmdHistory := remember [] (-1) r.stamp }, ?_, rfl⟩
  rw [Lts.run_cons, step, if_pos hpass]
  simp only [Tester.init, htrunc, hcmd, Option.bind_some, Lts.run_nil, List.nil_append]

theorem init_pulse (t : Test ℝ) : t.Pulse (PulseState.init : PulseState ℝ) := by
  cases t with
  | wire p => trivial
  | pulse p => exact .inl rfl

/-- A sample is not taken before the test was started. -/
def Label.NotBefore (startTime : ℝ) : Label ℝ → Prop
  | .pass r => startTime ≤ r.check
  | .stateCb _ _ => True

/-- A loop that is never entered publishes nothing. -/
theorem step_idle {threshold : ℝ} {t : Test ℝ} {s s' : Tester ℝ} {l : Label ℝ}
    (hidle : s.running = false ∨ t.duration ≤ 0) (hl : l.NotBefore s.startTime)
    (h : step realTrig threshold t s l = some s') :
    s'.published = s.published ∧ s'.startTime = s.startTime ∧ s'.running = s.running := by
  have hno : ∀ r : Reading ℝ, s.running = true → s.startTime ≤ r.check →
      ¬ r.check < s.startTime + t.duration := by
    intro r hrunning hstart hcheck
    rcases hidle with hstopped | hduration
    · rw [hstopped] at hrunning
      cases hrunning
    · linarith
  cases step_trans h with
  | published r cmd hrunning hcheck => exact absurd hcheck (hno r hrunning hl)
  | raised r hrunning hcheck => exact absurd hcheck (hno r hrunning hl)
  | measured | unreached => exact ⟨rfl, rfl, rfl⟩

theorem run_books {threshold : ℝ} {rateOk : ℝ → Bool} {t : Test ℝ} {startTime : ℝ}
    {ls : List (Label ℝ)} {s : Tester ℝ}
    (h : Lts.run (step realTrig threshold t) (Tester.init rateOk t startTime) ls = some s) :
    Books s :=
  Lts.run_inv (fun _ _ _ hu huv => step_books hu huv)
    ⟨by simp [Tester.init], by simp [Tester.init], by simp [Tester.init]⟩ h

/-- **With clear parameters every run is safe**, whatever the clock does. -/
theorem run_clear {threshold : ℝ} {rateOk : ℝ → Bool} {t : Test ℝ} (ht : t.Clear)
    {startTime : ℝ} {ls : List (Label ℝ)} {s : Tester ℝ}
    (h : Lts.run (step realTrig threshold t) (Tester.init rateOk t startTime) ls = some s) :
    s.Safe := by
  rw [safe_iff (run_books h)]
  have hrun := Lts.run_inv
    (I := fun u : Tester ℝ => t.Pulse u.pulse ∧
      ∀ cmd ∈ u.published, cmd.targetWireSpd ≠ NO_CHANGE)
    (fun u l v hu huv => step_clear ht hu.1 hu.2 huv) ⟨init_pulse t, by simp [Tester.init]⟩ h
  exact hrun.2

/-- The wire speed test keeps out of the gap with the defaults of the command line. -/
example : (Test.wire (WireSpeedTest.defaults : WireSpeedTest ℝ)).Clear := by
  have hclear : (WireSpeedTest.defaults : WireSpeedTest ℝ).Clear := by
    norm_num [WireSpeedTest.Clear, WireSpeedTest.defaults]
  exact hclear

theorem run_idle {threshold : ℝ} {rateOk : ℝ → Bool} {t : Test ℝ} {startTime : ℝ}
    (hidle : t.starts rateOk = false ∨ t.duration ≤ 0) {ls : List (Label ℝ)}
    (hls : ∀ l ∈ ls, l.NotBefore startTime) {s : Tester ℝ}
    (h : Lts.run (step realTrig threshold t) (Tester.init rateOk t startTime) ls = some s) :
    s.Safe := by
  rw [safe_iff (run_books h)]
  have halong : Lts.Along (step realTrig threshold t) (fun _ l => l.NotBefore startTime)
      (Tester.init rateOk t startTime) ls := Lts.along_of_forall fun l hl _ => hls l hl
  have hrun := Lts.run_inv_along
    (I := fun u : Tester ℝ => u.published = [] ∧ u.startTime = startTime ∧
      (u.running = false ∨ t.duration ≤ 0))
    (by
      rintro u l v ⟨hpub, hstart, hu⟩ hl huv
      obtain ⟨hpub', hstart', hrunning⟩ := step_idle hu (hstart.symm ▸ hl) huv
      exact ⟨hpub'.trans hpub, hstart'.trans hstart, hrunning.symm ▸ hu⟩)
    ⟨rfl, rfl, hidle⟩ halong h
  simp [hrun.1]

/-- **For which parameters a test is safe.**  Every set-point published in a run and every one a
latency is measured against is executed, for all times and draws, exactly when the loop is never
entered or the signal keeps out of the gap above -2 and up to -1. -/
theorem run_safe_iff (rateOk : ℝ → Bool) (threshold : ℝ) (t : Test ℝ) :
    (∀ startTime, 0 ≤ startTime → ∀ ls s, (∀ l ∈ ls, Label.NotBefore startTime l) →
        Lts.run (step realTrig threshold t) (Tester.init rateOk t startTime) ls = some s →
          s.Safe) ↔
      t.starts rateOk = false ∨ t.duration ≤ 0 ∨ t.Clear := by
  constructor
  · intro hsafe
    by_contra hnot
    rw [not_or, not_or, not_le, Bool.not_eq_false] at hnot
    obtain ⟨hstarts, hduration, hclear⟩ := hnot
    obtain ⟨r, hcheck, -, -, -, hgap⟩ := exists_signal hclear (le_refl (0 : ℝ))
    obtain ⟨s, hrun, hpub⟩ := run_pass rateOk threshold hstarts (by linarith) hgap
    have hs := hsafe 0 le_rfl _ s (by simp [Label.NotBefore, hcheck]) hrun
    have hcmd := hs.published baseCmd (by simp [hpub])
    exact hcmd.1 rfl
  · rintro (hstarts | hduration | hclear) startTime - ls s hls h
    · exact run_idle (.inl hstarts) hls h
    · exact run_idle (.inr hduration) hls h
    · exact run_clear hclear h

/-- With the defaults of the command line: the lower level 5 and a pulse of -6. -/
theorem run_safe_defaults :
    ∃ r : Reading ℝ, r.check = 1 / 2 ∧ r.now = 1 / 2 ∧ r.current = 1 / 2 ∧ r.random.val = 0 ∧
      r.amplitude.val = 1 / 8 ∧
      ∃ s, Lts.run (step realTrig 1 (.pulse PulseTest.defaults))
          (Tester.init (fun _ => true) (.pulse PulseTest.defaults) 0) [.pass r] = some s ∧
        s.published = [baseCmd] ∧ ¬ s.Safe := by
  obtain ⟨r, hr⟩ : ∃ r : Reading ℝ, r = ⟨1 / 2, 1 / 2, 1 / 2, 1 / 2, ⟨0, le_rfl, one_pos⟩,
    ⟨1 / 8, by norm_num⟩⟩ := ⟨_, rfl⟩
  have hhalf : firstHalf ((1 : ℝ) / 2) = false := by
    rw [firstHalf, Int.fract_eq_self.mpr ⟨by norm_num, by norm_num⟩]
    exact decide_eq_false (lt_irrefl _)
  have hgap : InGap ((Test.pulse PulseTest.defaults).signal realTrig 0 r .init).1 := by
    norm_num [Test.signal, PulseTest.defaults, PulseTest.pulse, PulseTest.baseSignal, hr,
      PulseTest.pulseProbPerSample, PulseState.init, uniform, hhalf, InGap]
  obtain ⟨s, hrun, hpub⟩ := run_pass (fun _ => true) 1
    (by norm_num [Test.starts, PulseTest.defaults])
    (by norm_num [Test.duration, PulseTest.defaults, hr]) hgap
  refine ⟨r, by rw [hr], by rw [hr], by rw [hr], by rw [hr], by rw [hr], s, hrun, hpub, ?_⟩
  intro hs
  exact (hs.published baseCmd (by simp [hpub])).1 rfl

end FreqTest

end FanucDriver
