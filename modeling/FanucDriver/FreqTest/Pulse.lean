import FanucDriver.FreqTest.Program

/-!
# The pulse test

* `pulse_cases` — a pass starts a pulse, is after one, or is within one.
* `PulseTest.Amplitude` — the amplitudes that can occur.
* `Pass`, `PulseTest.loop` — what the passes of `run_pulse_test` produce.
* `loop_before` — the pulse at the beginning stays as it is until it expires.
* `run_loop` — the commands of a run of the node are those of the loop.
* `loop_bounded_hold` — bounds of the set-points, and how long a pulse lasts.
-/

set_option autoImplicit false

namespace FanucDriver

open Signal

namespace FreqTest

variable {K : Type} [Field K] [LinearOrder K]

/-! ## The generator -/

/-- **What a pass can do to the pulse.** -/
theorem pulse_cases (p : PulseTest K) (r : Reading K) (s : PulseState K) :
    (s.pulseEndTime ≤ r.current ∧ p.starts r s = true ∧ 0 < p.pulseProbPerSample ∧
        (p.pulse r s).pulseEndTime = r.current + p.pulseDuration ∧
        (p.pulse r s).currentPulseAmplitude = uniform (-p.pulseAmp) p.pulseAmp r.amplitude) ∨
      (s.pulseEndTime ≤ r.current ∧ p.starts r s = false ∧
        (p.pulse r s).currentPulseAmplitude = 0) ∨
      (r.current < s.pulseEndTime ∧ p.starts r s = false ∧ p.pulse r s = s) := by
  simp only [PulseTest.pulse, PulseTest.starts]
  by_cases hexp : s.pulseEndTime ≤ r.current
  · by_cases hdraw : r.random.val < p.pulseProbPerSample
    · left
      rw [if_pos hexp, if_pos hdraw]
      exact ⟨hexp, decide_eq_true ⟨hexp, hdraw⟩, r.random.2.1.trans_lt hdraw, rfl, rfl⟩
    · right; left
      rw [if_pos hexp, if_neg hdraw]
      exact ⟨hexp, decide_eq_false fun h => hdraw h.2, rfl⟩
  · right; right
    rw [if_neg hexp]
    exact ⟨not_le.mp hexp, decide_eq_false fun h => hexp h.1, rfl⟩

theorem starts_pulseEndTime {p : PulseTest K} {r : Reading K} {s : PulseState K}
    (h : p.starts r s = true) : (p.pulse r s).pulseEndTime = r.current + p.pulseDuration := by
  rcases pulse_cases p r s with ⟨-, -, -, hend, -⟩ | ⟨-, hnot, -⟩ | ⟨-, hnot, -⟩
  · exact hend
  · simp [hnot] at h
  · simp [hnot] at h

/-- An amplitude the generator can produce. -/
def PulseTest.Amplitude (p : PulseTest K) (a : K) : Prop :=
  a = 0 ∨ 0 < p.pulseProbPerSample ∧ ∃ u, a = uniform (-p.pulseAmp) p.pulseAmp u

theorem pulse_amplitude {p : PulseTest K} (r : Reading K) {s : PulseState K}
    (hs : p.Amplitude s.currentPulseAmplitude) :
    p.Amplitude (p.pulse r s).currentPulseAmplitude := by
  rcases pulse_cases p r s with ⟨-, -, hprob, -, hamp⟩ | ⟨-, -, hamp⟩ | ⟨-, -, hsame⟩
  · exact .inr ⟨hprob, _, hamp⟩
  · exact .inl hamp
  · rwa [hsame]

theorem PulseTest.Amplitude.abs_le [IsStrictOrderedRing K] {p : PulseTest K} {a : K}
    (ha : p.Amplitude a) : |a| ≤ |p.pulseAmp| := by
  rcases ha with rfl | ⟨-, u, rfl⟩
  · rw [abs_zero]
    exact abs_nonneg _
  · exact abs_uniform_le _ u

variable [FloorRing K]

/-! ## The loop -/

/-- What a pass leaves: `current_time`, whether it starts a pulse, the pulse and the set-point. -/
structure Pass (K : Type) where
  time : K
  started : Bool
  state : PulseState K
  targetVal : Int

def PulseTest.pass (p : PulseTest K) (startTime : K) (r : Reading K) (s : PulseState K) :
    Pass K where
  time := r.current
  started := p.starts r s
  state := p.pulse r s
  targetVal := trunc (p.offset + p.baseSignal (r.now - startTime) +
    (p.pulse r s).currentPulseAmplitude)

/-- The loop over its readings. -/
def PulseTest.loop (p : PulseTest K) (startTime : K) :
    PulseState K → List (Reading K) → List (Pass K)
  | _, [] => []
  | s, r :: rs =>
    if r.check < startTime + p.duration then
      p.pass startTime r s :: p.loop startTime (p.pulse r s) rs
    else []

/-! ## How long a pulse lasts -/

/-- As long as the pulse has not expired, the passes find it as it was. -/
theorem loop_before {p : PulseTest K} {startTime : K} {s : PulseState K} {rs : List (Reading K)}
    {k : Nat} {e : Pass K} (hk : (p.loop startTime s rs)[k]? = some e)
    (hbefore : ∀ j f, j < k → (p.loop startTime s rs)[j]? = some f → f.time < s.pulseEndTime) :
    ∃ r, e = p.pass startTime r s := by
  induction rs generalizing k with
  | nil => simp [PulseTest.loop] at hk
  | cons r rs ih =>
    rw [PulseTest.loop] at hk hbefore
    split at hk
    · rename_i hcheck
      rw [if_pos hcheck] at hbefore
      cases k with
      | zero =>
        cases hk
        exact ⟨r, rfl⟩
      | succ k =>
        have hfirst := hbefore 0 _ (by omega) rfl
        have hsame : p.pulse r s = s := by
          rcases pulse_cases p r s with ⟨hexp, -⟩ | ⟨hexp, -⟩ | ⟨-, -, hstate⟩
          · exact absurd hfirst hexp.not_gt
          · exact absurd hfirst hexp.not_gt
          · exact hstate
        rw [hsame] at hk hbefore
        refine ih hk ?_
        intro j f hj hf
        exact hbefore (j + 1) f (by omega) hf
    · simp at hk

/-- A pass and the loop behind it. -/
theorem loop_behind {p : PulseTest K} {startTime : K} {s : PulseState K} {rs : List (Reading K)}
    {i : Nat} {e : Pass K} (hi : (p.loop startTime s rs)[i]? = some e) :
    (∃ r s', e = p.pass startTime r s') ∧
      (p.loop startTime s rs).drop (i + 1) = p.loop startTime e.state (rs.drop (i + 1)) := by
  induction rs generalizing s i with
  | nil => simp [PulseTest.loop] at hi
  | cons r rs ih =>
    rw [PulseTest.loop] at hi ⊢
    split at hi
    · rename_i hcheck
      rw [if_pos hcheck]
      cases i with
      | zero =>
        cases hi
        exact ⟨⟨r, s, rfl⟩, rfl⟩
      | succ i => exact ih hi
    · simp at hi

/-- A pass behind the start of a pulse, with nothing but passes within the pulse between them,
finds the pulse as it started. -/
theorem loop_within {p : PulseTest K} {startTime : K} {s : PulseState K} {rs : List (Reading K)}
    {i k : Nat} {first e : Pass K} (hi : (p.loop startTime s rs)[i]? = some first)
    (hstarted : first.started = true) (hik : i < k) (hk : (p.loop startTime s rs)[k]? = some e)
    (hbetween : ∀ j f, i < j → j < k → (p.loop startTime s rs)[j]? = some f →
      f.time < first.time + p.pulseDuration) :
    first.state.pulseEndTime = first.time + p.pulseDuration ∧
      ∃ r, e = p.pass startTime r first.state := by
  obtain ⟨⟨r, s', rfl⟩, hbehind⟩ := loop_behind hi
  have hend : (p.pass startTime r s').state.pulseEndTime =
      (p.pass startTime r s').time + p.pulseDuration := starts_pulseEndTime hstarted
  have hdrop : ∀ j, (p.loop startTime (p.pass startTime r s').state (rs.drop (i + 1)))[j]? =
      (p.loop startTime s rs)[i + 1 + j]? := by
    intro j
    rw [← hbehind, List.getElem?_drop]
  have hfound : (p.loop startTime (p.pass startTime r s').state
      (rs.drop (i + 1)))[k - (i + 1)]? = some e := by
    rw [hdrop, Nat.add_sub_cancel' hik, hk]
  refine ⟨hend, loop_before hfound ?_⟩
  intro j f hj hf
  rw [hdrop] at hf
  rw [hend]
  exact hbetween (i + 1 + j) f (by omega) (by omega) hf

/-! ## The loop within the node -/

/-- What a pass of the loop reads. -/
def Label.reading : Label K → Option (Reading K)
  | .pass r => some r
  | .stateCb _ _ => none

theorem loop_concat {p : PulseTest K} {startTime : K} {s : PulseState K} {rs : List (Reading K)}
    (hrs : ∀ r ∈ rs, r.check < startTime + p.duration) {r : Reading K}
    (hr : r.check < startTime + p.duration) :
    p.loop startTime s (rs ++ [r]) = p.loop startTime s rs ++
      [p.pass startTime r (rs.foldl (fun s r => p.pulse r s) s)] := by
  induction rs generalizing s with
  | nil => simp [PulseTest.loop, hr]
  | cons r₁ rs ih =>
    rw [List.forall_mem_cons] at hrs
    rw [List.cons_append, PulseTest.loop, if_pos hrs.1, ih hrs.2, PulseTest.loop, if_pos hrs.1,
      List.cons_append, List.foldl_cons]

/-- The node after the passes that have read `rs`. -/
structure InLoop (p : PulseTest K) (startTime : K) (rs : List (Reading K)) (s : Tester K) :
    Prop where
  start : s.startTime = startTime
  checks : ∀ r ∈ rs, r.check < startTime + p.duration
  pulse : s.pulse = rs.foldl (fun s r => p.pulse r s) .init
  published : s.published = (p.loop startTime .init rs).filterMap fun e => command e.targetVal

theorem step_inLoop {m : Trig K} {threshold : K} {p : PulseTest K} {startTime : K}
    {rs : List (Reading K)} {s s' : Tester K} {l : Label K} (hs : InLoop p startTime rs s)
    (h : step m threshold (.pulse p) s l = some s') :
    InLoop p startTime (rs ++ l.reading.toList) s' := by
  have hpass : ∀ r : Reading K, r.check < s.startTime + p.duration →
      (∀ r' ∈ rs ++ [r], r'.check < startTime + p.duration) ∧
        p.pulse r s.pulse = (rs ++ [r]).foldl (fun s r => p.pulse r s) .init ∧
        ((p.loop startTime .init (rs ++ [r])).filterMap fun e => command e.targetVal) =
          s.published ++ (command (p.pass s.startTime r s.pulse).targetVal).toList := by
    intro r hr
    rw [hs.start] at hr ⊢
    refine ⟨?_, by rw [List.foldl_append, ← hs.pulse]; rfl, ?_⟩
    · rw [List.forall_mem_append, List.forall_mem_singleton]
      exact ⟨hs.checks, hr⟩
    · rw [loop_concat hs.checks hr, List.filterMap_append, ← hs.published, ← hs.pulse]
      cases hcmd : command (p.pass startTime r s.pulse).targetVal <;> simp [hcmd]
  cases step_trans h with
  | published r cmd _ hcheck hcmd =>
    obtain ⟨hchecks, hpulse, hpub⟩ := hpass r hcheck
    refine ⟨hs.start, hchecks, hpulse, ?_⟩
    rw [Label.reading, Option.toList_some, hpub]
    exact congrArg (s.published ++ Option.toList ·) hcmd.symm
  | raised r _ hcheck hcmd =>
    obtain ⟨hchecks, hpulse, hpub⟩ := hpass r hcheck
    refine ⟨hs.start, hchecks, hpulse, ?_⟩
    rw [Label.reading, Option.toList_some, hpub]
    exact (List.append_nil s.published).symm.trans
      (congrArg (s.published ++ Option.toList ·) hcmd.symm)
  | measured | unreached =>
    rw [Label.reading, Option.toList_none, List.append_nil]
    exact ⟨hs.start, hs.checks, hs.pulse, hs.published⟩

/-- **The commands of a run are those of the loop**, but for a set-point that cannot be sent. -/
theorem run_loop {m : Trig K} {threshold : K} {rateOk : K → Bool} {p : PulseTest K}
    {startTime : K} {ls : List (Label K)} {s : Tester K}
    (h : Lts.run (step m threshold (.pulse p)) (Tester.init rateOk (.pulse p) startTime) ls =
      some s) :
    s.published = (p.loop startTime .init (ls.filterMap Label.reading)).filterMap
      fun e => command e.targetVal := by
  have hrun := Lts.run_hist
    (I := fun done u => InLoop p startTime (done.filterMap Label.reading) u)
    (by
      intro done u l v hu huv
      have hstep := step_inLoop hu huv
      rw [List.filterMap_append]
      cases l <;> exact hstep)
    ⟨rfl, by simp, rfl, rfl⟩ h
  exact hrun.published

/-! ## Bounds -/

theorem baseSignal_eq (p : PulseTest K) (tNow : K) :
    p.baseSignal tNow = p.stepAmp ∨ p.baseSignal tNow = -p.stepAmp := by
  unfold PulseTest.baseSignal
  split
  · exact .inl rfl
  · exact .inr rfl

variable [IsStrictOrderedRing K]

/-- Every set-point of the loop is within the amplitudes around the offset. -/
theorem loop_bounded {p : PulseTest K} (hstep : 0 ≤ p.stepAmp) (hpulse : 0 ≤ p.pulseAmp)
    (startTime : K) {s : PulseState K} (hs : p.Amplitude s.currentPulseAmplitude)
    (rs : List (Reading K)) : ∀ e ∈ p.loop startTime s rs,
      trunc (p.offset - p.stepAmp - p.pulseAmp) ≤ e.targetVal ∧
        e.targetVal ≤ trunc (p.offset + p.stepAmp + p.pulseAmp) := by
  induction rs generalizing s with
  | nil => simp [PulseTest.loop]
  | cons r rs ih =>
    intro e he
    rw [PulseTest.loop] at he
    split at he
    · have hamp := pulse_amplitude r hs
      rcases List.mem_cons.mp he with rfl | he
      · have habs := abs_le.mp (hamp.abs_le.trans_eq (abs_of_nonneg hpulse))
        have hbase : -p.stepAmp ≤ p.baseSignal (r.now - startTime) ∧
            p.baseSignal (r.now - startTime) ≤ p.stepAmp := by
          rcases baseSignal_eq p (r.now - startTime) with hb | hb
          · exact ⟨by linarith, hb.le⟩
          · exact ⟨hb.ge, by linarith⟩
        constructor
        · apply trunc_mono
          linarith [hbase.1, habs.1]
        · apply trunc_mono
          linarith [hbase.2, habs.2]
      · exact ih hamp e he
    · cases he

/-- **Bounds and pulses.**  With amplitudes that are not negative every set-point is within them;
a pulse that has started keeps its amplitude, and no other starts, on every pass before its
duration is over, and the first pass behind that takes it back or starts another one. -/
theorem loop_bounded_hold (p : PulseTest K) (hstep : 0 ≤ p.stepAmp) (hpulse : 0 ≤ p.pulseAmp)
    (startTime : K) (rs : List (Reading K)) :
    let passes := p.loop startTime .init rs
    (∀ e ∈ passes, trunc (p.offset - p.stepAmp - p.pulseAmp) ≤ e.targetVal ∧
      e.targetVal ≤ trunc (p.offset + p.stepAmp + p.pulseAmp)) ∧
    ∀ (i k : Nat) (first e : Pass K), passes[i]? = some first → first.started = true → i < k →
      passes[k]? = some e →
      (∀ (j : Nat) (f : Pass K), i < j → j < k → passes[j]? = some f →
        f.time < first.time + p.pulseDuration) →
      (e.time < first.time + p.pulseDuration → e.started = false ∧
        e.state.currentPulseAmplitude = first.state.currentPulseAmplitude) ∧
      (first.time + p.pulseDuration ≤ e.time →
        e.started = true ∨ e.state.currentPulseAmplitude = 0) := by
  refine ⟨loop_bounded hstep hpulse startTime (.inl rfl) rs, ?_⟩
  intro i k first e hi hstarted hik hk hbetween
  obtain ⟨hend, r, rfl⟩ := loop_within hi hstarted hik hk hbetween
  have hcases := pulse_cases p r first.state
  rw [hend] at hcases
  constructor
  · intro hlt
    rcases hcases with ⟨hle, -⟩ | ⟨hle, -⟩ | ⟨-, hnot, hstate⟩
    · exact absurd hlt hle.not_gt
    · exact absurd hlt hle.not_gt
    · exact ⟨hnot, congrArg PulseState.currentPulseAmplitude hstate⟩
  · intro hle
    rcases hcases with ⟨-, hstart, -⟩ | ⟨-, -, hzero⟩ | ⟨hlt, -⟩
    · exact .inl hstart
    · exact .inr hzero
    · exact absurd hlt hle.not_gt

/-- Two passes ten milliseconds apart; the first starts a pulse. -/
def twoPasses : List (Reading ℚ) :=
  [⟨0, 0, 0, 0, ⟨0, by decide⟩, ⟨0, by decide⟩⟩,
    ⟨1 / 100, 1 / 100, 1 / 100, 1 / 100, ⟨0, by decide⟩, ⟨1 / 2, by norm_num⟩⟩]

theorem loop_bounded_hold_defaults :
    let passes := (PulseTest.defaults : PulseTest ℚ).loop 0 .init twoPasses
    (∀ e ∈ passes, -3 ≤ e.targetVal ∧ e.targetVal ≤ 43) ∧
      passes.map (fun e => (e.started, e.state.currentPulseAmplitude)) =
        [(true, -8), (false, -8)] := by
  have hall := loop_bounded_hold (PulseTest.defaults : PulseTest ℚ)
    (by norm_num [PulseTest.defaults]) (by norm_num [PulseTest.defaults]) 0 twoPasses
  have hlo : trunc (20 - 15 - 8 : ℚ) = -3 := by decide +kernel
  have hhi : trunc (20 + 15 + 8 : ℚ) = 43 := by decide +kernel
  exact ⟨fun e he => ⟨hlo ▸ (hall.1 e he).1, hhi ▸ (hall.1 e he).2⟩, by decide +kernel⟩

end FreqTest

end FanucDriver
