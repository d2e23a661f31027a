import FanucDriver.Ik.Plugin
import FanucDriver.Lib.While
import Mathlib.Tactic.Linarith

/-!
# Full turns towards the seed

The newer plugin turns the joints of a solution by full turns towards the seed state
(`getSolution` with `ik_seed_state`).

* `turnDown`, `turnUp` — the two loops of a joint; `turn` — both, for a joint with limits.
* `turn_loops` — what the passes of the loops keep, the value has in the end, and it is either
  within half a turn of the seed or stopped by a limit; `turn_spec`, `turn_le`.
* `turn_closest` — no other number of full turns within the limits gets closer to the seed.
-/

set_option autoImplicit false

namespace FanucDriver

namespace Ik

variable {K : Type} [Field K] [LinearOrder K]

/-- `M_PI` -/
abbrev HalfTurn (K : Type) [Field K] [LinearOrder K] := {pi : K // 0 < pi}

/-- `2 * M_PI` -/
def HalfTurn.full (M_PI : HalfTurn K) : K := M_PI + M_PI

/-- Half a turn, in degrees. -/
def degrees : HalfTurn ℚ := ⟨180, by norm_num⟩

/-- `LIMIT_TOLERANCE` -/
def LIMIT_TOLERANCE : K := 0.0000001

/-- The first component is the distance of the second to the seed, and the second has a property. -/
structure Tracks (seed : K) (P : K → Prop) (s : K × K) : Prop where
  distance : s.1 = s.2 - seed
  holds : P s.2

/-- Where the loops leave a joint. -/
inductive Settled (M_PI : HalfTurn K) (lower upper seed r : K) : Prop
  | near (h : |r - seed| ≤ M_PI.1)
  | above (far : M_PI.1 < r - seed) (limit : r - M_PI.full ≤ lower)
  | below (far : r - seed < -M_PI.1) (limit : upper ≤ r + M_PI.full)

/-- A property that the passes of both loops keep. -/
structure Kept (M_PI : HalfTurn K) (lower upper seed : K) (P : K → Prop) : Prop where
  down : ∀ x, P x → M_PI.1 < x - seed → lower < x - M_PI.full → P (x - M_PI.full)
  up : ∀ x, P x → x - seed < -M_PI.1 → x + M_PI.full < upper → P (x + M_PI.full)

/-- A number of full turns. -/
theorem kept_turns (M_PI : HalfTurn K) (lower upper seed solution : K) :
    Kept M_PI lower upper seed fun x => ∃ k : Int, x = solution + k * M_PI.full where
  down x hx _ _ := by
    obtain ⟨k, rfl⟩ := hx
    refine ⟨k - 1, ?_⟩
    push_cast
    ring
  up x hx _ _ := by
    obtain ⟨k, rfl⟩ := hx
    refine ⟨k + 1, ?_⟩
    push_cast
    ring

variable [IsStrictOrderedRing K]

theorem HalfTurn.full_pos (M_PI : HalfTurn K) : 0 < M_PI.full := add_pos M_PI.2 M_PI.2

/-- Every pass gets closer to the seed. -/
theorem kept_closer (M_PI : HalfTurn K) (lower upper seed bound : K) :
    Kept M_PI lower upper seed fun x => |x - seed| ≤ bound where
  down x hx hfar _ := by
    have hfull : M_PI.full = M_PI.1 + M_PI.1 := rfl
    have := M_PI.2
    rw [abs_le] at hx ⊢
    constructor <;> linarith
  up x hx hfar _ := by
    have hfull : M_PI.full = M_PI.1 + M_PI.1 := rfl
    have := M_PI.2
    rw [abs_le] at hx ⊢
    constructor <;> linarith

/-- No pass leaves the limits. -/
theorem kept_limits (M_PI : HalfTurn K) (lower upper seed : K) :
    Kept M_PI lower upper seed fun x => lower ≤ x ∧ x ≤ upper where
  down x hx _ hlimit := by
    have := M_PI.full_pos
    exact ⟨hlimit.le, by linarith⟩
  up x hx _ hlimit := by
    have := M_PI.full_pos
    exact ⟨by linarith, hlimit.le⟩

/-- Full turns are at least one full turn down, none, or at least one up. -/
theorem HalfTurn.turns (M_PI : HalfTurn K) (m : Int) :
    (m : K) * M_PI.full ≤ -M_PI.full ∨ m = 0 ∨ M_PI.full ≤ (m : K) * M_PI.full := by
  have hpos := M_PI.full_pos
  rcases lt_trichotomy m 0 with hm | hm | hm
  · have hm' : (m : K) ≤ -1 := by exact_mod_cast Int.le_sub_one_of_lt hm
    left
    nlinarith
  · exact .inr (.inl hm)
  · have hm' : (1 : K) ≤ m := by exact_mod_cast hm
    right
    right
    nlinarith

/-- A different number of full turns is at least half a turn away from what is near the seed. -/
theorem Settled.closest {M_PI : HalfTurn K} {lower upper seed r : K}
    (h : Settled M_PI lower upper seed r) {m : Int} (hlow : lower < r + m * M_PI.full)
    (hup : r + m * M_PI.full < upper) : |r - seed| ≤ |r + m * M_PI.full - seed| := by
  have hfull : M_PI.full = M_PI.1 + M_PI.1 := rfl
  have hpi := M_PI.2
  rcases M_PI.turns m with hmul | rfl | hmul
  · cases h with
    | near h =>
      have := abs_le.mp h
      rw [abs_of_nonpos (a := r + m * M_PI.full - seed) (by linarith)]
      linarith
    | above far limit => linarith
    | below far limit =>
      rw [abs_of_neg (by linarith), abs_of_neg (by linarith)]
      linarith
  · simp
  · cases h with
    | near h =>
      have := abs_le.mp h
      rw [abs_of_nonneg (a := r + m * M_PI.full - seed) (by linarith)]
      linarith
    | above far limit =>
      rw [abs_of_pos (by linarith), abs_of_pos (by linarith)]
      linarith
    | below far limit => linarith

/-- What is less than half a turn from the seed is where the loops end. -/
theorem Settled.eq_of_near {M_PI : HalfTurn K} {lower upper seed r : K}
    (h : Settled M_PI lower upper seed r) {m : Int} (hlow : lower < r + m * M_PI.full)
    (hup : r + m * M_PI.full < upper) (hnear : |r + m * M_PI.full - seed| < M_PI.1) :
    r + m * M_PI.full = r := by
  have hfull : M_PI.full = M_PI.1 + M_PI.1 := rfl
  have hdist := abs_lt.mp hnear
  rcases M_PI.turns m with hmul | rfl | hmul
  · cases h with
    | near h =>
      have := abs_le.mp h
      linarith
    | above far limit => linarith
    | below far limit => linarith
  · simp
  · cases h with
    | near h =>
      have := abs_le.mp h
      linarith
    | above far limit => linarith
    | below far limit => linarith

/-- A value stopped outside the limits, with another one inside, is near the seed. -/
theorem Settled.near_of_outside {M_PI : HalfTurn K} {lower upper seed r : K}
    (h : Settled M_PI lower upper seed r) (hseed : lower ≤ seed ∧ seed ≤ upper)
    (hout : r < lower ∨ upper < r) {m : Int} (hlow : lower < r + m * M_PI.full)
    (hup : r + m * M_PI.full < upper) : |r - seed| ≤ M_PI.1 := by
  have hpi := M_PI.2
  have hpos := M_PI.full_pos
  cases h with
  | near h => exact h
  | above far limit =>
    have hout : upper < r := hout.resolve_left (by linarith)
    rcases M_PI.turns m with hmul | rfl | hmul
    · linarith
    · rw [Int.cast_zero, zero_mul, add_zero] at hup
      linarith
    · linarith
  | below far limit =>
    have hout : r < lower := hout.resolve_right (by linarith)
    rcases M_PI.turns m with hmul | rfl | hmul
    · linarith
    · rw [Int.cast_zero, zero_mul, add_zero] at hlow
      linarith
    · linarith

variable [FloorRing K]

/-- Joint values above the seed; the state is `signed_distance` and `solution[i]`. -/
def turnDown (M_PI : HalfTurn K) (lower : K) : While (K × K) where
  cond s := M_PI.1 < s.1 ∧ lower < s.2 - M_PI.full
  body s := (s.1 - M_PI.full, s.2 - M_PI.full)
  variant s := steps M_PI.full s.1
  decreases _ hs := steps_lt M_PI.full_pos (M_PI.2.trans (of_decide_eq_true hs).1)

/-- Joint values below the seed. -/
def turnUp (M_PI : HalfTurn K) (upper : K) : While (K × K) where
  cond s := s.1 < -M_PI.1 ∧ s.2 + M_PI.full < upper
  body s := (s.1 + M_PI.full, s.2 + M_PI.full)
  variant s := steps M_PI.full (-s.1)
  decreases s hs := by
    rw [neg_add']
    exact steps_lt M_PI.full_pos (M_PI.2.trans (lt_neg.mp (of_decide_eq_true hs).1))

/-- One joint of `getSolution` with a seed. -/
def turn (M_PI : HalfTurn K) (limit : JointLimit K) (seed solution : K) : K :=
  if limit.hasLimits then
    let s := (turnDown M_PI (limit.min - LIMIT_TOLERANCE)).run (solution - seed, solution)
    ((turnUp M_PI (limit.max + LIMIT_TOLERANCE)).run s).2
  else solution

/-! ## What the loops do -/

theorem Kept.turnDown {M_PI : HalfTurn K} {lower upper seed : K} {P : K → Prop}
    (h : Kept M_PI lower upper seed P) (s : K × K) (hs : Tracks seed P s)
    (hcond : (turnDown M_PI lower).cond s = true) :
    Tracks seed P ((turnDown M_PI lower).body s) := by
  obtain ⟨hfar, hlimit⟩ := of_decide_eq_true hcond
  rw [hs.distance] at hfar
  exact ⟨by simp only [Ik.turnDown, hs.distance]; ring, h.down s.2 hs.holds hfar hlimit⟩

theorem Kept.turnUp {M_PI : HalfTurn K} {lower upper seed : K} {P : K → Prop}
    (h : Kept M_PI lower upper seed P) (s : K × K) (hs : Tracks seed P s)
    (hcond : (turnUp M_PI upper).cond s = true) :
    Tracks seed P ((turnUp M_PI upper).body s) := by
  obtain ⟨hfar, hlimit⟩ := of_decide_eq_true hcond
  rw [hs.distance] at hfar
  exact ⟨by simp only [Ik.turnUp, hs.distance]; ring, h.up s.2 hs.holds hfar hlimit⟩

/-- **The loops of a joint**: what they keep, and where they end. -/
theorem turn_loops {M_PI : HalfTurn K} {lower upper seed : K} {P : K → Prop}
    (h : Kept M_PI lower upper seed P) {solution : K} (hP : P solution) :
    P ((turnUp M_PI upper).run ((turnDown M_PI lower).run (solution - seed, solution))).2 ∧
      Settled M_PI lower upper seed
        ((turnUp M_PI upper).run ((turnDown M_PI lower).run (solution - seed, solution))).2 := by
  have hfull : M_PI.full = M_PI.1 + M_PI.1 := rfl
  have hpos := M_PI.2
  have hstart : Tracks seed P (solution - seed, solution) := ⟨rfl, hP⟩
  obtain ⟨hdown, hdownEnd⟩ := (turnDown M_PI lower).run_inv h.turnDown hstart
  obtain ⟨hup, hupEnd⟩ := (turnUp M_PI upper).run_inv h.turnUp hdown
  have hupLast := (turnUp M_PI upper).run_last h.turnUp hdown
  refine ⟨hup.holds, ?_⟩
  revert hdown hdownEnd hup hupEnd hupLast
  generalize (turnDown M_PI lower).run (solution - seed, solution) = d
  generalize (turnUp M_PI upper).run d = u
  intro hdown hdownEnd hup hupEnd hupLast
  simp only [turnDown, decide_eq_false_iff_not, not_and, not_lt] at hdownEnd
  simp only [turnUp, decide_eq_false_iff_not, not_and, not_lt] at hupEnd
  rw [hup.distance] at hupEnd
  have hbelow : u.2 - seed ≤ M_PI.1 → Settled M_PI lower upper seed u.2 := by
    intro hle
    rcases lt_or_ge (u.2 - seed) (-M_PI.1) with hfar | hnear
    · exact .below hfar (hupEnd hfar)
    · exact .near (abs_le.mpr ⟨hnear, hle⟩)
  rcases hupLast with rfl | ⟨t, -, hcond, hlast⟩
  · rcases lt_or_ge M_PI.1 (u.2 - seed) with hfar | hnear
    · exact .above hfar (hdownEnd (by rwa [hdown.distance]))
    · exact hbelow hnear
  · -- the last pass came from below, so it did not get above
    have hlt : t.1 < -M_PI.1 := (of_decide_eq_true hcond).1
    have hdist : u.1 = t.1 + M_PI.full := congrArg Prod.fst hlast
    apply hbelow
    rw [← hup.distance]
    linarith

/-- **A joint is turned towards the seed**, as far as half a turn or a limit. -/
theorem turn_spec (M_PI : HalfTurn K) {limit : JointLimit K} (hlimit : limit.hasLimits = true)
    (seed solution : K) :
    (∃ k : Int, turn M_PI limit seed solution = solution + k * M_PI.full) ∧
      Settled M_PI (limit.min - LIMIT_TOLERANCE) (limit.max + LIMIT_TOLERANCE) seed
        (turn M_PI limit seed solution) := by
  rw [turn, if_pos hlimit]
  exact turn_loops (kept_turns M_PI _ _ seed solution) ⟨0, by simp⟩

/-- Turning does not lead away from the seed. -/
theorem turn_le (M_PI : HalfTurn K) (limit : JointLimit K) (seed solution : K) :
    |turn M_PI limit seed solution - seed| ≤ |solution - seed| := by
  unfold turn
  split
  · exact (turn_loops (kept_closer M_PI _ _ seed _) le_rfl).1
  · exact le_rfl

/-- **No other number of full turns within the limits is closer to the seed.** -/
theorem turn_closest (M_PI : HalfTurn K) {limit : JointLimit K} (hlimit : limit.hasLimits = true)
    (seed solution : K) (k : Int)
    (hlow : limit.min - LIMIT_TOLERANCE < solution + k * M_PI.full)
    (hup : solution + k * M_PI.full < limit.max + LIMIT_TOLERANCE) :
    |turn M_PI limit seed solution - seed| ≤ |solution + k * M_PI.full - seed| := by
  obtain ⟨⟨n, hn⟩, hsettled⟩ := turn_spec M_PI hlimit seed solution
  have hk : turn M_PI limit seed solution + ((k - n : Int) : K) * M_PI.full =
      solution + k * M_PI.full := by
    rw [hn]
    push_cast
    ring
  rw [← hk] at hlow hup ⊢
  exact hsettled.closest hlow hup

/-- **The value less than half a turn from the seed** is where a joint is turned to, if it is within
the limits. -/
theorem turn_eq (M_PI : HalfTurn K) {limit : JointLimit K} (hlimit : limit.hasLimits = true)
    (seed solution : K) (k : Int)
    (hlow : limit.min - LIMIT_TOLERANCE < solution + k * M_PI.full)
    (hup : solution + k * M_PI.full < limit.max + LIMIT_TOLERANCE)
    (hnear : |solution + k * M_PI.full - seed| < M_PI) :
    turn M_PI limit seed solution = solution + k * M_PI.full := by
  obtain ⟨⟨n, hn⟩, hsettled⟩ := turn_spec M_PI hlimit seed solution
  have hk : turn M_PI limit seed solution + ((k - n : Int) : K) * M_PI.full =
      solution + k * M_PI.full := by
    rw [hn]
    push_cast
    ring
  rw [← hk] at hlow hup hnear ⊢
  exact (hsettled.eq_of_near hlow hup hnear).symm

/-- A joint that is not far from the seed is not turned. -/
theorem turn_of_near (M_PI : HalfTurn K) (limit : JointLimit K) {seed solution : K}
    (h : |solution - seed| ≤ M_PI.1) : turn M_PI limit seed solution = solution := by
  unfold turn
  split
  · obtain ⟨hlow, hup⟩ := abs_le.mp h
    have hdown : (turnDown M_PI (limit.min - LIMIT_TOLERANCE)).cond (solution - seed, solution) =
        false := decide_eq_false fun hcond => not_lt.mpr hup hcond.1
    have hup : (turnUp M_PI (limit.max + LIMIT_TOLERANCE)).cond (solution - seed, solution) =
        false := decide_eq_false fun hcond => not_lt.mpr hlow hcond.1
    simp only [While.run_of_not_cond _ hdown, While.run_of_not_cond _ hup]
  · rfl

end Ik

end FanucDriver
