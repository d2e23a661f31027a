import FanucDriver.Ik.Turns
import Mathlib.Data.Rat.Floor

/-!
# Sampling the redundant joint

* `setSearchDiscretization` — what a call makes of `redundant_joint_discretization_`.
* `sampleRedundantJoint` — the values for which solutions are asked.
* `Ready`, `run_ready` — after any calls the redundant joint has a positive discretization.
* `Covers`, `sampled_covers` — the values cover the range of the joint.
-/

set_option autoImplicit false

namespace FanucDriver

namespace Ik

variable {K : Type} [Field K] [LinearOrder K]

/-- `kinematics::DiscretizationMethod` -/
inductive DiscretizationMethod where
  | NO_DISCRETIZATION
  | ALL_DISCRETIZED
  | SOME_DISCRETIZED
  | ALL_RANDOM_SAMPLED
  | SOME_RANDOM_SAMPLED
  deriving DecidableEq, Repr

/-- `std::rand` -/
structure Rand where
  RAND_MAX : Nat
  draw : Nat → Nat
  pos : 0 < RAND_MAX
  draw_le : ∀ i, draw i ≤ RAND_MAX

/-- A generator that always draws zero. -/
def Rand.zero : Rand := ⟨32767, fun _ => 0, by decide, by simp⟩

/-- `setSearchDiscretization`, the argument in the order of its keys; `indices` is
`redundant_joint_indices_`. -/
def setSearchDiscretization (indices : List Nat) (current : Nat → Option K)
    (discretization : List (Int × K)) : Nat → Option K :=
  match discretization, indices with
  | (index, value) :: _, free :: _ =>
    if index ≠ free then current
    else if value ≤ 0 then current
    else fun i => if i = free then some value else none
  | _, _ => current

/-- `joint_min` and `joint_max` -/
def sampleRange (M_PI : HalfTurn K) (limit : JointLimit K) : K × K :=
  if limit.hasLimits then (limit.min, limit.max) else (-M_PI, M_PI)

variable [FloorRing K]

/-- The values of `ALL_DISCRETIZED`; the counter of the loop is an `unsigned int`. -/
def discretized (range : K × K) (dscrt : K) : List K :=
  let steps := ⌈(range.2 - range.1) / dscrt⌉ % 2 ^ 32
  (List.range steps.toNat).map (fun i : Nat => range.1 + dscrt * i) ++ [range.2]

/-- The values of `ALL_RANDOM_SAMPLED`. -/
def randomSampled (rand : Rand) (range : K × K) (dscrt : K) : List K :=
  let steps := ⌈(range.2 - range.1) / dscrt⌉
  let steps := if steps > 0 then steps else 1
  let diff := range.2 - range.1
  (List.range steps.toNat).map fun i : Nat =>
    diff * rand.draw i / rand.RAND_MAX + range.1

/-- `sampleRedundantJoint`: the result and `sampled_joint_vals`; `none` where `front` or `at`
has nothing to return. -/
def sampleRedundantJoint (M_PI : HalfTurn K) (rand : Rand) (limits : List (JointLimit K))
    (indices : List Nat) (discretization : Nat → Option K) (method : DiscretizationMethod)
    (sampledJointVals : List K) : Option (Bool × List K) :=
  match indices with
  | [] => none
  | index :: _ =>
    match discretization index, limits[index]? with
    | some dscrt, some limit =>
      let range := sampleRange M_PI limit
      match method with
      | .ALL_DISCRETIZED => some (true, sampledJointVals ++ discretized range dscrt)
      | .ALL_RANDOM_SAMPLED => some (true, sampledJointVals ++ randomSampled rand range dscrt)
      | .NO_DISCRETIZATION => some (true, sampledJointVals)
      | _ => some (false, sampledJointVals)
    | _, _ => none

/-! ## The discretization -/

omit [FloorRing K]

/-- The redundant joint, and no other, has a positive discretization. -/
structure Ready (free : Nat) (discretization : Nat → Option K) : Prop where
  pos : ∃ d, 0 < d ∧ discretization free = some d
  only : ∀ i, i ≠ free → discretization i = none

theorem setSearchDiscretization_ready {free : Nat} {current : Nat → Option K}
    (h : Ready free current) (discretization : List (Int × K)) :
    Ready free (setSearchDiscretization [free] current discretization) := by
  rcases discretization with _ | ⟨⟨index, value⟩, rest⟩
  · exact h
  · unfold setSearchDiscretization
    simp only
    split
    · exact h
    · split
      · exact h
      · rename_i hvalue
        refine ⟨⟨value, not_le.mp hvalue, if_pos rfl⟩, ?_⟩
        intro i hi
        exact if_neg hi

theorem run_ready {free : Nat} {start : Nat → Option K} (h : Ready free start)
    (calls : List (List (Int × K))) :
    Ready free (calls.foldl (setSearchDiscretization [free]) start) := by
  induction calls generalizing start with
  | nil => exact h
  | cons call calls ih => exact ih (setSearchDiscretization_ready h call)

/-! ## The values -/

variable [IsStrictOrderedRing K]

theorem randomSampled_within [FloorRing K] (rand : Rand) {range : K × K}
    (hrange : range.1 ≤ range.2) (dscrt : K) :
    ∀ v ∈ randomSampled rand range dscrt, range.1 ≤ v ∧ v ≤ range.2 := by
  intro v hv
  obtain ⟨i, -, rfl⟩ := List.mem_map.mp hv
  have hmax : (0 : K) < rand.RAND_MAX := Nat.cast_pos.mpr rand.pos
  have hdiff : 0 ≤ range.2 - range.1 := sub_nonneg.mpr hrange
  have hdraw : (rand.draw i : K) ≤ rand.RAND_MAX := Nat.cast_le.mpr (rand.draw_le i)
  have hle : (range.2 - range.1) * rand.draw i / rand.RAND_MAX ≤ range.2 - range.1 := by
    rw [div_le_iff₀ hmax]
    exact mul_le_mul_of_nonneg_left hdraw hdiff
  have hnonneg : 0 ≤ (range.2 - range.1) * rand.draw i / rand.RAND_MAX :=
    div_nonneg (mul_nonneg hdiff (Nat.cast_nonneg _)) hmax.le
  constructor <;> linarith

/-- All values are within the range, and each point of the range is less than a step above one. -/
structure Covers (range : K × K) (dscrt : K) (vals : List K) : Prop where
  within : ∀ v ∈ vals, range.1 ≤ v ∧ v ≤ range.2
  last : vals.getLast? = some range.2
  near : ∀ x, range.1 ≤ x → x ≤ range.2 → ∃ v ∈ vals, v ≤ x ∧ x < v + dscrt

theorem sampleRange_le (M_PI : HalfTurn K) {limit : JointLimit K} (h : limit.min ≤ limit.max) :
    (sampleRange M_PI limit).1 ≤ (sampleRange M_PI limit).2 := by
  unfold sampleRange
  split
  · exact h
  · have := M_PI.2
    simp only
    linarith

variable [FloorRing K]

theorem discretized_covers {range : K × K} (hrange : range.1 ≤ range.2) {dscrt : K}
    (hdscrt : 0 < dscrt) (hsteps : ⌈(range.2 - range.1) / dscrt⌉ < 2 ^ 31) :
    Covers range dscrt (discretized range dscrt) := by
  have hnonneg : 0 ≤ ⌈(range.2 - range.1) / dscrt⌉ :=
    Int.ceil_nonneg (div_nonneg (sub_nonneg.mpr hrange) hdscrt.le)
  have hmod : ⌈(range.2 - range.1) / dscrt⌉ % 2 ^ 32 = ⌈(range.2 - range.1) / dscrt⌉ := by omega
  have hmem : ∀ v, v ∈ discretized range dscrt ↔
      (∃ i : Nat, (i : Int) < ⌈(range.2 - range.1) / dscrt⌉ ∧ v = range.1 + dscrt * i) ∨
        v = range.2 := by
    intro v
    rw [discretized, hmod, List.mem_append, List.mem_map, List.mem_singleton]
    simp only [List.mem_range, Int.lt_toNat, eq_comm]
  refine ⟨?_, List.getLast?_concat, ?_⟩
  · intro v hv
    rcases (hmem v).mp hv with ⟨i, hi, rfl⟩ | rfl
    · rw [Int.lt_ceil, lt_div_iff₀ hdscrt, Int.cast_natCast] at hi
      have := mul_nonneg hdscrt.le (Nat.cast_nonneg (α := K) i)
      constructor <;> linarith
    · exact ⟨hrange, le_rfl⟩
  · intro x hlow hup
    rcases hup.lt_or_eq with hlt | rfl
    · -- the step that x is in
      have hfloor : 0 ≤ ⌊(x - range.1) / dscrt⌋ :=
        Int.floor_nonneg.mpr (div_nonneg (sub_nonneg.mpr hlow) hdscrt.le)
      obtain ⟨i, hi⟩ := Int.eq_ofNat_of_zero_le hfloor
      have hle : (i : K) * dscrt ≤ x - range.1 := by
        rw [← le_div_iff₀ hdscrt, ← Int.cast_natCast, ← Int.le_floor, hi]
      have hgt : x - range.1 < (i + 1) * dscrt := by
        rw [← div_lt_iff₀ hdscrt]
        have := Int.lt_floor_add_one ((x - range.1) / dscrt)
        rwa [hi, Int.cast_natCast] at this
      refine ⟨range.1 + dscrt * i, (hmem _).mpr (.inl ⟨i, ?_, rfl⟩), ?_, ?_⟩
      · rw [Int.lt_ceil, lt_div_iff₀ hdscrt, Int.cast_natCast]
        linarith
      · linarith
      · linarith
    · exact ⟨range.2, (hmem _).mpr (.inr rfl), le_rfl, by linarith⟩

/-- What sampling adds to the values, at a discretization of `d`. -/
structure Sampled (M_PI : HalfTurn K) (rand : Rand) (limits : List (JointLimit K)) (free : Nat)
    (discretization : Nat → Option K) (range : K × K) (vals : List K) (d : K) : Prop where
  pos : 0 < d
  value : discretization free = some d
  discretized : ⌈(range.2 - range.1) / d⌉ < 2 ^ 31 →
    ∃ s, sampleRedundantJoint M_PI rand limits [free] discretization .ALL_DISCRETIZED vals =
        some (true, vals ++ s) ∧
      Covers range d s
  random : ∃ s, sampleRedundantJoint M_PI rand limits [free] discretization .ALL_RANDOM_SAMPLED
        vals = some (true, vals ++ s) ∧
      ∀ v ∈ s, range.1 ≤ v ∧ v ≤ range.2

/-- **The redundant joint is sampled over its whole range**, after any calls of
`setSearchDiscretization`. -/
theorem sampled_covers (M_PI : HalfTurn K) (rand : Rand) {limits : List (JointLimit K)}
    {free : Nat} (limit : JointLimit K) (hlimit : limits[free]? = some limit)
    (hrange : limit.min ≤ limit.max) {start : Nat → Option K} (hstart : Ready free start)
    (calls : List (List (Int × K))) (vals : List K) :
    ∃ d, Sampled M_PI rand limits free (calls.foldl (setSearchDiscretization [free]) start)
      (if limit.hasLimits then (limit.min, limit.max) else (-M_PI.1, M_PI.1)) vals d := by
  obtain ⟨d, hd, hdisc⟩ := (run_ready hstart calls).pos
  have hle := sampleRange_le M_PI hrange
  rw [← sampleRange]
  refine ⟨d, hd, hdisc, ?_, randomSampled rand (sampleRange M_PI limit) d, ?_, ?_⟩
  · intro hsteps
    refine ⟨discretized (sampleRange M_PI limit) d, ?_, discretized_covers hle hd hsteps⟩
    simp only [sampleRedundantJoint, hdisc, hlimit]
  · simp only [sampleRedundantJoint, hdisc, hlimit]
  · exact randomSampled_within rand hle d

theorem sampled_covers_finer :
    ∃ d, Sampled degrees .zero [⟨true, -1, 1⟩] 0
      ([[(0, (0.5 : ℚ))]].foldl (setSearchDiscretization [0])
        fun i => if i = 0 then some 1 else none) (-1, 1) [] d := by
  have hstart : Ready 0 fun i => if i = 0 then some (1 : ℚ) else none :=
    ⟨⟨1, one_pos, rfl⟩, fun _ hi => if_neg hi⟩
  exact sampled_covers _ _ ⟨true, -1, 1⟩ rfl (by norm_num) hstart _ _

end Ik

end FanucDriver
