import FanucDriver.Ik.Search
import Mathlib.Analysis.SpecialFunctions.Trigonometric.Basic

/-!
# There and back

* `Periodic`, `nearSolution_angles` — full turns do not change where the joints point.
* `jointAngles`, `ComputeIk.Sound` — the angles of a solution; `ComputeIk` gives solutions whose
  forward kinematics is near the pose.
* `getPositionIK_mem`, `searchPositionIK_mem`, `firstFit_mem` — what is found is a solution that
  obeys the limits.
* `reaches_m20ib25` — the answers of the plugin of the M-20iB/25 put the tool where it was asked to
  be.
* `reaches_lrmate200id` — those of the LR Mate 200iD do so at some poses only.
-/

set_option autoImplicit false

namespace FanucDriver

namespace Ik

open Frames

variable {K : Type} [Field K] [LinearOrder K]

/-- The cosine and sine of joint values, which come again after a full turn. -/
structure Periodic (M_PI : HalfTurn K) (angle : K → Angle K) : Prop where
  full : ∀ x, angle (x + M_PI.full) = angle x

theorem Periodic.nat {M_PI : HalfTurn K} {angle : K → Angle K} (h : Periodic M_PI angle) (x : K)
    (n : Nat) : angle (x + n * M_PI.full) = angle x := by
  induction n with
  | zero => rw [Nat.cast_zero, zero_mul, add_zero]
  | succ n ih =>
    rw [← ih, ← h.full (x + n * M_PI.full)]
    congr 1
    push_cast
    ring

theorem Periodic.int {M_PI : HalfTurn K} {angle : K → Angle K} (h : Periodic M_PI angle) (x : K)
    (k : Int) : angle (x + k * M_PI.full) = angle x := by
  cases k with
  | ofNat n =>
    rw [Int.ofNat_eq_natCast, Int.cast_natCast]
    exact h.nat x n
  | negSucc n =>
    rw [← h.nat (x + (Int.negSucc n : Int) * M_PI.full) (n + 1)]
    congr 1
    push_cast
    ring

/-- The angles of a solution. -/
def jointAngles (angle : K → Angle K) (sol : List K) : Fin 6 → Angle K :=
  fun i => angle (sol.getD i 0)

omit [LinearOrder K] in
theorem ofFn_jointAngles (angle : K → Angle K) {sol : List K} (h : sol.length = 6) :
    List.ofFn (jointAngles angle sol) = sol.map angle := by
  match sol, h with
  | [q1, q2, q3, q4, q5, q6], _ => simp [jointAngles, List.ofFn_succ]

/-- What `ComputeIk` returns for a rigid frame has a forward kinematics that is `near` it. -/
def ComputeIk.Sound (angle : K → Angle K) (near : Frame K → Frame K → Prop)
    (computeFk : (Fin 6 → Angle K) → Pose6D K) (computeIk : ComputeIk K 6) : Prop :=
  ∀ e : Pose6D K, e.frame.IsRigid → ∀ pfree,
    ∀ s ∈ computeIk.solutions e.eetrans (List.ofFn e.eerot) pfree,
      near e.frame (computeFk (jointAngles angle (rawSolution s))).frame

theorem rawSolutions_fk {angle : K → Angle K} {near : Frame K → Frame K → Prop}
    {computeFk : (Fin 6 → Angle K) → Pose6D K} {computeIk : ComputeIk K 6}
    (h : computeIk.Sound angle near computeFk) {p : Plugin K}
    (hp : p.solver = ⟨.transform6D, 6, [], computeIk⟩) {ikPose : Frame K}
    (hrigid : ikPose.IsRigid) {vfree r : List K} (hr : r ∈ rawSolutions p ikPose vfree) :
    near ikPose (computeFk (jointAngles angle r)).frame := by
  obtain ⟨s, hs, rfl⟩ := List.mem_map.mp hr
  rw [p.solve_transform6D (by rw [hp]), hp] at hs
  let mult := ikPose.M
  let e : Pose6D K := ⟨ikPose.p, ![mult 0 0, mult 0 1, mult 0 2, mult 1 0, mult 1 1, mult 1 2,
    mult 2 0, mult 2 1, mult 2 2]⟩
  have he : e.frame = ikPose := by
    ext i k
    · rfl
    · fin_cases i <;> fin_cases k <;> rfl
  rw [← he] at hrigid ⊢
  exact h e hrigid vfree s hs

variable [IsStrictOrderedRing K] [FloorRing K]

theorem nearSolution_angles {M_PI : HalfTurn K} {angle : K → Angle K} (h : Periodic M_PI angle)
    (limits : List (JointLimit K)) (seed r : List K) :
    (nearSolution M_PI limits seed r).map angle = r.map angle := by
  induction limits generalizing seed r with
  | nil => rfl
  | cons l limits ih =>
    match seed, r with
    | [], _ => rfl
    | _ :: _, [] => rfl
    | s :: seed, x :: r =>
      have hturn : angle (turn M_PI l s x) = angle x := by
        cases hlimits : l.hasLimits with
        | false => simp [turn, hlimits]
        | true =>
          obtain ⟨⟨k, hk⟩, -⟩ := turn_spec M_PI hlimits s x
          rw [hk, h.int]
      rw [nearSolution, List.map_cons, List.map_cons, hturn, ih]

/-- A solution that is the seed is not turned. -/
theorem nearSolution_self (M_PI : HalfTurn K) (limits : List (JointLimit K)) (seed : List K) :
    nearSolution M_PI limits seed seed = seed := by
  induction limits generalizing seed with
  | nil => rfl
  | cons l limits ih =>
    cases seed with
    | nil => rfl
    | cons q seed =>
      have hnear : |q - q| ≤ M_PI.1 := by
        rw [sub_self, abs_zero]
        exact M_PI.2.le
      rw [nearSolution, turn_of_near M_PI l hnear, ih]

/-- A kept solution has a forward kinematics near the pose. -/
theorem keptSolutions_fk {M_PI : HalfTurn K} {angle : K → Angle K} (h : Periodic M_PI angle)
    {near : Frame K → Frame K → Prop} {computeFk : (Fin 6 → Angle K) → Pose6D K}
    {computeIk : ComputeIk K 6} (hsound : computeIk.Sound angle near computeFk) {p : Plugin K}
    (hp : p.solver = ⟨.transform6D, 6, [], computeIk⟩) {ikPose : Frame K}
    (hrigid : ikPose.IsRigid) {seed vfree sol : List K}
    (hsol : sol ∈ keptSolutions M_PI p ikPose seed vfree) :
    sol.length = 6 ∧ near ikPose (computeFk (jointAngles angle sol)).frame := by
  have hsix : p.solver.numJoints = 6 := congrArg Solver.numJoints hp
  have hlen := (keptSolutions_length hsol).trans hsix
  obtain ⟨r, hr, rfl⟩ := List.mem_map.mp (List.mem_filter.mp hsol).1
  have hrlen := (rawSolutions_length hr).trans hsix
  have heq : jointAngles angle (nearSolution M_PI p.limits seed r) = jointAngles angle r := by
    apply List.ofFn_injective
    rw [ofFn_jointAngles angle hlen, ofFn_jointAngles angle hrlen, nearSolution_angles h]
  rw [heq]
  exact ⟨hlen, rawSolutions_fk hsound hp hrigid hr⟩

omit [IsStrictOrderedRing K] [FloorRing K] in
/-- A solution within the limits passes as a seed. -/
theorem seedInBounds_of_obeys {limits : List (JointLimit K)} {seed : List K}
    (h : obeysLimits LIMIT_TOLERANCE limits seed = true) (hlen : seed.length ≤ limits.length) :
    seedInBounds limits seed = some true := by
  induction limits generalizing seed with
  | nil =>
    rw [List.eq_nil_of_length_eq_zero (Nat.le_zero.mp hlen)]
    rfl
  | cons l limits ih =>
    cases seed with
    | nil => rfl
    | cons q seed =>
      simp only [obeysLimits, List.zip_cons_cons, List.all_cons, Bool.and_eq_true] at h
      rw [seedInBounds, if_pos h.1]
      exact ih h.2 (Nat.le_of_succ_le_succ hlen)

/-! ## What the queries answer with -/

omit [IsStrictOrderedRing K] [FloorRing K] in
theorem limitObeying_mem {seed : List K} {sols : List (List K)} {tagged : List (LimitObeyingSol K)}
    (h : limitObeying seed sols = some tagged) : ∀ s ∈ tagged, s.value ∈ sols := by
  induction sols generalizing tagged with
  | nil =>
    cases h
    intro s hs
    cases hs
  | cons sol sols ih =>
    rw [limitObeying, List.mapM_cons] at h
    simp only [Option.bind_eq_bind, Option.bind_eq_some_iff, Option.pure_def,
      Option.some.injEq] at h
    obtain ⟨first, hfirst, rest, hrest, rfl⟩ := h
    split at hfirst
    · cases hfirst
    · cases hfirst
      intro s hs
      rcases List.mem_cons.mp hs with rfl | hs
      · exact List.mem_cons_self
      · exact List.mem_cons_of_mem sol (ih hrest s hs)

theorem getPositionIK_mem {M_PI : HalfTurn K} {std : StdSort K} {p : Plugin K} {ikPose : Frame K}
    {seed solution : List K} {code : ErrorCode} {a : Answer K}
    (h : ClosestFit.getPositionIK M_PI std p ikPose seed solution code = some a)
    (hfound : a.found = true) :
    ∃ vfree, a.solution ∈ keptSolutions M_PI p ikPose seed vfree := by
  unfold ClosestFit.getPositionIK at h
  split at h
  · cases h
    cases hfound
  · split at h
    · cases h
      cases hfound
    · split at h
      · cases h
        cases hfound
      · rename_i vfree _ _
        split at h
        · cases h
        · rename_i sols hsols
          split at h
          · rename_i first hfirst
            cases h
            have hmem := (std.perm sols).mem_iff.mp (List.mem_of_mem_head? hfirst)
            exact ⟨vfree, limitObeying_mem hsols first hmem⟩
          · cases h
            cases hfound
      · cases h

omit [Field K] [LinearOrder K] [IsStrictOrderedRing K] [FloorRing K] in
theorem tryCallback_mem {cb : List K → ErrorCode} {solution : List K}
    {sols : List (LimitObeyingSol K)} {code : ErrorCode}
    (hfound : (ClosestFit.tryCallback cb solution sols code).found = true) :
    ∃ s ∈ sols, (ClosestFit.tryCallback cb solution sols code).solution = s.value := by
  have hspec := tryCallback_spec cb solution sols code
  split at hspec
  · rename_i s hfind
    rw [hspec]
    exact ⟨s, List.mem_of_find?_eq_some hfind, rfl⟩
  · obtain ⟨c, hc, -⟩ := hspec
    rw [hc] at hfound
    cases hfound

/-- All solutions, when no joint is redundant. -/
theorem getPositionIKs_solutions {M_PI : HalfTurn K} {p : Plugin K} {d : Discretization K}
    (hfree : p.solver.freeParameters = []) {ikPose : Frame K} {seed : List K}
    {error : KinematicError} {r : Answers K}
    (h : ClosestFit.getPositionIKs M_PI p d [ikPose] seed [] error = some r)
    (hfound : ¬ r.found = false) : r.solutions = keptSolutions M_PI p ikPose seed [] := by
  simp only [ClosestFit.getPositionIKs, ClosestFit.freeValues, hfree] at h
  split at h
  · cases h
    exact absurd rfl hfound
  · split at h
    · cases h
      exact absurd rfl hfound
    · cases h
      rw [(report_spec _ _).1]
      simp

theorem searchPositionIK_mem {M_PI : HalfTurn K} {std : StdSort K} {p : Plugin K}
    {d : Discretization K} (hfree : p.solver.freeParameters = []) {ikPose : Frame K}
    {seed consistencyLimits solution : List K} {callback : Option (List K → ErrorCode)}
    {code : ErrorCode} {a : Answer K}
    (h : ClosestFit.searchPositionIK M_PI std p d ikPose seed consistencyLimits callback solution
      code = some a) (hfound : a.found = true) :
    a.solution ∈ keptSolutions M_PI p ikPose seed [] := by
  simp only [ClosestFit.searchPositionIK, hfree] at h
  split at h
  · cases h
  · rename_i r hr
    split at h
    · cases h
      cases hfound
    · rename_i hrfound
      rw [getPositionIKs_solutions hfree hr hrfound] at h
      split at h
      · cases h
      · rename_i sols cb hlimit
        cases h
        obtain ⟨s, hs, heq⟩ := tryCallback_mem hfound
        rw [heq]
        exact limitObeying_mem hlimit s ((std.perm sols).mem_iff.mp hs)
      · rename_i sols hlimit
        split at h
        · rename_i first hfirst
          cases h
          exact limitObeying_mem hlimit first
            ((std.perm sols).mem_iff.mp (List.mem_of_mem_head? hfirst))
        · cases h

/-- **There and back**: an answer of the plugin of the M-20iB/25 is within the limits, the forward
kinematics of the plugin for it is where the description of the robot puts the tool, and this is as
near to the pose asked for as the solutions of the solver are. -/
theorem reaches_m20ib25 {M_PI : HalfTurn K} {angle : K → Angle K} (h : Periodic M_PI angle)
    {near : Frame K → Frame K → Prop} {computeIk : ComputeIk K 6}
    (hsound : computeIk.Sound angle near M20ib25.computeFk) {p : Plugin K}
    (hp : p.solver = M20ib25.solver computeIk) (std : StdSort K) (d : Discretization K)
    {ikPose : Frame K} (hrigid : ikPose.IsRigid) (seed consistencyLimits solution : List K)
    (callback : Option (List K → ErrorCode)) (code : ErrorCode) {a : Answer K}
    (ha : ClosestFit.getPositionIK M_PI std p ikPose seed solution code = some a ∨
      ClosestFit.searchPositionIK M_PI std p d ikPose seed consistencyLimits callback solution
        code = some a) (hfound : a.found = true) (tipFrame : String) :
    obeysLimits LIMIT_TOLERANCE p.limits a.solution = true ∧
      getPositionFK .transform6D (fun q => M20ib25.computeFk (jointAngles angle q)) tipFrame
        [tipFrame] a.solution =
          some (toolFrame M20ib25.joints tool0 (a.solution.map angle)) ∧
      near ikPose (toolFrame M20ib25.joints tool0 (a.solution.map angle)) := by
  have hkept : ∃ vfree, a.solution ∈ keptSolutions M_PI p ikPose seed vfree := by
    rcases ha with ha | ha
    · exact getPositionIK_mem ha hfound
    · have hfree : p.solver.freeParameters = [] := congrArg Solver.freeParameters hp
      exact ⟨[], searchPositionIK_mem hfree ha hfound⟩
  obtain ⟨vfree, hmem⟩ := hkept
  obtain ⟨hlen, hnear⟩ := keptSolutions_fk h hsound hp hrigid hmem
  have hframe : (M20ib25.computeFk (jointAngles angle a.solution)).frame =
      toolFrame M20ib25.joints tool0 (a.solution.map angle) := by
    rw [computeFk_m20ib25, ofFn_jointAngles angle hlen]
  rw [hframe] at hnear
  refine ⟨(List.mem_filter.mp hmem).2, ?_, hnear⟩
  rw [← hframe]
  simp [getPositionFK]

section Real

open Classical

/-- `M_PI`, cosine and sine. -/
noncomputable def pi : HalfTurn ℝ := ⟨Real.pi, Real.pi_pos⟩

noncomputable def cosSin (x : ℝ) : Angle ℝ := ⟨Real.cos x, Real.sin x, Real.cos_sq_add_sin_sq x⟩

theorem periodic_cosSin : Periodic pi cosSin where
  full x := by
    have hfull : pi.full = 2 * Real.pi := (two_mul Real.pi).symm
    simp only [cosSin, hfull, Real.cos_add_two_pi, Real.sin_add_two_pi]

/-- The joints of a pose with the wrist bent and the flange turned by one radian. -/
def bent : List ℝ := [0, 0, 0, 0, 1, 1]

section Bent

variable (computeFk : (Fin 6 → Angle ℝ) → Pose6D ℝ) (translation3D : Bool)

noncomputable def bentPose : Pose6D ℝ := computeFk (jointAngles cosSin bent)

/-- A solver that has one solution, for one pose. -/
noncomputable def bentIk : ComputeIk ℝ 6 where
  solutions eetrans eerot _ :=
    if eetrans = (bentPose computeFk).eetrans ∧ eerot = List.ofFn (bentPose computeFk).eerot then
      [plainSolution bent]
    else []
  dof t r f s hs := by
    split at hs
    · rw [List.mem_singleton.mp hs]
      rfl
    · cases hs

noncomputable def bentPlugin (limits : List (JointLimit ℝ)) (h : limits.length = 6) :
    Plugin ℝ where
  solver := ⟨.transform6D, 6, [], bentIk computeFk⟩
  translation3D := translation3D
  limits := limits
  limits_length := h
  active := true
  searchDiscretization := 1

theorem sound_bentIk : (bentIk computeFk).Sound cosSin Eq computeFk := by
  intro e _ pfree s hs
  simp only [bentIk] at hs
  split at hs
  · rename_i hpose
    have hrot := List.ofFn_injective hpose.2
    rw [List.mem_singleton.mp hs, rawSolution_plain, Pose6D.frame, hpose.1, hrot]
    rfl
  · cases hs

theorem bent_raw (limits : List (JointLimit ℝ)) (h : limits.length = 6) :
    rawSolutions (bentPlugin computeFk translation3D limits h) (bentPose computeFk).frame [] =
      [bent] := by
  have hsolve : (bentPlugin computeFk translation3D limits h).solve (bentPose computeFk).frame [] =
      [plainSolution bent] := by
    rw [Plugin.solve_transform6D rfl]
    simp only [solve, solveFor, bentPlugin, bentIk, List.mem_singleton, if_true]
    rw [if_pos]
    exact ⟨rfl, rfl⟩
  rw [rawSolutions, hsolve, List.map_singleton, rawSolution_plain]

theorem bent_answerable {limits : List (JointLimit ℝ)} (h : limits.length = 6)
    (hobeys : obeysLimits LIMIT_TOLERANCE limits bent = true) :
    Answerable (bentPlugin computeFk translation3D limits h) bent [] where
  active_eq := rfl
  seed_length := le_rfl
  inBounds := seedInBounds_of_obeys hobeys (le_of_eq h.symm)
  free_eq := rfl

theorem bent_kept {limits : List (JointLimit ℝ)} (h : limits.length = 6)
    (hobeys : obeysLimits LIMIT_TOLERANCE limits bent = true) :
    keptSolutions pi (bentPlugin computeFk translation3D limits h) (bentPose computeFk).frame bent
      [] ≠ [] := by
  refine List.ne_nil_of_mem (a := bent) (List.mem_filter.mpr ⟨?_, hobeys⟩)
  rw [turnedSolutions, bent_raw]
  exact List.mem_singleton.mpr (nearSolution_self pi limits bent).symm

end Bent

/-- A limit given in degrees. -/
noncomputable def radians (l : ℝ × ℝ) : JointLimit ℝ :=
  ⟨true, l.1 * Real.pi / 180, l.2 * Real.pi / 180⟩

/-- The limits of `m20ib25_macro.xacro`. -/
noncomputable def M20ib25.limits : List (JointLimit ℝ) :=
  [((-180, 180) : ℝ × ℝ), (-100, 140), (-149, 320), (-200, 200), (-145, 145), (-270, 270)].map
    radians

/-- The limits of `lrmate200id_macro.xacro`. -/
noncomputable def Lrmate200id.limits : List (JointLimit ℝ) :=
  [((-170, 170) : ℝ × ℝ), (-100, 145), (-70, 205), (-190, 190), (-125, 125), (-360, 360)].map
    radians

theorem M20ib25.limits_length : M20ib25.limits.length = 6 := rfl

theorem Lrmate200id.limits_length : Lrmate200id.limits.length = 6 := rfl

theorem radians_obeys {lower upper q : ℝ} (hlow : lower ≤ 0) (hq : 0 ≤ q) (hone : q ≤ 1)
    (hup : 90 ≤ upper) : (radians (lower, upper)).obeys LIMIT_TOLERANCE q = true := by
  have hpi := Real.two_le_pi
  have hlower : lower * Real.pi / 180 ≤ 0 := by nlinarith
  have hupper : 1 ≤ upper * Real.pi / 180 := by nlinarith
  simp only [radians, JointLimit.obeys, LIMIT_TOLERANCE, Bool.true_and, Bool.not_eq_true',
    Bool.or_eq_false_iff]
  constructor <;> norm_num <;> linarith

theorem bent_obeys_m20ib25 : obeysLimits LIMIT_TOLERANCE M20ib25.limits bent = true := by
  simp only [obeysLimits, M20ib25.limits, bent, List.map_cons, List.map_nil, List.zip_cons_cons,
    List.zip_nil_right, List.all_cons, List.all_nil, Bool.and_true, Bool.and_eq_true]
  refine ⟨?_, ?_, ?_, ?_, ?_, ?_⟩ <;> apply radians_obeys <;> norm_num

theorem bentPose_rigid : (bentPose M20ib25.computeFk).frame.IsRigid := by
  rw [bentPose, computeFk_m20ib25]
  exact (chain_isRigid _).mul tool0_isRigid

theorem reaches_m20ib25_bent :
    ∃ a, ClosestFit.getPositionIK pi StdSort.stable
        (bentPlugin M20ib25.computeFk true M20ib25.limits M20ib25.limits_length)
        (bentPose M20ib25.computeFk).frame bent [] .SUCCESS = some a ∧
      toolFrame M20ib25.joints tool0 (a.solution.map cosSin) =
        (bentPose M20ib25.computeFk).frame := by
  obtain ⟨a, ha, hclosest⟩ := (bent_answerable M20ib25.computeFk true M20ib25.limits_length
    bent_obeys_m20ib25).getPositionIK_closest pi StdSort.stable (bentPose M20ib25.computeFk).frame
      [] .SUCCESS
  exact ⟨a, ha, (reaches_m20ib25 periodic_cosSin (sound_bentIk _) rfl StdSort.stable
    ⟨.NO_DISCRETIZATION, fun _ => none, Rand.zero⟩ bentPose_rigid bent [] [] none .SUCCESS (.inl ha)
    (hclosest.found_iff.mpr (bent_kept _ true M20ib25.limits_length bent_obeys_m20ib25))
    "tool0").2.2.symm⟩

end Real

end Ik

end FanucDriver
