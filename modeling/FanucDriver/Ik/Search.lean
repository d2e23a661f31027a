import FanucDriver.Ik.Nearest

/-!
# The searches of the newer plugin

* `closestFit_search` — with a callback, and no redundant joint: the closest solution that the
  callback accepts.
* `closestFit_search_eq` — without a callback: the answer of `getPositionIK`.
* `closestFit_missed` — which configurations are missed, although they are within the limits.
* `getPositionIKs_covers` — all solutions, with the redundant joint sampled.
* `closestFit_search_redundant`, `closestFit_search_improves` — the search over a redundant joint,
  and how it compares with that of the LR Mate 200iB.
-/

set_option autoImplicit false

namespace FanucDriver

namespace Ik

open Frames

variable {K : Type} [Field K] [LinearOrder K]

omit [Field K] [LinearOrder K] in
/-- The first solution that the callback accepts, otherwise not a success. -/
theorem tryCallback_spec (cb : List K → ErrorCode) (solution : List K)
    (sols : List (LimitObeyingSol K)) (code : ErrorCode) :
    match sols.find? fun s => decide (cb s.value = .SUCCESS) with
    | some s => ClosestFit.tryCallback cb solution sols code = ⟨true, s.value, .SUCCESS⟩
    | none => ∃ c, ClosestFit.tryCallback cb solution sols code = ⟨false, solution, c⟩ ∧
        (sols ≠ [] → c ≠ .SUCCESS) := by
  induction sols generalizing code with
  | nil => exact ⟨code, rfl, fun h => absurd rfl h⟩
  | cons s sols ih =>
    rw [ClosestFit.tryCallback, List.find?_cons]
    by_cases hcb : cb s.value = .SUCCESS
    · simp [hcb]
    · have hrest := ih (cb s.value)
      simp only [hcb, decide_false, if_false]
      split
      · rename_i found hfind
        rw [hfind] at hrest
        exact hrest
      · rename_i hfind
        rw [hfind] at hrest
        obtain ⟨c, hc, hne⟩ := hrest
        refine ⟨c, hc, fun _ => ?_⟩
        cases sols with
        | nil =>
          cases hc
          exact hcb
        | cons s' sols => exact hne (List.cons_ne_nil _ _)

omit [Field K] [LinearOrder K] in
theorem report_spec (solutions sols : List (List K)) :
    (ClosestFit.report solutions sols).solutions = solutions ++ sols ∧
      ((ClosestFit.report solutions sols).found = true ↔ sols ≠ []) ∧
      (ClosestFit.report solutions sols).kinematicError =
        if (ClosestFit.report solutions sols).found then .OK else .NO_SOLUTION := by
  cases sols with
  | nil => simp [ClosestFit.report]
  | cons sol sols => simp [ClosestFit.report]

/-- A query that gets to the solutions when no joint is redundant. -/
structure Searchable (p : Plugin K) (seed : List K) : Prop where
  active_eq : p.active = true
  seed_length : seed.length = p.solver.numJoints
  free_eq : p.solver.freeParameters = []

variable [IsStrictOrderedRing K] [FloorRing K]

theorem Searchable.getPositionIKs_eq {p : Plugin K} {seed : List K} (h : Searchable p seed)
    (M_PI : HalfTurn K) (d : Discretization K) (ikPose : Frame K) :
    ClosestFit.getPositionIKs M_PI p d [ikPose] seed [] .OK =
      some (ClosestFit.report [] (keptSolutions M_PI p ikPose seed [])) := by
  simp only [ClosestFit.getPositionIKs, ClosestFit.freeValues, h.active_eq, h.seed_length,
    h.free_eq, Bool.true_eq_false, lt_irrefl, if_false, List.flatMap_cons, List.flatMap_nil,
    List.append_nil]

theorem Searchable.limitObeying_eq {p : Plugin K} {seed : List K} (h : Searchable p seed)
    (M_PI : HalfTurn K) (ikPose : Frame K) :
    limitObeying seed (keptSolutions M_PI p ikPose seed []) =
      some ((keptSolutions M_PI p ikPose seed []).map fun sol => ⟨sol, distance seed sol⟩) :=
  Ik.limitObeying_eq fun _ hsol => (h.seed_length.trans (keptSolutions_length hsol).symm).le

omit [IsStrictOrderedRing K] [FloorRing K] in
/-- The callback on the sorted solutions, of which there are some. -/
theorem tryCallback_isClosest (std : StdSort K) (seed : List K) {kept : List (List K)}
    (hne : kept ≠ []) (cb : List K → ErrorCode) (solution : List K) (code : ErrorCode) :
    IsClosest seed (kept.filter fun sol => decide (cb sol = .SUCCESS)) solution
        (ClosestFit.tryCallback cb solution
          (std.sort (kept.map fun sol => ⟨sol, distance seed sol⟩)) code) ∧
      ((ClosestFit.tryCallback cb solution
          (std.sort (kept.map fun sol => ⟨sol, distance seed sol⟩)) code).found = false →
        (ClosestFit.tryCallback cb solution
          (std.sort (kept.map fun sol => ⟨sol, distance seed sol⟩)) code).errorCode ≠ .SUCCESS) := by
  have hspec := tryCallback_spec cb solution
    (std.sort (kept.map fun sol => ⟨sol, distance seed sol⟩)) code
  revert hspec
  generalize ClosestFit.tryCallback cb solution _ code = a
  intro hspec
  cases hfind : (std.sort (kept.map fun sol => ⟨sol, distance seed sol⟩)).find?
      fun s => decide (cb s.value = .SUCCESS) with
  | some s =>
    rw [hfind] at hspec
    have hleast := std.find_least (p := fun q => decide (cb q = .SUCCESS)) hfind
    rw [hspec]
    refine ⟨⟨?_, fun _ => ⟨rfl, hleast⟩, fun hfalse => ?_⟩, fun hfalse => ?_⟩
    · exact ⟨fun _ => List.ne_nil_of_mem hleast.mem, fun _ => rfl⟩
    · cases hfalse
    · cases hfalse
  | none =>
    rw [hfind] at hspec
    obtain ⟨c, hc, hcode⟩ := hspec
    have hnil := std.find_none (p := fun q => decide (cb q = .SUCCESS)) hfind
    rw [hc]
    refine ⟨⟨?_, fun hfalse => ?_, fun _ => rfl⟩, fun _ => hcode ?_⟩
    · rw [hnil]
      simp
    · cases hfalse
    · intro hsorted
      have hperm := std.perm (kept.map fun sol => ⟨sol, distance seed sol⟩)
      rw [hsorted] at hperm
      exact hne (List.map_eq_nil_iff.mp hperm.nil_eq.symm)

/-- **The search with a callback** returns the closest solution that is accepted, and never reports
success without one. -/
theorem closestFit_search {p : Plugin K} {seed : List K} (h : Searchable p seed)
    (M_PI : HalfTurn K) (std : StdSort K) (d : Discretization K) (ikPose : Frame K)
    (consistencyLimits : List K) (cb : List K → ErrorCode) (solution : List K)
    (code : ErrorCode) :
    ∃ a, ClosestFit.searchPositionIK M_PI std p d ikPose seed consistencyLimits (some cb) solution
        code = some a ∧
      IsClosest seed ((keptSolutions M_PI p ikPose seed []).filter fun sol =>
        decide (cb sol = .SUCCESS)) solution a ∧
      (a.found = false → a.errorCode ≠ .SUCCESS) := by
  simp only [ClosestFit.searchPositionIK, h.free_eq, h.getPositionIKs_eq]
  have hlimit := h.limitObeying_eq M_PI ikPose
  revert hlimit
  generalize keptSolutions M_PI p ikPose seed [] = kept
  intro hlimit
  cases kept with
  | nil =>
    refine ⟨_, rfl, ⟨?_, ?_, fun _ => rfl⟩, fun _ hfalse => ?_⟩
    · simp
    · intro hfalse
      cases hfalse
    · cases hfalse
  | cons sol sols =>
    simp only [ClosestFit.report, List.isEmpty_cons, Bool.false_eq_true, Bool.true_eq_false,
      if_false, List.nil_append, hlimit]
    exact ⟨_, rfl, tryCallback_isClosest std seed (List.cons_ne_nil sol sols) cb solution code⟩

/-- Random numbers, a discretization of one and all values asked for. -/
def everyUnit : Discretization ℚ where
  method := .ALL_DISCRETIZED
  value i := if i = 0 then some 1 else none
  rand := .zero

/-- A callback that wants the second joint above ten degrees. -/
def raised (q : List ℚ) : ErrorCode := if 10 < q.getLastD 0 then .SUCCESS else .NO_IK_SOLUTION

theorem closestFit_search_crane :
    ∃ a, ClosestFit.searchPositionIK degrees StdSort.stable crane everyUnit 1 [0, 0] []
        (some raised) [] .SUCCESS = some a ∧
      IsClosest [0, 0] ((keptSolutions degrees crane 1 [0, 0] []).filter fun sol =>
        decide (raised sol = .SUCCESS)) [] a ∧
      (a.found = false → a.errorCode ≠ .SUCCESS) :=
  closestFit_search ⟨rfl, rfl, rfl⟩ degrees StdSort.stable everyUnit 1 [] raised [] .SUCCESS

/-- **The search without a callback** answers as `getPositionIK` does. -/
theorem closestFit_search_eq {p : Plugin K} {seed : List K} (h : Answerable p seed [])
    (hfree : p.solver.freeParameters = []) (M_PI : HalfTurn K) (std : StdSort K)
    (d : Discretization K) (ikPose : Frame K) (consistencyLimits solution : List K)
    (code : ErrorCode) :
    ClosestFit.searchPositionIK M_PI std p d ikPose seed consistencyLimits none solution code =
      ClosestFit.getPositionIK M_PI std p ikPose seed solution code := by
  have hs : Searchable p seed := ⟨h.active_eq, h.length_eq, hfree⟩
  have hlimit := hs.limitObeying_eq M_PI ikPose
  simp only [ClosestFit.searchPositionIK, ClosestFit.getPositionIK, hs.getPositionIKs_eq,
    h.active_eq, h.inBounds, h.free_eq, Bool.true_eq_false, not_lt.mpr h.seed_length, if_false]
  rw [hfree]
  revert hlimit
  generalize keptSolutions M_PI p ikPose seed [] = kept
  intro hlimit
  cases kept with
  | nil =>
    have hnil : std.sort [] = [] := List.perm_nil.mp (std.perm [])
    simp only [ClosestFit.report, List.isEmpty_nil, if_true, hlimit, List.map_nil, hnil,
      List.head?_nil]
  | cons sol sols =>
    simp only [ClosestFit.report, List.isEmpty_cons, Bool.false_eq_true, Bool.true_eq_false,
      if_false, List.nil_append, hlimit]
    cases hhead : (std.sort ((sol :: sols).map fun sol => ⟨sol, distance seed sol⟩)).head? with
    | some first => rfl
    | none => cases std.head_none hhead

theorem closestFit_search_eq_crane :
    ClosestFit.searchPositionIK degrees StdSort.stable crane everyUnit 1 [0, 0] [] none []
        .SUCCESS =
      ClosestFit.getPositionIK degrees StdSort.stable crane 1 [0, 0] [] .SUCCESS :=
  closestFit_search_eq crane_answerable rfl degrees StdSort.stable everyUnit 1 [] [] .SUCCESS

/-! ## Missed configurations -/

theorem missed_joint (M_PI : HalfTurn K) {limits : List (JointLimit K)} {seed r q : List K}
    (h : Variant M_PI limits r q) (hseed : seed.length = limits.length)
    (hbounds : seedInBounds limits seed = some true)
    (hout : obeysLimits LIMIT_TOLERANCE limits (nearSolution M_PI limits seed r) = false) :
    ∃ (i : Nat) (l : JointLimit K) (s y : K), limits[i]? = some l ∧ seed[i]? = some s ∧
      (nearSolution M_PI limits seed r)[i]? = some y ∧ l.obeys LIMIT_TOLERANCE y = false ∧
      |y - s| ≤ M_PI.1 := by
  induction limits generalizing seed r q with
  | nil => cases hout
  | cons l limits ih =>
    match r, q, h, seed, hseed with
    | x :: r, y :: q, ⟨hjoint, hrest⟩, s :: seed, hseed =>
      rw [seedInBounds] at hbounds
      split at hbounds
      · rename_i hs
        cases hturned : l.obeys LIMIT_TOLERANCE (turn M_PI l s x) with
        | false => exact ⟨0, l, s, _, rfl, rfl, rfl, hturned, turn_missed M_PI hs hjoint hturned⟩
        | true =>
          rw [nearSolution, obeysLimits, List.zip_cons_cons, List.all_cons, hturned,
            Bool.true_and] at hout
          obtain ⟨i, hi⟩ := ih hrest (Nat.succ.inj hseed) hbounds hout
          exact ⟨i + 1, hi⟩
      · cases hbounds

/-- **What is missed**: where the pose has a solution with a variant within the limits and nothing
is found, the value of some joint at most half a turn from the seed is out of its limits. -/
theorem closestFit_missed {p : Plugin K} {seed vfree : List K} (h : Answerable p seed vfree)
    {M_PI : HalfTurn K} {std : StdSort K} {ikPose : Frame K} {solution : List K}
    {code : ErrorCode} {a : Answer K}
    (ha : ClosestFit.getPositionIK M_PI std p ikPose seed solution code = some a)
    (hfail : a.found = false) {r q : List K} (hr : r ∈ rawSolutions p ikPose vfree)
    (hq : Variant M_PI p.limits r q) :
    ∃ (i : Nat) (l : JointLimit K) (s y : K), p.limits[i]? = some l ∧ seed[i]? = some s ∧
      (nearSolution M_PI p.limits seed r)[i]? = some y ∧ l.obeys LIMIT_TOLERANCE y = false ∧
      |y - s| ≤ M_PI.1 := by
  obtain ⟨b, hb, hclosest⟩ := h.getPositionIK_closest M_PI std ikPose solution code
  rw [hb] at ha
  cases ha
  refine missed_joint M_PI hq (h.length_eq.trans p.limits_length.symm) h.inBounds ?_
  cases hobeys : obeysLimits LIMIT_TOLERANCE p.limits (nearSolution M_PI p.limits seed r) with
  | false => rfl
  | true =>
    have hfound := hclosest.found_iff.mpr (List.ne_nil_of_mem (mem_keptSolutions hr hobeys))
    rw [hfail] at hfound
    cases hfound

/-- A robot with one joint, in degrees, for which the solver has one solution. -/
def pivot (x : ℚ) : Plugin ℚ where
  solver := plainSolver 1 [] (fun _ => [[x]]) (by simp)
  translation3D := true
  limits := [⟨true, -149, 320⟩]
  limits_length := rfl
  active := true
  searchDiscretization := 1

theorem pivot_answerable (x : ℚ) : Answerable (pivot x) [0] [] where
  active_eq := rfl
  seed_length := le_rfl
  inBounds := by
    norm_num [seedInBounds, JointLimit.obeys, LIMIT_TOLERANCE, pivot]
  free_eq := rfl

theorem pivot_raw (x : ℚ) : rawSolutions (pivot x) 1 [] = [[x]] := by
  rw [plain_raw rfl fun _ _ _ => rfl]

/-- From the seed, the value -170 is near, but below the limit; the one a full turn above it is
within. -/
theorem closestFit_missed_pivot :
    ∃ (i : Nat) (l : JointLimit ℚ) (s y : ℚ), (pivot (-170)).limits[i]? = some l ∧
      [(0 : ℚ)][i]? = some s ∧
      (nearSolution degrees (pivot (-170)).limits [0] [-170])[i]? = some y ∧
      l.obeys LIMIT_TOLERANCE y = false ∧ |y - s| ≤ degrees.1 := by
  obtain ⟨a, ha, hclosest⟩ := (pivot_answerable (-170)).getPositionIK_closest degrees
    StdSort.stable 1 [] .SUCCESS
  have hturn : turn degrees ⟨true, -149, 320⟩ 0 (-170) = -170 :=
    turn_of_near degrees _ (by norm_num [degrees, abs_le])
  have hkept : keptSolutions degrees (pivot (-170)) 1 [0] [] = [] := by
    rw [keptSolutions, turnedSolutions, pivot_raw]
    norm_num [nearSolution, pivot, hturn, obeysLimits, JointLimit.obeys, LIMIT_TOLERANCE]
  have hfail : a.found = false := by
    rw [Bool.eq_false_iff]
    intro hfound
    exact hclosest.found_iff.mp hfound hkept
  refine closestFit_missed (pivot_answerable (-170)) ha hfail (q := [190]) (by simp [pivot_raw]) ?_
  norm_num [Variant, pivot, LIMIT_TOLERANCE, HalfTurn.full, degrees]
  exact ⟨1, by norm_num⟩

/-! ## All solutions -/

/-- A query for all solutions of a plugin with one redundant joint, to be sampled. -/
structure SampledQuery (p : Plugin K) (d : Discretization K) (seed : List K) (free : Nat)
    (limit : JointLimit K) (initialGuess step : K) : Prop where
  free_eq : p.solver.freeParameters = [free]
  active_eq : p.active = true
  seed_length : p.solver.numJoints ≤ seed.length
  limit_eq : p.limits[free]? = some limit
  limit_le : limit.min ≤ limit.max
  guess_eq : seed[free]? = some initialGuess
  method_eq : d.method = .ALL_DISCRETIZED
  step_eq : d.value free = some step
  step_pos : 0 < step

/-- **All solutions**: those for the seed and for values that cover the range of the redundant
joint, after those that were there. -/
theorem getPositionIKs_covers {p : Plugin K} {d : Discretization K} {seed : List K} {free : Nat}
    {limit : JointLimit K} {initialGuess step : K}
    (h : SampledQuery p d seed free limit initialGuess step) (M_PI : HalfTurn K)
    {range : K × K}
    (hrange : range = if limit.hasLimits then (limit.min, limit.max) else (-M_PI.1, M_PI.1))
    (hsteps : ⌈(range.2 - range.1) / step⌉ < 2 ^ 31) (ikPose : Frame K)
    (solutions : List (List K)) (error : KinematicError) :
    ∃ r vals, ClosestFit.getPositionIKs M_PI p d [ikPose] seed solutions error = some r ∧
      Covers range step vals ∧
      r.solutions = solutions ++
        (initialGuess :: vals).flatMap (fun v => keptSolutions M_PI p ikPose seed [v]) ∧
      (r.found = true ↔ ∃ v ∈ initialGuess :: vals, keptSolutions M_PI p ikPose seed [v] ≠ []) ∧
      r.kinematicError = if r.found then .OK else .NO_SOLUTION := by
  rw [← sampleRange] at hrange
  subst hrange
  have hle := sampleRange_le M_PI h.limit_le
  have hvalues : ClosestFit.freeValues M_PI p d seed = some (.ok
      ((initialGuess :: discretized (sampleRange M_PI limit) step).map fun v => [v])) := by
    simp only [ClosestFit.freeValues, h.free_eq, h.guess_eq, h.limit_eq, h.method_eq, h.step_eq,
      sampleRedundantJoint, reduceCtorEq, false_and, if_false, List.singleton_append]
  have hflat : ((initialGuess :: discretized (sampleRange M_PI limit) step).map
      fun v => [v]).flatMap (keptSolutions M_PI p ikPose seed) =
      (initialGuess :: discretized (sampleRange M_PI limit) step).flatMap
        fun v => keptSolutions M_PI p ikPose seed [v] := List.flatMap_map ..
  obtain ⟨hsols, hfound, herror⟩ := report_spec solutions
    ((initialGuess :: discretized (sampleRange M_PI limit) step).flatMap
      fun v => keptSolutions M_PI p ikPose seed [v])
  refine ⟨_, discretized (sampleRange M_PI limit) step, ?_,
    discretized_covers hle h.step_pos hsteps, hsols, ?_, herror⟩
  · simp only [ClosestFit.getPositionIKs, h.active_eq, Bool.true_eq_false,
      not_lt.mpr h.seed_length, if_false, hvalues, hflat]
  · rw [hfound, Ne, List.flatMap_eq_nil_iff]
    push Not
    rfl

theorem slide_sampled : SampledQuery slide everyUnit [0, 0] 0 ⟨true, -1, 1⟩ 0 1 where
  free_eq := rfl
  active_eq := rfl
  seed_length := le_rfl
  limit_eq := rfl
  limit_le := by norm_num
  guess_eq := rfl
  method_eq := rfl
  step_eq := rfl
  step_pos := one_pos

theorem getPositionIKs_covers_slide :
    ∃ r vals, ClosestFit.getPositionIKs degrees slide everyUnit [1] [0, 0] [] .OK = some r ∧
      Covers (-1, 1) 1 vals ∧
      r.solutions = [] ++ (0 :: vals).flatMap (fun v => keptSolutions degrees slide 1 [0, 0] [v]) ∧
      (r.found = true ↔ ∃ v ∈ 0 :: vals, keptSolutions degrees slide 1 [0, 0] [v] ≠ []) ∧
      r.kinematicError = if r.found then .OK else .NO_SOLUTION :=
  getPositionIKs_covers slide_sampled degrees rfl (by norm_num) 1 [] .OK

/-! ## The search over a redundant joint -/

omit [FloorRing K] in
theorem obeysLimits_tolerance {limits : List (JointLimit K)} {q : List K}
    (h : obeysLimits 0 limits q = true) : obeysLimits LIMIT_TOLERANCE limits q = true := by
  have htol : (0 : K) ≤ LIMIT_TOLERANCE := by norm_num [LIMIT_TOLERANCE]
  rw [obeysLimits, List.all_eq_true] at h ⊢
  intro x hx
  have hjoint := h x hx
  simp only [JointLimit.obeys, Bool.not_eq_true', Bool.and_eq_false_iff, Bool.or_eq_false_iff,
    decide_eq_false_iff_not, not_lt] at hjoint ⊢
  exact hjoint.imp_right fun hwithin => ⟨by linarith, by linarith⟩

omit [IsStrictOrderedRing K] [FloorRing K] in
/-- Without a callback, what is within the limits is accepted. -/
theorem accepted_none (limits : List (JointLimit K)) (q : List K) :
    accepted limits none q = obeysLimits 0 limits q := by
  simp [accepted, verdict]

/-- A robot with a redundant joint and, in degrees, one for which the solver has one value. -/
def elbow (x : ℚ) : Plugin ℚ where
  solver := plainSolver 2 [0] (fun pfree => [[pfree.headD 0, x]]) (by simp)
  translation3D := true
  limits := [⟨true, -1, 1⟩, ⟨true, -149, 320⟩]
  limits_length := rfl
  active := true
  searchDiscretization := 1

theorem elbow_redundant (x s : ℚ) : Redundant (elbow x) [0, s] [] 0 ⟨true, -1, 1⟩ 0 where
  free_eq := rfl
  active_eq := rfl
  seed_length := rfl
  consistency := .inl rfl
  limit_eq := rfl
  guess_eq := rfl
  le_max := by decide
  min_le := by decide
  step_pos := one_pos

theorem elbow_raw (x q : ℚ) : rawSolutions (elbow x) 1 [q] = [[q, x]] := by
  rw [plain_raw rfl fun _ _ _ => rfl]
  rfl

/-- **Where the newer search is behind**: it does as well as that of the LR Mate 200iB, unless full
turns take the solution found there out of the limits by no more than the tolerance. -/
theorem closestFit_search_improves {p : Plugin K} {seed consistencyLimits : List K} {free : Nat}
    {limit : JointLimit K} {initialGuess : K}
    (h : Redundant p seed consistencyLimits free limit initialGuess) (M_PI : HalfTurn K)
    (std : StdSort K) (d : Discretization K) {ikPose : Frame K} {solution : List K}
    {code : ErrorCode} {a : Answer K}
    (ha : BestFit.searchPositionIK p ikPose seed consistencyLimits none solution code = some a)
    (hfound : a.found = true) :
    ∃ b, ClosestFit.searchPositionIK M_PI std p d ikPose seed consistencyLimits none solution
        code = some b ∧
      (b.found = true ∧ b.errorCode = .SUCCESS ∧
          maxMotion seed b.solution ≤ maxMotion seed a.solution ∨
        ∃ q, Turned M_PI p.limits a.solution q ∧ Nearer seed q a.solution ∧
          obeysLimits 0 p.limits q = false) := by
  obtain ⟨a', ha', hraw⟩ := h.searchRedundant_isBest (fun x => rawSolutions p ikPose [x]) none
    solution
  simp only [BestFit.searchPositionIK, h.free_eq, ha', Option.some.injEq] at ha
  subst ha
  obtain ⟨n, hn, hr, hacc⟩ := hraw.cand hfound
  rw [accepted_none] at hacc
  obtain ⟨b, hb, hbest⟩ := h.searchRedundant_isBest
    (fun x => turnedSolutions M_PI p ikPose seed [x]) none solution
  refine ⟨b, ?_, ?_⟩
  · simp only [ClosestFit.searchPositionIK, h.free_eq]
    exact hb
  cases hobeys : obeysLimits 0 p.limits (nearSolution M_PI p.limits seed a'.solution) with
  | false =>
    refine .inr ⟨_, ?_, nearSolution_nearer M_PI p.limits seed a'.solution, hobeys⟩
    exact nearSolution_turned M_PI (h.seed_length.trans p.limits_length.symm)
      ((rawSolutions_length hr).trans p.limits_length.symm)
      (nearSolution_obeys M_PI seed (obeysLimits_tolerance hacc))
  | true =>
    have hcand : Candidate p (fun x => turnedSolutions M_PI p ikPose seed [x]) none
        (window limit initialGuess consistencyLimits[free]?) initialGuess
        (nearSolution M_PI p.limits seed a'.solution) :=
      ⟨n, hn, List.mem_map.mpr ⟨_, hr, rfl⟩, by rw [accepted_none]; exact hobeys⟩
    have hbfound := hbest.found_iff.mpr ⟨_, hcand⟩
    refine .inl ⟨hbfound, ?_, (hbest.least hbfound _ hcand).trans
      (nearSolution_nearer M_PI p.limits seed _).maxMotion_le⟩
    rw [hbest.code, hbfound]
    rfl

/-- Just above -40 degrees, where a full turn brings the elbow just above its limit. -/
def aboveLimit : ℚ := -40 + LIMIT_TOLERANCE / 2

/-- From 200 degrees, a full turn brings the value just above the limit. -/
theorem elbow_turn :
    turn degrees ⟨true, -149, 320⟩ 200 aboveLimit = 320 + LIMIT_TOLERANCE / 2 := by
  have hlimits : (⟨true, -149, 320⟩ : JointLimit ℚ).hasLimits = true := rfl
  have hturn := turn_eq degrees hlimits 200 aboveLimit 1
    (by norm_num [aboveLimit, HalfTurn.full, degrees, LIMIT_TOLERANCE])
    (by norm_num [aboveLimit, HalfTurn.full, degrees, LIMIT_TOLERANCE])
    (by norm_num [aboveLimit, HalfTurn.full, degrees, LIMIT_TOLERANCE, abs_lt])
  rw [hturn]
  norm_num [aboveLimit, HalfTurn.full, degrees]
  ring

theorem elbow_found :
    ∃ a, BestFit.searchPositionIK (elbow aboveLimit) 1 [0, 200] [] none [] .SUCCESS = some a ∧
      a.found = true := by
  obtain ⟨a, ha, hbest⟩ := (elbow_redundant aboveLimit 200).searchRedundant_isBest
    (fun x => rawSolutions (elbow aboveLimit) 1 [x]) none []
  refine ⟨a, ha, hbest.found_iff.mpr ⟨[0, aboveLimit], 0, ?_, ?_, ?_⟩⟩
  · norm_num [window, elbow]
  · dsimp only
    rw [elbow_raw]
    simp
  · rw [accepted_none]
    norm_num [obeysLimits, elbow, JointLimit.obeys, aboveLimit, LIMIT_TOLERANCE]

theorem elbow_missed {b : Answer ℚ}
    (hb : ClosestFit.searchPositionIK degrees StdSort.stable (elbow aboveLimit) everyUnit 1 [0, 200]
      [] none [] .SUCCESS = some b) : b.found = false := by
  obtain ⟨c, hc, hbest⟩ := (elbow_redundant aboveLimit 200).searchRedundant_isBest
    (fun x => turnedSolutions degrees (elbow aboveLimit) 1 [0, 200] [x]) none []
  have hsame : some c = some b := hc.symm.trans hb
  cases hsame
  rw [Bool.eq_false_iff]
  intro h
  obtain ⟨n, -, hq, hacc⟩ := hbest.cand h
  simp only [turnedSolutions, elbow_raw, List.map_singleton, List.mem_singleton] at hq
  rw [accepted_none, hq] at hacc
  simp only [elbow, nearSolution, elbow_turn] at hacc
  norm_num [obeysLimits, JointLimit.obeys, LIMIT_TOLERANCE] at hacc

theorem closestFit_search_improves_elbow :
    ∃ a b, BestFit.searchPositionIK (elbow aboveLimit) 1 [0, 200] [] none [] .SUCCESS = some a ∧
      a.found = true ∧
      ClosestFit.searchPositionIK degrees StdSort.stable (elbow aboveLimit) everyUnit 1 [0, 200] []
        none [] .SUCCESS = some b ∧ b.found = false ∧
      ∃ q, Turned degrees (elbow aboveLimit).limits a.solution q ∧ Nearer [0, 200] q a.solution ∧
        obeysLimits 0 (elbow aboveLimit).limits q = false := by
  obtain ⟨a, ha, hfound⟩ := elbow_found
  obtain ⟨b, hb, hbetter | hmissed⟩ := closestFit_search_improves (elbow_redundant aboveLimit 200)
    degrees StdSort.stable everyUnit ha hfound
  · have hnone := elbow_missed hb
    rw [hbetter.1] at hnone
    cases hnone
  · exact ⟨a, b, ha, hfound, hb, elbow_missed hb, hmissed⟩

end Ik

end FanucDriver
