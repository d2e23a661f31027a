import FanucDriver.Ik.Grid
import FanucDriver.Ik.Turns

/-!
# The first solution within the limits

The plugin of most robots (`fanuc_m10ia_manipulator_ikfast_moveit_plugin.cpp` and nine others with
the same text; two more have the other `solve`).

* `Answer` — what a query returns and leaves in `solution` and `error_code`.
* `FirstFit.getPositionIK` — the first solution within the limits; reading past the end of a
  vector is `none`.
* `FirstFit.tryAll`, `FirstFit.searchLoop`, `FirstFit.searchPositionIK` — the search over a
  redundant joint.
* `IsFirst`, `searchLoop_isFirst` — the search finds the first accepted candidate, in the order in
  which the values of the redundant joint are tried.
-/

set_option autoImplicit false

namespace FanucDriver

namespace Ik

open Frames

variable {K : Type} [Field K] [LinearOrder K]

/-- The value returned, `solution` and `error_code`. -/
structure Answer (K : Type) where
  found : Bool
  solution : List K
  errorCode : ErrorCode
  deriving DecidableEq, Repr

/-- The check of one joint; the searches make it without a tolerance. -/
def JointLimit.obeys (tolerance : K) (l : JointLimit K) (q : K) : Bool :=
  !(l.hasLimits && (decide (q < l.min - tolerance) || decide (q > l.max + tolerance)))

/-- `obeys_limits` -/
def obeysLimits (tolerance : K) (limits : List (JointLimit K)) (sol : List K) : Bool :=
  (limits.zip sol).all fun p => p.1.obeys tolerance p.2

/-- `getSolution` without a seed: the values of the free joints are left at zero. -/
def rawSolution (s : IkSolution K) : List K := s.getSolution fun _ => 0

def rawSolutions (p : Plugin K) (ikPose : Frame K) (vfree : List K) : List (List K) :=
  (p.solve ikPose vfree).map rawSolution

/-- `vfree[i] = ik_seed_state[free_params_[i]]` -/
def seedFree (freeParams : List Nat) (seed : List K) : Option (List K) :=
  freeParams.mapM fun p => seed[p]?

/-- What the callback, where there is one, makes of a solution. -/
def verdict (callback : Option (List K → ErrorCode)) (sol : List K) : ErrorCode :=
  match callback with
  | some cb => cb sol
  | none => .SUCCESS

/-- A solution within the limits that the callback accepts. -/
def accepted (limits : List (JointLimit K)) (callback : Option (List K → ErrorCode))
    (sol : List K) : Bool :=
  obeysLimits 0 limits sol && decide (verdict callback sol = .SUCCESS)

namespace FirstFit

/-- `getPositionIK` -/
def getPositionIK (p : Plugin K) (ikPose : Frame K) (seed solution : List K) (code : ErrorCode) :
    Option (Answer K) :=
  if p.active = false then some ⟨false, solution, code⟩
  else
    match seedFree p.solver.freeParameters seed with
    | none => none
    | some vfree =>
      match (rawSolutions p ikPose vfree).find? (obeysLimits LIMIT_TOLERANCE p.limits) with
      | some sol => some ⟨true, sol, .SUCCESS⟩
      | none => some ⟨false, solution, .NO_IK_SOLUTION⟩

/-- The loop over the solutions for one value of the redundant joint. -/
def tryAll (limits : List (JointLimit K)) (callback : Option (List K → ErrorCode)) :
    List (List K) → Answer K → Answer K
  | [], a => a
  | sol :: sols, a =>
    if obeysLimits 0 limits sol then
      let code := verdict callback sol
      if code = .SUCCESS then ⟨true, sol, code⟩ else tryAll limits callback sols ⟨false, sol, code⟩
    else tryAll limits callback sols a

/-- `while (true)`; `sols` are the solutions for each number of increments. -/
def searchLoop (limits : List (JointLimit K)) (callback : Option (List K → ErrorCode))
    (sols : Int → List (List K)) (max_count min_count counter : Int) (a : Answer K) : Answer K :=
  let a := tryAll limits callback (sols counter) a
  if a.found then a
  else
    match _h : getCount counter max_count min_count with
    | none => { a with errorCode := .NO_IK_SOLUTION }
    | some next => searchLoop limits callback sols max_count min_count next a
termination_by remaining max_count min_count counter
decreasing_by exact getCount_remaining _h

variable [FloorRing K]

/-- `searchPositionIK` -/
def searchPositionIK (p : Plugin K) (ikPose : Frame K) (seed consistencyLimits : List K)
    (callback : Option (List K → ErrorCode)) (solution : List K) (code : ErrorCode) :
    Option (Answer K) :=
  match p.solver.freeParameters with
  | [] =>
    match getPositionIK p ikPose seed solution code with
    | none => none
    | some a =>
      if a.found = false then some { a with errorCode := .NO_IK_SOLUTION }
      else
        match callback with
        | some cb => some ⟨decide (cb a.solution = .SUCCESS), a.solution, cb a.solution⟩
        | none => some a
  | free :: _ =>
    if p.active = false then some ⟨false, solution, .NO_IK_SOLUTION⟩
    else if seed.length ≠ p.solver.numJoints then some ⟨false, solution, .NO_IK_SOLUTION⟩
    else if consistencyLimits ≠ [] ∧ consistencyLimits.length ≠ p.solver.numJoints then
      some ⟨false, solution, .NO_IK_SOLUTION⟩
    else
      match p.limits[free]?, seed[free]? with
      | some limit, some initialGuess =>
        let n := increments limit initialGuess p.searchDiscretization consistencyLimits[free]?
        let sols := fun counter : Int =>
          rawSolutions p ikPose [initialGuess + p.searchDiscretization * counter]
        some (searchLoop p.limits callback sols n.1 n.2 0 ⟨false, solution, code⟩)
      | _, _ => none

/-! ## What the search finds -/

omit [FloorRing K]

theorem tryAll_spec (limits : List (JointLimit K)) (callback : Option (List K → ErrorCode))
    (sols : List (List K)) {a : Answer K} (ha : a.found = false) :
    match sols.find? (accepted limits callback) with
    | some sol => tryAll limits callback sols a = ⟨true, sol, .SUCCESS⟩
    | none => (tryAll limits callback sols a).found = false := by
  induction sols generalizing a with
  | nil => exact ha
  | cons sol sols ih =>
    rw [List.find?_cons, tryAll]
    by_cases hlimits : obeysLimits 0 limits sol = true
    · by_cases hcode : verdict callback sol = .SUCCESS
      · simp [accepted, hlimits, hcode]
      · simpa [accepted, hlimits, hcode] using
          @ih ⟨false, sol, verdict callback sol⟩ rfl
    · simpa [accepted, hlimits] using ih ha

theorem searchLoop_found {limits : List (JointLimit K)} {callback : Option (List K → ErrorCode)}
    {sols : Int → List (List K)} {max_count min_count counter : Int} {a : Answer K}
    (h : (tryAll limits callback (sols counter) a).found = true) :
    searchLoop limits callback sols max_count min_count counter a =
      tryAll limits callback (sols counter) a := by
  rw [searchLoop]
  exact if_pos h

theorem searchLoop_none {limits : List (JointLimit K)} {callback : Option (List K → ErrorCode)}
    {sols : Int → List (List K)} {max_count min_count counter : Int} {a : Answer K}
    (h : (tryAll limits callback (sols counter) a).found = false)
    (hcount : getCount counter max_count min_count = none) :
    searchLoop limits callback sols max_count min_count counter a =
      { tryAll limits callback (sols counter) a with errorCode := .NO_IK_SOLUTION } := by
  rw [searchLoop]
  simp only [h, Bool.false_eq_true, if_false]
  split
  · rfl
  · rename_i next h'
    rw [hcount] at h'
    cases h'

theorem searchLoop_some {limits : List (JointLimit K)} {callback : Option (List K → ErrorCode)}
    {sols : Int → List (List K)} {max_count min_count counter next : Int} {a : Answer K}
    (h : (tryAll limits callback (sols counter) a).found = false)
    (hcount : getCount counter max_count min_count = some next) :
    searchLoop limits callback sols max_count min_count counter a =
      searchLoop limits callback sols max_count min_count next
        (tryAll limits callback (sols counter) a) := by
  rw [searchLoop]
  simp only [h, Bool.false_eq_true, if_false]
  split
  · rename_i h'
    rw [hcount] at h'
    cases h'
  · rename_i next' h'
    rw [hcount] at h'
    cases h'
    rfl

/-- The answer is the first accepted one of these candidates. -/
def IsFirst (limits : List (JointLimit K)) (callback : Option (List K → ErrorCode))
    (candidates : List (List K)) (a : Answer K) : Prop :=
  match candidates.find? (accepted limits callback) with
  | some sol => a = ⟨true, sol, .SUCCESS⟩
  | none => a.found = false ∧ a.errorCode = .NO_IK_SOLUTION

/-- **The search finds the first accepted candidate** of the grid. -/
theorem searchLoop_isFirst (limits : List (JointLimit K)) (callback : Option (List K → ErrorCode))
    (sols : Int → List (List K)) (max_count min_count counter : Int) {a : Answer K}
    (ha : a.found = false) :
    IsFirst limits callback ((visits max_count min_count counter).flatMap sols)
      (searchLoop limits callback sols max_count min_count counter a) := by
  induction counter using visits.induct max_count min_count
    generalizing a with
  | case1 counter h =>
    have htry := tryAll_spec limits callback (sols counter) ha
    rw [visits_none h, List.flatMap_cons, List.flatMap_nil, List.append_nil, IsFirst]
    cases hfind : (sols counter).find? (accepted limits callback) with
    | some sol =>
      rw [hfind] at htry
      simp only at htry ⊢
      rw [searchLoop_found (by rw [htry]), htry]
    | none =>
      rw [hfind] at htry
      simp only at htry ⊢
      rw [searchLoop_none htry h]
      exact ⟨htry, rfl⟩
  | case2 counter next h ih =>
    have htry := tryAll_spec limits callback (sols counter) ha
    rw [visits_some h, List.flatMap_cons, IsFirst, List.find?_append]
    cases hfind : (sols counter).find? (accepted limits callback) with
    | some sol =>
      rw [hfind] at htry
      simp only [Option.some_or] at htry ⊢
      rw [searchLoop_found (by rw [htry]), htry]
    | none =>
      rw [hfind] at htry
      simp only [Option.none_or] at htry ⊢
      rw [searchLoop_some htry h]
      exact ih htry

theorem IsFirst.found_iff {limits : List (JointLimit K)}
    {callback : Option (List K → ErrorCode)} {candidates : List (List K)} {a : Answer K}
    (h : IsFirst limits callback candidates a) :
    a.found = true ↔ ∃ q ∈ candidates, accepted limits callback q = true := by
  unfold IsFirst at h
  split at h
  · rename_i sol hfind
    rw [h]
    exact ⟨fun _ => ⟨sol, List.mem_of_find?_eq_some hfind, List.find?_some hfind⟩, fun _ => rfl⟩
  · rename_i hfind
    rw [h.1]
    constructor
    · intro hfalse
      cases hfalse
    · rintro ⟨q, hq, hacc⟩
      exact absurd hacc (List.find?_eq_none.mp hfind q hq)

theorem IsFirst.mem {limits : List (JointLimit K)} {callback : Option (List K → ErrorCode)}
    {candidates : List (List K)} {a : Answer K} (h : IsFirst limits callback candidates a)
    (hfound : a.found = true) :
    a.solution ∈ candidates ∧ accepted limits callback a.solution = true := by
  unfold IsFirst at h
  split at h
  · rename_i sol hfind
    rw [h]
    exact ⟨List.mem_of_find?_eq_some hfind, List.find?_some hfind⟩
  · rw [h.1] at hfound
    cases hfound

end FirstFit

/-! ## The search over a redundant joint -/

/-- A query of a plugin with one redundant joint that passes the checks at the beginning of
`searchPositionIK`, with the seed in the window. -/
structure Redundant (p : Plugin K) (seed consistencyLimits : List K) (free : Nat)
    (limit : JointLimit K) (initialGuess : K) : Prop where
  free_eq : p.solver.freeParameters = [free]
  active_eq : p.active = true
  seed_length : seed.length = p.solver.numJoints
  consistency : consistencyLimits = [] ∨ consistencyLimits.length = p.solver.numJoints
  limit_eq : p.limits[free]? = some limit
  guess_eq : seed[free]? = some initialGuess
  le_max : initialGuess ≤ (window limit initialGuess consistencyLimits[free]?).1
  min_le : (window limit initialGuess consistencyLimits[free]?).2 ≤ initialGuess
  step_pos : 0 < p.searchDiscretization

/-- The consistency limits pass their check. -/
theorem Redundant.consistent {p : Plugin K} {seed consistencyLimits : List K} {free : Nat}
    {limit : JointLimit K} {initialGuess : K}
    (h : Redundant p seed consistencyLimits free limit initialGuess) :
    ¬ (consistencyLimits ≠ [] ∧ consistencyLimits.length ≠ p.solver.numJoints) := by
  rintro ⟨hne, hlen⟩
  rcases h.consistency with hnil | hsame
  · exact hne hnil
  · exact hlen hsame

variable [FloorRing K]

theorem Redundant.search_eq {p : Plugin K} {seed consistencyLimits : List K} {free : Nat}
    {limit : JointLimit K} {initialGuess : K}
    (h : Redundant p seed consistencyLimits free limit initialGuess) (ikPose : Frame K)
    (callback : Option (List K → ErrorCode)) (solution : List K) (code : ErrorCode) :
    FirstFit.searchPositionIK p ikPose seed consistencyLimits callback solution code =
      some (FirstFit.searchLoop p.limits callback
        (fun counter => rawSolutions p ikPose [initialGuess + p.searchDiscretization * counter])
        (increments limit initialGuess p.searchDiscretization consistencyLimits[free]?).1
        (increments limit initialGuess p.searchDiscretization consistencyLimits[free]?).2 0
        ⟨false, solution, code⟩) := by
  simp only [FirstFit.searchPositionIK, h.free_eq, h.active_eq, h.seed_length, h.consistent,
    h.limit_eq, h.guess_eq, Bool.true_eq_false, ne_eq, not_true_eq_false, if_false]

variable [IsStrictOrderedRing K]

theorem Redundant.increments_nonneg {p : Plugin K} {seed consistencyLimits : List K} {free : Nat}
    {limit : JointLimit K} {initialGuess : K}
    (h : Redundant p seed consistencyLimits free limit initialGuess) :
    (0 : Int) ≤
        (increments limit initialGuess p.searchDiscretization consistencyLimits[free]?).1 ∧
      (0 : Int) ≤
        (increments limit initialGuess p.searchDiscretization consistencyLimits[free]?).2 := by
  constructor
  · exact (le_trunc_iff (sub_nonneg.mpr h.le_max) h.step_pos 0).mpr (by simpa using h.le_max)
  · exact (le_trunc_iff (sub_nonneg.mpr h.min_le) h.step_pos 0).mpr (by simpa using h.min_le)

/-- The steps upwards that stay in the window. -/
theorem Redundant.lt_increments_iff {p : Plugin K} {seed consistencyLimits : List K} {free : Nat}
    {limit : JointLimit K} {initialGuess : K}
    (h : Redundant p seed consistencyLimits free limit initialGuess) (n : Nat) :
    n < (increments limit initialGuess p.searchDiscretization
        consistencyLimits[free]?).1.toNat + 1 ↔
      initialGuess + p.searchDiscretization * n ≤
        (window limit initialGuess consistencyLimits[free]?).1 := by
  have hle := le_trunc_iff (sub_nonneg.mpr h.le_max) h.step_pos n
  rw [Int.cast_natCast] at hle
  rw [← le_sub_iff_add_le', ← hle, Nat.lt_succ_iff, Int.le_toNat h.increments_nonneg.1]
  rfl

/-- What the older plugin tries is in the window. -/
theorem Redundant.upward_window {p : Plugin K} {seed consistencyLimits : List K} {free : Nat}
    {limit : JointLimit K} {initialGuess : K}
    (h : Redundant p seed consistencyLimits free limit initialGuess) {n : Int}
    (hn : n ∈ visits (increments limit initialGuess p.searchDiscretization
        consistencyLimits[free]?).1 (increments limit initialGuess p.searchDiscretization
        consistencyLimits[free]?).2 0) :
    (window limit initialGuess consistencyLimits[free]?).2 ≤
        initialGuess + p.searchDiscretization * n ∧
      initialGuess + p.searchDiscretization * n ≤
        (window limit initialGuess consistencyLimits[free]?).1 := by
  obtain ⟨hmax, hmin⟩ := h.increments_nonneg
  rw [(visits_zero _ _).2 n, Within] at hn
  have hle : n ≤ (increments limit initialGuess p.searchDiscretization
      consistencyLimits[free]?).1 := by omega
  have hn0 : (0 : K) ≤ n := by
    have : 0 ≤ n := by omega
    exact_mod_cast this
  have hup := (le_trunc_iff (sub_nonneg.mpr h.le_max) h.step_pos n).mp hle
  have hstep := mul_nonneg h.step_pos.le hn0
  have := h.min_le
  constructor <;> linarith

/-- **The search of the older plugin goes upwards only**: it tries the seed value and the values
above it in the window, and returns the first accepted solution. -/
theorem firstFit_search_upward {p : Plugin K} {seed consistencyLimits : List K} {free : Nat}
    {limit : JointLimit K} {initialGuess : K}
    (h : Redundant p seed consistencyLimits free limit initialGuess) (ikPose : Frame K)
    (callback : Option (List K → ErrorCode)) (solution : List K) (code : ErrorCode) :
    ∃ a, FirstFit.searchPositionIK p ikPose seed consistencyLimits callback solution code =
        some a ∧
      FirstFit.IsFirst p.limits callback
        ((List.range ((increments limit initialGuess p.searchDiscretization
          consistencyLimits[free]?).1.toNat + 1)).flatMap fun n : Nat =>
            rawSolutions p ikPose [initialGuess + p.searchDiscretization * n]) a ∧
      (a.found = true ↔ ∃ n : Nat, initialGuess + p.searchDiscretization * n ≤
          (window limit initialGuess consistencyLimits[free]?).1 ∧
        ∃ q ∈ rawSolutions p ikPose [initialGuess + p.searchDiscretization * n],
          accepted p.limits callback q = true) := by
  obtain ⟨-, hneg⟩ := h.increments_nonneg
  have hvisits : visits (increments limit initialGuess p.searchDiscretization
      consistencyLimits[free]?).1 (increments limit initialGuess p.searchDiscretization
      consistencyLimits[free]?).2 0 = _ := visits_upward hneg (Nat.zero_add _)
  have hfirst := FirstFit.searchLoop_isFirst p.limits callback
    (fun counter => rawSolutions p ikPose [initialGuess + p.searchDiscretization * counter])
    (increments limit initialGuess p.searchDiscretization consistencyLimits[free]?).1
    (increments limit initialGuess p.searchDiscretization consistencyLimits[free]?).2 0
    (a := ⟨false, solution, code⟩) rfl
  rw [hvisits, List.flatMap_map, ← List.range_eq_range'] at hfirst
  have hlist : (fun n : Nat => rawSolutions p ikPose
      [initialGuess + p.searchDiscretization * ((Int.ofNat n : Int) : K)]) =
      fun n : Nat => rawSolutions p ikPose [initialGuess + p.searchDiscretization * n] := by
    funext n
    rw [Int.ofNat_eq_natCast, Int.cast_natCast]
  rw [hlist] at hfirst
  refine ⟨_, h.search_eq ikPose callback solution code, hfirst, ?_⟩
  rw [hfirst.found_iff]
  simp only [List.mem_flatMap, List.mem_range]
  constructor
  · rintro ⟨q, ⟨n, hn, hq⟩, hacc⟩
    exact ⟨n, (h.lt_increments_iff n).mp hn, q, hq, hacc⟩
  · rintro ⟨n, hn, q, hq, hacc⟩
    exact ⟨q, ⟨n, (h.lt_increments_iff n).mpr hn, hq⟩, hacc⟩

theorem noBranches : 0 < 256 := by decide

omit [LinearOrder K] [IsStrictOrderedRing K] [FloorRing K] in
/-- A solution whose values depend on no free joint, without branches. -/
def plainSolution (values : List K) : IkSolution K :=
  ⟨values.map fun x => ⟨0, x, -1, 0, 0, 0, noBranches⟩, []⟩

omit [IsStrictOrderedRing K] [FloorRing K] in
theorem rawSolution_plain (values : List K) : rawSolution (plainSolution values) = values := by
  have hvalue : ∀ x : K, SingleDofSolution.value (fun _ => 0) ⟨0, x, -1, 0, 0, 0, noBranches⟩ = x :=
    fun _ => if_pos (show (-1 : Int) < 0 by decide)
  rw [rawSolution, IkSolution.getSolution, plainSolution, List.map_map]
  exact List.map_id'' hvalue values

/-- Solutions made of `values`, the values of the joints for the free ones. -/
def plainSolver (numJoints : Nat) (freeParameters : List Nat) (values : List ℚ → List (List ℚ))
    (h : ∀ pfree, ∀ vs ∈ values pfree, vs.length = numJoints) : Solver ℚ where
  ikType := .transform6D
  numJoints := numJoints
  freeParameters := freeParameters
  computeIk :=
    { solutions := fun _ _ pfree => (values pfree).map plainSolution
      dof := by
        intro _ _ pfree s hs
        obtain ⟨vs, hvs, rfl⟩ := List.mem_map.mp hs
        exact (List.length_map _).trans (h pfree vs hvs) }

theorem plain_raw {p : Plugin ℚ} {values : List ℚ → List (List ℚ)}
    (htype : p.solver.ikType = .transform6D)
    (hsols : ∀ t r pfree, p.solver.computeIk.solutions t r pfree = (values pfree).map plainSolution)
    (ikPose : Frame ℚ) (vfree : List ℚ) : rawSolutions p ikPose vfree = values vfree := by
  rw [rawSolutions, Plugin.solve_transform6D htype, solve, solveFor,
    if_pos (htype ▸ List.mem_singleton_self _), hsols, List.map_map]
  exact List.map_id'' rawSolution_plain _

/-- A robot on a rail, its redundant joint, with an arm for which the solver has two values, in
degrees; the first one is out of the limits. -/
def slide : Plugin ℚ where
  solver := plainSolver 2 [0] (fun pfree => [[pfree.headD 0, 400], [pfree.headD 0, 10]]) (by simp)
  translation3D := true
  limits := [⟨true, -1, 1⟩, ⟨true, -120, 300⟩]
  limits_length := rfl
  active := true
  searchDiscretization := 1

theorem slide_redundant : Redundant slide [0, 0] [] 0 ⟨true, -1, 1⟩ 0 where
  free_eq := rfl
  active_eq := rfl
  seed_length := rfl
  consistency := .inl rfl
  limit_eq := rfl
  guess_eq := rfl
  le_max := by decide
  min_le := by decide
  step_pos := by decide

theorem firstFit_search_upward_slide :
    ∃ a, FirstFit.searchPositionIK slide 1 [0, 0] [] none [] .SUCCESS = some a ∧
      FirstFit.IsFirst slide.limits none
        ((List.range ((increments ⟨true, -1, 1⟩ (0 : ℚ) slide.searchDiscretization
          none).1.toNat + 1)).flatMap fun n : Nat =>
            rawSolutions slide 1 [0 + slide.searchDiscretization * n]) a ∧
      (a.found = true ↔ ∃ n : Nat, 0 + slide.searchDiscretization * n ≤ 1 ∧
        ∃ q ∈ rawSolutions slide 1 [0 + slide.searchDiscretization * n],
          accepted slide.limits none q = true) :=
  firstFit_search_upward slide_redundant 1 none [] .SUCCESS

end Ik

end FanucDriver
