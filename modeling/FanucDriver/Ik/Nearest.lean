import FanucDriver.Ik.ClosestFit

/-!
# What the newer plugin finds

* `Answerable` — a query that passes the checks of `getPositionIK`.
* `Answerable.getPositionIK_closest`, `StdSort.find_least` — the answer is the least distant kept
  solution.
* `Variant`, `Turned` — a solution with joints turned by full turns, strictly within the limits, or
  within them.
* `nearSolution_variant`, `nearSolution_eq` — no variant is closer than the turned solution, and
  one less than half a turn away is the turned solution.
* `nearSolution_turned` — a kept solution is one of the solver's, turned by full turns.
* `closestFit_closest`, `closestFit_improves` — what a query with one solution achieves, and how it
  compares with the older plugin.
-/

set_option autoImplicit false

namespace FanucDriver

namespace Ik

open Frames

variable {K : Type} [Field K] [LinearOrder K]

/-! ## Sorted solutions -/

theorem limitObeying_eq {seed : List K} {sols : List (List K)}
    (h : ∀ sol ∈ sols, seed.length ≤ sol.length) :
    limitObeying seed sols = some (sols.map fun sol => ⟨sol, distance seed sol⟩) := by
  induction sols with
  | nil => rfl
  | cons sol sols ih =>
    have hrest := ih fun s hs => h s (List.mem_cons_of_mem sol hs)
    rw [limitObeying] at hrest ⊢
    rw [List.mapM_cons, hrest, if_neg (not_lt.mpr (h sol List.mem_cons_self))]
    rfl

/-- The first sorted solution with a property is the least distant one. -/
theorem StdSort.find_least (std : StdSort K) {seed : List K} {sols : List (List K)}
    {p : List K → Bool} {s : LimitObeyingSol K}
    (h : (std.sort (sols.map fun sol => ⟨sol, distance seed sol⟩)).find? (fun s => p s.value) =
      some s) :
    Least (distance seed) (sols.filter p) s.value := by
  have hleast := (Least.of_sorted (std.sorted _) h).perm ((std.perm _).filter _)
  rw [List.filter_map] at hleast
  obtain ⟨sol, hsol, hs⟩ := List.mem_map.mp hleast.mem
  subst hs
  refine ⟨hsol, ?_⟩
  intro b hb
  exact hleast.le _ (List.mem_map.mpr ⟨b, hb, rfl⟩)

theorem StdSort.find_none (std : StdSort K) {seed : List K} {sols : List (List K)}
    {p : List K → Bool}
    (h : (std.sort (sols.map fun sol => ⟨sol, distance seed sol⟩)).find? (fun s => p s.value) =
      none) : sols.filter p = [] := by
  rw [List.filter_eq_nil_iff]
  intro sol hsol
  exact List.find?_eq_none.mp h ⟨sol, distance seed sol⟩
    ((std.perm _).mem_iff.mpr (List.mem_map.mpr ⟨sol, hsol, rfl⟩))

theorem StdSort.head_least (std : StdSort K) {seed : List K} {sols : List (List K)}
    {s : LimitObeyingSol K}
    (h : (std.sort (sols.map fun sol => ⟨sol, distance seed sol⟩)).head? = some s) :
    Least (distance seed) sols s.value := by
  obtain ⟨rest, hrest⟩ := List.head?_eq_some_iff.mp h
  have hleast : Least (distance seed) (sols.filter fun _ => true) s.value :=
    std.find_least (by rw [hrest]; rfl)
  rwa [List.filter_true] at hleast

theorem StdSort.head_none (std : StdSort K) {seed : List K} {sols : List (List K)}
    (h : (std.sort (sols.map fun sol => ⟨sol, distance seed sol⟩)).head? = none) : sols = [] := by
  have hperm := std.perm (sols.map fun sol => ⟨sol, distance seed sol⟩)
  rw [List.head?_eq_none_iff.mp h] at hperm
  exact List.map_eq_nil_iff.mp hperm.nil_eq.symm

theorem distance_cons (s q : K) (seed sol : List K) :
    distance (s :: seed) (q :: sol) = |s - q| + distance seed sol := rfl

/-- A sort that keeps the order of solutions that are equally far. -/
def StdSort.stable : StdSort K where
  sort l := l.mergeSort fun a b => decide (a.distFromSeed ≤ b.distFromSeed)
  perm l := List.mergeSort_perm l _
  sorted l := by
    have hsorted : (l.mergeSort fun a b => decide (a.distFromSeed ≤ b.distFromSeed)).Pairwise
        fun a b => decide (a.distFromSeed ≤ b.distFromSeed) = true :=
      List.pairwise_mergeSort
        (fun a b c hab hbc => by simp only [decide_eq_true_eq] at *; exact hab.trans hbc)
        (fun a b => by simp [le_total]) l
    exact hsorted.imp fun h => of_decide_eq_true h

/-! ## Queries -/

theorem seedInBounds_length {limits : List (JointLimit K)} {seed : List K}
    (h : seedInBounds limits seed = some true) : seed.length ≤ limits.length := by
  induction limits generalizing seed with
  | nil =>
    cases seed with
    | nil => exact le_rfl
    | cons q seed => cases h
  | cons l limits ih =>
    cases seed with
    | nil => exact Nat.zero_le _
    | cons q seed =>
      rw [seedInBounds] at h
      split at h
      · exact Nat.succ_le_succ (ih h)
      · cases h

/-- A query that passes the checks of `getPositionIK`. -/
structure Answerable (p : Plugin K) (seed vfree : List K) : Prop where
  active_eq : p.active = true
  seed_length : p.solver.numJoints ≤ seed.length
  inBounds : seedInBounds p.limits seed = some true
  free_eq : seedFree p.solver.freeParameters seed = some vfree

theorem Answerable.length_eq {p : Plugin K} {seed vfree : List K} (h : Answerable p seed vfree) :
    seed.length = p.solver.numJoints :=
  le_antisymm ((seedInBounds_length h.inBounds).trans_eq p.limits_length) h.seed_length

theorem rawSolutions_length {p : Plugin K} {ikPose : Frame K} {vfree r : List K}
    (hr : r ∈ rawSolutions p ikPose vfree) : r.length = p.solver.numJoints := by
  obtain ⟨s, hs, rfl⟩ := List.mem_map.mp hr
  rw [rawSolution, IkSolution.getSolution_length]
  exact p.solve_dof ikPose vfree s hs

variable [IsStrictOrderedRing K] [FloorRing K]

theorem nearSolution_length (M_PI : HalfTurn K) (limits : List (JointLimit K)) (seed sol : List K) :
    (nearSolution M_PI limits seed sol).length = sol.length := by
  induction limits generalizing seed sol with
  | nil => rfl
  | cons l limits ih =>
    cases seed with
    | nil => rfl
    | cons s seed =>
      cases sol with
      | nil => rfl
      | cons q sol => exact congrArg Nat.succ (ih seed sol)

theorem keptSolutions_length {M_PI : HalfTurn K} {p : Plugin K} {ikPose : Frame K}
    {seed vfree sol : List K} (h : sol ∈ keptSolutions M_PI p ikPose seed vfree) :
    sol.length = p.solver.numJoints := by
  obtain ⟨r, hr, rfl⟩ := List.mem_map.mp (List.mem_filter.mp h).1
  rw [nearSolution_length]
  exact rawSolutions_length hr

/-- The answer with the least distance from the seed among some solutions, where `solution` is what
is left when there is none. -/
structure IsClosest (seed : List K) (sols : List (List K)) (solution : List K) (a : Answer K) :
    Prop where
  found_iff : a.found = true ↔ sols ≠ []
  least : a.found = true → a.errorCode = .SUCCESS ∧ Least (distance seed) sols a.solution
  failed : a.found = false → a.solution = solution

/-- **One solution**: the least distant kept one. -/
theorem Answerable.getPositionIK_closest {p : Plugin K} {seed vfree : List K}
    (h : Answerable p seed vfree) (M_PI : HalfTurn K) (std : StdSort K) (ikPose : Frame K)
    (solution : List K) (code : ErrorCode) :
    ∃ a, ClosestFit.getPositionIK M_PI std p ikPose seed solution code = some a ∧
      IsClosest seed (keptSolutions M_PI p ikPose seed vfree) solution a := by
  have hlimit := limitObeying_eq fun sol (hsol : sol ∈ keptSolutions M_PI p ikPose seed vfree) =>
    (h.length_eq.trans (keptSolutions_length hsol).symm).le
  simp only [ClosestFit.getPositionIK, h.active_eq, h.inBounds, h.free_eq, hlimit,
    Bool.true_eq_false, not_lt.mpr h.seed_length, if_false]
  cases hhead : (std.sort ((keptSolutions M_PI p ikPose seed vfree).map
      fun sol => ⟨sol, distance seed sol⟩)).head? with
  | some first =>
    have hleast := std.head_least hhead
    refine ⟨_, rfl, ?_, fun _ => ⟨rfl, hleast⟩, fun hfalse => ?_⟩
    · exact ⟨fun _ => List.ne_nil_of_mem hleast.mem, fun _ => rfl⟩
    · cases hfalse
  | none =>
    have hnil := std.head_none hhead
    refine ⟨_, rfl, ?_, fun hfalse => ?_, fun _ => rfl⟩
    · constructor
      · intro hfalse
        cases hfalse
      · intro hne
        exact absurd hnil hne
    · cases hfalse

/-! ## Full turns -/

/-- The joint values `q` are the values `r` up to full turns, strictly within the limits where there
are limits; a joint without limits is not turned. -/
def Variant (M_PI : HalfTurn K) : List (JointLimit K) → List K → List K → Prop
  | l :: limits, x :: r, y :: q =>
    (if l.hasLimits = true then
        ∃ k : Int, y = x + k * M_PI.full ∧ l.min - LIMIT_TOLERANCE < y ∧ y < l.max + LIMIT_TOLERANCE
      else y = x) ∧
      Variant M_PI limits r q
  | [], [], [] => True
  | _, _, _ => False

/-- The joint values `q` are the values `r` up to full turns, and within the limits where there are
limits; a joint without limits is not turned. -/
def Turned (M_PI : HalfTurn K) : List (JointLimit K) → List K → List K → Prop
  | l :: limits, x :: r, y :: q =>
    (if l.hasLimits = true then
        ∃ k : Int, y = x + k * M_PI.full ∧ l.min - LIMIT_TOLERANCE ≤ y ∧ y ≤ l.max + LIMIT_TOLERANCE
      else y = x) ∧
      Turned M_PI limits r q
  | [], [], [] => True
  | _, _, _ => False

/-- Less than half a turn from the seed, at each joint with limits. -/
def HalfTurnAway (M_PI : HalfTurn K) : List (JointLimit K) → List K → List K → Prop
  | l :: limits, s :: seed, y :: q =>
    (l.hasLimits = true → |y - s| < M_PI.1) ∧ HalfTurnAway M_PI limits seed q
  | _, _, _ => True

/-- In each joint, `x` is at least as near to the seed as `y`. -/
def Nearer : List K → List K → List K → Prop
  | s :: seed, x :: xs, y :: ys => |s - x| ≤ |s - y| ∧ Nearer seed xs ys
  | _, [], [] => True
  | [], _, _ => True
  | _, _, _ => False

omit [IsStrictOrderedRing K] [FloorRing K] in
theorem Nearer.refl (seed xs : List K) : Nearer seed xs xs := by
  induction xs generalizing seed with
  | nil => cases seed <;> trivial
  | cons x xs ih =>
    cases seed with
    | nil => trivial
    | cons s seed => exact ⟨le_rfl, ih seed⟩

omit [FloorRing K] in
theorem Nearer.distance_le {seed xs ys : List K} (h : Nearer seed xs ys) :
    distance seed xs ≤ distance seed ys := by
  induction seed generalizing xs ys with
  | nil => exact le_rfl
  | cons s seed ih =>
    match xs, ys, h with
    | [], [], _ => exact le_rfl
    | x :: xs, y :: ys, ⟨hjoint, hrest⟩ =>
      rw [distance_cons, distance_cons]
      exact add_le_add hjoint (ih hrest)

omit [IsStrictOrderedRing K] [FloorRing K] in
theorem Nearer.maxMotion_le {seed xs ys : List K} (h : Nearer seed xs ys) :
    maxMotion seed xs ≤ maxMotion seed ys := by
  induction seed generalizing xs ys with
  | nil => exact le_rfl
  | cons s seed ih =>
    match xs, ys, h with
    | [], [], _ => exact le_rfl
    | x :: xs, y :: ys, ⟨hjoint, hrest⟩ =>
      rw [BestFit.maxMotion_cons, BestFit.maxMotion_cons]
      exact max_le_max hjoint (ih hrest)

/-- **No variant is closer** to the seed than the turned solution, in any joint. -/
theorem nearSolution_variant (M_PI : HalfTurn K) {limits : List (JointLimit K)} {seed r q : List K}
    (h : Variant M_PI limits r q) : Nearer seed (nearSolution M_PI limits seed r) q := by
  induction limits generalizing seed r q with
  | nil =>
    match r, q, h with
    | [], [], _ => exact Nearer.refl seed []
  | cons l limits ih =>
    match r, q, h with
    | x :: r, y :: q, ⟨hjoint, hrest⟩ =>
      cases seed with
      | nil => trivial
      | cons s seed =>
        refine ⟨?_, ih hrest⟩
        rw [abs_sub_comm s, abs_sub_comm s]
        split at hjoint
        · rename_i hlimits
          obtain ⟨k, rfl, hlow, hup⟩ := hjoint
          exact turn_closest M_PI hlimits s x k hlow hup
        · rw [hjoint]
          exact turn_le M_PI l s x

/-- A variant less than half a turn away is the turned solution, which is within the limits. -/
theorem nearSolution_eq (M_PI : HalfTurn K) {limits : List (JointLimit K)} {seed r q : List K}
    (h : Variant M_PI limits r q) (hseed : seed.length = limits.length)
    (hnear : HalfTurnAway M_PI limits seed q) :
    nearSolution M_PI limits seed r = q ∧ obeysLimits LIMIT_TOLERANCE limits q = true := by
  induction limits generalizing seed r q with
  | nil =>
    match r, q, h with
    | [], [], _ => exact ⟨rfl, rfl⟩
  | cons l limits ih =>
    match r, q, h, seed, hseed, hnear with
    | x :: r, y :: q, ⟨hjoint, hrest⟩, s :: seed, hseed, ⟨hnear, hnears⟩ =>
      obtain ⟨heq, hobeys⟩ := ih hrest (Nat.succ.inj hseed) hnears
      have hturn : turn M_PI l s x = y ∧ l.obeys LIMIT_TOLERANCE y = true := by
        split at hjoint
        · rename_i hlimits
          obtain ⟨k, rfl, hlow, hup⟩ := hjoint
          refine ⟨turn_eq M_PI hlimits s x k hlow hup (hnear hlimits), ?_⟩
          simp [JointLimit.obeys, hlimits, hlow.le, hup.le]
        · rename_i hlimits
          rw [hjoint]
          simp [JointLimit.obeys, turn, hlimits]
      rw [nearSolution, hturn.1, heq]
      refine ⟨rfl, ?_⟩
      rw [obeysLimits, List.zip_cons_cons, List.all_cons, hturn.2, Bool.true_and]
      exact hobeys

/-- Turning keeps a joint within its limits. -/
theorem turn_obeys (M_PI : HalfTurn K) {l : JointLimit K} (s : K) {x : K}
    (h : l.obeys LIMIT_TOLERANCE x = true) : l.obeys LIMIT_TOLERANCE (turn M_PI l s x) = true := by
  unfold turn
  split
  · rename_i hlimits
    simp only [JointLimit.obeys, hlimits, Bool.true_and, Bool.not_eq_true', Bool.or_eq_false_iff,
      decide_eq_false_iff_not, not_lt] at h ⊢
    exact (turn_loops (kept_limits M_PI _ _ s) h).1
  · exact h

theorem nearSolution_obeys (M_PI : HalfTurn K) {limits : List (JointLimit K)} (seed : List K)
    {r : List K} (h : obeysLimits LIMIT_TOLERANCE limits r = true) :
    obeysLimits LIMIT_TOLERANCE limits (nearSolution M_PI limits seed r) = true := by
  induction limits generalizing seed r with
  | nil => exact h
  | cons l limits ih =>
    match seed, r with
    | [], _ => exact h
    | _ :: _, [] => exact h
    | s :: seed, x :: r =>
      simp only [obeysLimits, nearSolution, List.zip_cons_cons, List.all_cons,
        Bool.and_eq_true] at h ⊢
      exact ⟨turn_obeys M_PI s h.1, ih seed h.2⟩

theorem nearSolution_nearer (M_PI : HalfTurn K) (limits : List (JointLimit K)) (seed r : List K) :
    Nearer seed (nearSolution M_PI limits seed r) r := by
  induction limits generalizing seed r with
  | nil => exact Nearer.refl seed r
  | cons l limits ih =>
    match seed, r with
    | [], _ => exact Nearer.refl [] _
    | _ :: _, [] => exact Nearer.refl _ []
    | s :: seed, x :: r =>
      refine ⟨?_, ih seed r⟩
      rw [abs_sub_comm s, abs_sub_comm s]
      exact turn_le M_PI l s x

/-- **A kept solution is one of the solver's**, turned by full turns. -/
theorem nearSolution_turned (M_PI : HalfTurn K) {limits : List (JointLimit K)} {seed r : List K}
    (hseed : seed.length = limits.length) (hr : r.length = limits.length)
    (h : obeysLimits LIMIT_TOLERANCE limits (nearSolution M_PI limits seed r) = true) :
    Turned M_PI limits r (nearSolution M_PI limits seed r) := by
  induction limits generalizing seed r with
  | nil =>
    match seed, hseed, r, hr with
    | [], _, [], _ => trivial
  | cons l limits ih =>
    match seed, hseed, r, hr with
    | s :: seed, hseed, x :: r, hr =>
      rw [nearSolution, obeysLimits, List.zip_cons_cons, List.all_cons, Bool.and_eq_true] at h
      refine ⟨?_, ih (Nat.succ.inj hseed) (Nat.succ.inj hr) h.2⟩
      split
      · rename_i hlimits
        obtain ⟨k, hk⟩ := (turn_spec M_PI hlimits s x).1
        have hobeys := h.1
        simp only [JointLimit.obeys, hlimits, Bool.true_and, Bool.not_eq_true',
          Bool.or_eq_false_iff, decide_eq_false_iff_not, not_lt] at hobeys
        exact ⟨k, hk, hobeys⟩
      · rename_i hlimits
        rw [turn, if_neg hlimits]

theorem mem_keptSolutions {M_PI : HalfTurn K} {p : Plugin K} {ikPose : Frame K}
    {seed vfree r : List K} (hr : r ∈ rawSolutions p ikPose vfree)
    (hobeys : obeysLimits LIMIT_TOLERANCE p.limits (nearSolution M_PI p.limits seed r) = true) :
    nearSolution M_PI p.limits seed r ∈ keptSolutions M_PI p ikPose seed vfree :=
  List.mem_filter.mpr ⟨List.mem_map.mpr ⟨r, hr, rfl⟩, hobeys⟩

/-- Where a turned joint is out of its limits, although a full turn would bring it within, it is at
most half a turn away from a seed within the limits. -/
theorem turn_missed (M_PI : HalfTurn K) {l : JointLimit K} {s x y : K}
    (hs : l.obeys LIMIT_TOLERANCE s = true)
    (hjoint : if l.hasLimits = true then
        ∃ k : Int, y = x + k * M_PI.full ∧ l.min - LIMIT_TOLERANCE < y ∧ y < l.max + LIMIT_TOLERANCE
      else y = x)
    (hout : l.obeys LIMIT_TOLERANCE (turn M_PI l s x) = false) :
    |turn M_PI l s x - s| ≤ M_PI := by
  cases hlimits : l.hasLimits with
  | false => simp [JointLimit.obeys, hlimits] at hout
  | true =>
    rw [if_pos hlimits] at hjoint
    obtain ⟨k, rfl, hlow, hup⟩ := hjoint
    obtain ⟨⟨n, hn⟩, hsettled⟩ := turn_spec M_PI hlimits s x
    have hk : turn M_PI l s x + ((k - n : Int) : K) * M_PI.full = x + k * M_PI.full := by
      rw [hn]
      push_cast
      ring
    rw [← hk] at hlow hup
    simp only [JointLimit.obeys, hlimits, Bool.true_and, Bool.not_eq_true', Bool.or_eq_false_iff,
      decide_eq_false_iff_not, not_lt, Bool.not_eq_false', Bool.or_eq_true, decide_eq_true_eq]
      at hs hout
    exact hsettled.near_of_outside hs hout hlow hup

/-! ## The main results -/

/-- What a query with one solution achieves: the answer is one of the solver's solutions turned by
full turns, within the limits; no variant of a solution that is within them when turned is closer to
the seed; and no variant less than half a turn away is missed. -/
structure Achieves (M_PI : HalfTurn K) (p : Plugin K) (ikPose : Frame K) (seed vfree : List K)
    (a : Answer K) : Prop where
  found_iff : a.found = true ↔ ∃ r ∈ rawSolutions p ikPose vfree,
    obeysLimits LIMIT_TOLERANCE p.limits (nearSolution M_PI p.limits seed r) = true
  kept : a.found = true → a.solution ∈ keptSolutions M_PI p ikPose seed vfree
  turned : a.found = true → ∃ r ∈ rawSolutions p ikPose vfree, Turned M_PI p.limits r a.solution
  closest : a.found = true → ∀ r ∈ rawSolutions p ikPose vfree,
    obeysLimits LIMIT_TOLERANCE p.limits (nearSolution M_PI p.limits seed r) = true →
    ∀ q, Variant M_PI p.limits r q → distance seed a.solution ≤ distance seed q
  near : ∀ r ∈ rawSolutions p ikPose vfree, ∀ q, Variant M_PI p.limits r q →
    HalfTurnAway M_PI p.limits seed q →
    a.found = true ∧ distance seed a.solution ≤ distance seed q

/-- **The closest solution**, among all full turns of the joints. -/
theorem closestFit_closest {p : Plugin K} {seed vfree : List K} (h : Answerable p seed vfree)
    (M_PI : HalfTurn K) (std : StdSort K) (ikPose : Frame K) (solution : List K)
    (code : ErrorCode) :
    ∃ a, ClosestFit.getPositionIK M_PI std p ikPose seed solution code = some a ∧
      Achieves M_PI p ikPose seed vfree a := by
  obtain ⟨a, ha, hclosest⟩ := h.getPositionIK_closest M_PI std ikPose solution code
  have hkept : ∀ r ∈ rawSolutions p ikPose vfree,
      obeysLimits LIMIT_TOLERANCE p.limits (nearSolution M_PI p.limits seed r) = true →
      a.found = true ∧ distance seed a.solution ≤
        distance seed (nearSolution M_PI p.limits seed r) := by
    intro r hr hobeys
    have hmem := mem_keptSolutions hr hobeys
    have hfound := hclosest.found_iff.mpr (List.ne_nil_of_mem hmem)
    exact ⟨hfound, (hclosest.least hfound).2.le _ hmem⟩
  have hseed : seed.length = p.limits.length := h.length_eq.trans p.limits_length.symm
  have hraw : a.found = true → ∃ r ∈ rawSolutions p ikPose vfree,
      nearSolution M_PI p.limits seed r = a.solution ∧
      obeysLimits LIMIT_TOLERANCE p.limits (nearSolution M_PI p.limits seed r) = true := by
    intro hfound
    obtain ⟨hmem, hobeys⟩ := List.mem_filter.mp (hclosest.least hfound).2.mem
    obtain ⟨r, hr, heq⟩ := List.mem_map.mp hmem
    exact ⟨r, hr, heq, heq ▸ hobeys⟩
  refine ⟨a, ha, ?_, ?_, ?_, ?_, ?_⟩
  · constructor
    · intro hfound
      obtain ⟨r, hr, -, hobeys⟩ := hraw hfound
      exact ⟨r, hr, hobeys⟩
    · rintro ⟨r, hr, hobeys⟩
      exact (hkept r hr hobeys).1
  · intro hfound
    exact (hclosest.least hfound).2.mem
  · intro hfound
    obtain ⟨r, hr, heq, hobeys⟩ := hraw hfound
    refine ⟨r, hr, ?_⟩
    rw [← heq]
    exact nearSolution_turned M_PI hseed
      ((rawSolutions_length hr).trans p.limits_length.symm) hobeys
  · intro _ r hr hobeys q hq
    exact (hkept r hr hobeys).2.trans (nearSolution_variant M_PI hq).distance_le
  · intro r hr q hq hnear
    obtain ⟨heq, hobeys⟩ := nearSolution_eq M_PI hq hseed hnear
    obtain ⟨hfound, hle⟩ := hkept r hr (by rwa [heq])
    exact ⟨hfound, hle.trans_eq (by rw [heq])⟩

/-- A robot with two joints, in degrees, for which the solver has two solutions. -/
def crane : Plugin ℚ where
  solver := plainSolver 2 [] (fun _ => [[270, 5], [90, 20]]) (by simp)
  translation3D := true
  limits := [⟨true, -149, 320⟩, ⟨true, -10, 100⟩]
  limits_length := rfl
  active := true
  searchDiscretization := 1

theorem crane_answerable : Answerable crane [0, 0] [] where
  active_eq := rfl
  seed_length := le_rfl
  inBounds := by
    norm_num [seedInBounds, JointLimit.obeys, LIMIT_TOLERANCE, crane]
  free_eq := rfl

theorem crane_raw : rawSolutions crane 1 [] = [[270, 5], [90, 20]] := by
  rw [plain_raw rfl fun _ _ _ => rfl]

/-- A full turn down from its value in the first solution, the first joint is at -90. -/
theorem crane_variant : Variant degrees crane.limits [270, 5] [-90, 5] := by
  norm_num [Variant, crane, LIMIT_TOLERANCE, HalfTurn.full, degrees]
  exact ⟨-1, by norm_num⟩

theorem closestFit_closest_crane :
    ∃ a, ClosestFit.getPositionIK degrees StdSort.stable crane 1 [0, 0] [] .SUCCESS = some a ∧
      Achieves degrees crane 1 [0, 0] [] a ∧ a.found = true ∧
      distance [0, 0] a.solution ≤ (95 : ℚ) := by
  obtain ⟨a, ha, hachieves⟩ :=
    closestFit_closest crane_answerable degrees StdSort.stable 1 [] .SUCCESS
  obtain ⟨hfound, hle⟩ := hachieves.near [270, 5] (by simp [crane_raw]) [-90, 5] crane_variant
    (by norm_num [HalfTurnAway, crane, degrees, abs_lt])
  refine ⟨a, ha, hachieves, hfound, hle.trans ?_⟩
  norm_num [distance]

/-- **The newer plugin does not lose a solution**: where the older one finds one, it does, and
nearer to the seed. -/
theorem closestFit_improves {p : Plugin K} {seed vfree : List K} (h : Answerable p seed vfree)
    (M_PI : HalfTurn K) (std : StdSort K) {ikPose : Frame K} {solution : List K} {code : ErrorCode}
    {a : Answer K} (ha : FirstFit.getPositionIK p ikPose seed solution code = some a)
    (hfound : a.found = true) :
    ∃ b, ClosestFit.getPositionIK M_PI std p ikPose seed solution code = some b ∧
      b.found = true ∧ b.errorCode = .SUCCESS ∧
      distance seed b.solution ≤ distance seed a.solution := by
  obtain ⟨b, hb, hclosest⟩ := h.getPositionIK_closest M_PI std ikPose solution code
  have hraw : a.solution ∈ rawSolutions p ikPose vfree ∧
      obeysLimits LIMIT_TOLERANCE p.limits a.solution = true := by
    simp only [FirstFit.getPositionIK, h.active_eq, h.free_eq, Bool.true_eq_false, if_false] at ha
    split at ha
    · rename_i sol hfind
      cases ha
      exact ⟨List.mem_of_find?_eq_some hfind, List.find?_some hfind⟩
    · cases ha
      cases hfound
  have hmem := mem_keptSolutions hraw.1 (nearSolution_obeys M_PI seed hraw.2)
  have hbfound := hclosest.found_iff.mpr (List.ne_nil_of_mem hmem)
  obtain ⟨hcode, hleast⟩ := hclosest.least hbfound
  exact ⟨b, hb, hbfound, hcode, (hleast.le _ hmem).trans
    (nearSolution_nearer M_PI p.limits seed _).distance_le⟩

/-- The older plugin answers with the first solution, which is 275 degrees away. -/
theorem crane_first :
    FirstFit.getPositionIK crane 1 [0, 0] [] .SUCCESS = some ⟨true, [270, 5], .SUCCESS⟩ := by
  have hobeys : obeysLimits LIMIT_TOLERANCE crane.limits [(270 : ℚ), 5] = true := by
    norm_num [obeysLimits, JointLimit.obeys, LIMIT_TOLERANCE, crane]
  have hfind : (rawSolutions crane 1 []).find? (obeysLimits LIMIT_TOLERANCE crane.limits) =
      some [270, 5] := by
    rw [crane_raw, List.find?_cons_of_pos hobeys]
  simp only [FirstFit.getPositionIK, crane_answerable.free_eq, crane_answerable.active_eq,
    Bool.true_eq_false, if_false, hfind]

theorem closestFit_improves_crane :
    ∃ b, ClosestFit.getPositionIK degrees StdSort.stable crane 1 [0, 0] [] .SUCCESS = some b ∧
      b.found = true ∧ b.errorCode = .SUCCESS ∧
      distance [0, 0] b.solution ≤ distance [0, 0] [(270 : ℚ), 5] :=
  closestFit_improves crane_answerable degrees StdSort.stable crane_first rfl

end Ik

end FanucDriver
