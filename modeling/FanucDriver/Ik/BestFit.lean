import FanucDriver.Ik.FirstFit
import FanucDriver.Lib.Least

/-!
# The solution with the least joint motion

The search over a redundant joint in the fixed plugins (`OPTIMIZE_MAX_JOINT`; those of the LR Mate
200iB and 200iB/3L, the M-6iB and the R-1000iA/80F, and with turned solutions those of the
M-20iB/25 and the LR Mate 200iD/7L).

* `maxMotion` — the costs of a solution: the largest motion of a joint.
* `BestFit.visit`, `BestFit.searchLoop` — the loop that keeps the best solution.
* `BestFit.searchRedundant` — the search, for any way to get the solutions for a value of the
  redundant joint.
* `Candidate`, `IsBest` — what it searches, and what it answers.
* `bestFit_search`, `bestFit_improves` — the answer, and how it compares with the older plugin.
-/

set_option autoImplicit false

namespace FanucDriver

namespace Ik

open Frames

variable {K : Type} [Field K] [LinearOrder K]

/-- `costs` -/
def maxMotion (seed solution : List K) : K :=
  (seed.zip solution).foldl (fun costs q => if |q.1 - q.2| > costs then |q.1 - q.2| else costs) 0

namespace BestFit

/-- `best_costs`, `best_solution`, `solution` and `error_code`. -/
structure Search (K : Type) where
  bestCosts : K
  bestSolution : List K
  solution : List K
  errorCode : ErrorCode

/-- The body of the loop over the solutions. -/
def visit (limits : List (JointLimit K)) (callback : Option (List K → ErrorCode)) (seed : List K)
    (s : Search K) (sol : List K) : Search K :=
  if obeysLimits 0 limits sol then
    let code := verdict callback sol
    if code = .SUCCESS then
      let costs := maxMotion seed sol
      if costs < s.bestCosts ∨ s.bestCosts = -1 then ⟨costs, sol, sol, code⟩
      else { s with solution := sol, errorCode := code }
    else { s with solution := sol, errorCode := code }
  else s

/-- `while (true)`; `sols` are the solutions for each number of increments. -/
def searchLoop (limits : List (JointLimit K)) (callback : Option (List K → ErrorCode))
    (seed : List K) (sols : Int → List (List K)) (max_count min_count counter : Int)
    (s : Search K) : Search K :=
  let s := (sols counter).foldl (visit limits callback seed) s
  match _h : getCount counter max_count min_count with
  | none => { s with errorCode := .NO_IK_SOLUTION }
  | some next => searchLoop limits callback seed sols max_count min_count next s
termination_by remaining max_count min_count counter
decreasing_by exact getCount_remaining _h

variable [FloorRing K]

/-- `searchPositionIK` from the checks on; `sols` are the solutions for a value of the redundant
joint. -/
def searchRedundant (p : Plugin K) (sols : K → List (List K)) (free : Nat)
    (seed consistencyLimits : List K) (callback : Option (List K → ErrorCode)) (solution : List K) :
    Option (Answer K) :=
  if p.active = false then some ⟨false, solution, .NO_IK_SOLUTION⟩
  else if seed.length ≠ p.solver.numJoints then some ⟨false, solution, .NO_IK_SOLUTION⟩
  else if consistencyLimits ≠ [] ∧ consistencyLimits.length ≠ p.solver.numJoints then
    some ⟨false, solution, .NO_IK_SOLUTION⟩
  else
    match p.limits[free]?, seed[free]? with
    | some limit, some initialGuess =>
      let n := increments limit initialGuess p.searchDiscretization consistencyLimits[free]?
      let s := searchLoop p.limits callback seed
        (fun counter => sols (initialGuess + p.searchDiscretization * counter)) n.1 (-n.2) 0
        ⟨-1, [], solution, .NO_IK_SOLUTION⟩
      if s.bestCosts ≠ -1 then some ⟨true, s.bestSolution, .SUCCESS⟩
      else some ⟨false, s.solution, .NO_IK_SOLUTION⟩
    | _, _ => none

/-- `searchPositionIK` of the LR Mate 200iB; without a redundant joint as in the older plugin. -/
def searchPositionIK (p : Plugin K) (ikPose : Frame K) (seed consistencyLimits : List K)
    (callback : Option (List K → ErrorCode)) (solution : List K) (code : ErrorCode) :
    Option (Answer K) :=
  match p.solver.freeParameters with
  | [] => FirstFit.searchPositionIK p ikPose seed consistencyLimits callback solution code
  | free :: _ =>
    searchRedundant p (fun x => rawSolutions p ikPose [x]) free seed consistencyLimits callback
      solution

/-! ## The loop -/

omit [FloorRing K]

/-- The loop goes through all solutions for the values it visits. -/
theorem searchLoop_eq (limits : List (JointLimit K)) (callback : Option (List K → ErrorCode))
    (seed : List K) (sols : Int → List (List K)) (max_count min_count counter : Int)
    (s : Search K) :
    searchLoop limits callback seed sols max_count min_count counter s =
      { ((visits max_count min_count counter).flatMap sols).foldl (visit limits callback seed) s with
        errorCode := .NO_IK_SOLUTION } := by
  induction counter using visits.induct max_count min_count generalizing s with
  | case1 counter h =>
    rw [searchLoop, visits_none h, List.flatMap_cons, List.flatMap_nil, List.append_nil]
    split
    · rfl
    · rename_i h'
      rw [h] at h'
      cases h'
  | case2 counter next h ih =>
    rw [searchLoop, visits_some h, List.flatMap_cons, List.foldl_append]
    split
    · rename_i h'
      rw [h] at h'
      cases h'
    · rename_i next' h'
      rw [h] at h'
      cases h'
      exact ih _

/-- The best solution that a state keeps. -/
def Keeps (seed : List K) (s : Search K) (best : Option (List K)) : Prop :=
  match best with
  | none => s.bestCosts = -1
  | some q => s.bestCosts = maxMotion seed q ∧ s.bestSolution = q

theorem visit_skip (limits : List (JointLimit K)) (callback : Option (List K → ErrorCode))
    (seed : List K) (s : Search K) (best : Option (List K)) (sol : List K)
    (hs : Keeps seed s best) (hsol : accepted limits callback sol = false) :
    Keeps seed (visit limits callback seed s sol) best := by
  unfold visit
  split
  · rename_i hlimits
    have hcode : verdict callback sol ≠ .SUCCESS := by
      simpa [accepted, hlimits] using hsol
    simp only [hcode, if_false]
    exact hs
  · exact hs

theorem maxMotion_eq (seed solution : List K) :
    maxMotion seed solution = ((seed.zip solution).map fun q => |q.1 - q.2|).foldl max 0 := by
  rw [List.foldl_map]
  simp only [maxMotion, gt_iff_lt, max_def_lt]

theorem maxMotion_cons (s q : K) (seed solution : List K) :
    maxMotion (s :: seed) (q :: solution) = max |s - q| (maxMotion seed solution) := by
  rw [maxMotion_eq, maxMotion_eq, List.zip_cons_cons, List.map_cons, List.foldl_cons, max_comm,
    List.foldl_assoc]

variable [IsStrictOrderedRing K]

theorem maxMotion_nonneg (seed solution : List K) : 0 ≤ maxMotion seed solution := by
  unfold maxMotion
  refine List.foldlRecOn _ _ le_rfl ?_
  intro costs hcosts q _
  split
  · exact abs_nonneg _
  · exact hcosts

theorem visit_keep (limits : List (JointLimit K)) (callback : Option (List K → ErrorCode))
    (seed : List K) (s : Search K) (best : Option (List K)) (sol : List K)
    (hs : Keeps seed s best) (hsol : accepted limits callback sol = true) :
    Keeps seed (visit limits callback seed s sol) (better (maxMotion seed) best sol) := by
  simp only [accepted, Bool.and_eq_true, decide_eq_true_eq] at hsol
  rw [visit, if_pos hsol.1]
  simp only [hsol.2, if_true]
  cases best with
  | none =>
    rw [if_pos (.inr hs)]
    exact ⟨rfl, rfl⟩
  | some q =>
    obtain ⟨hcosts, hq⟩ := hs
    have hne : s.bestCosts ≠ -1 := by
      have := maxMotion_nonneg seed q
      rw [hcosts]
      intro h
      linarith
    by_cases hlt : maxMotion seed sol < maxMotion seed q
    · rw [better, if_pos hlt, if_pos (.inl (by rwa [hcosts]))]
      exact ⟨rfl, rfl⟩
    · rw [better, if_neg hlt, if_neg (by simp [hcosts ▸ hne, hcosts, hlt])]
      exact ⟨hcosts, hq⟩

end BestFit

/-! ## What the search finds -/

/-- A solution the search may return: for a value of the redundant joint in the window that is a
multiple of the search step away from the seed. -/
def Candidate (p : Plugin K) (sols : K → List (List K)) (callback : Option (List K → ErrorCode))
    (w : K × K) (initialGuess : K) (q : List K) : Prop :=
  ∃ n : Int, (w.2 ≤ initialGuess + p.searchDiscretization * n ∧
      initialGuess + p.searchDiscretization * n ≤ w.1) ∧
    q ∈ sols (initialGuess + p.searchDiscretization * n) ∧ accepted p.limits callback q = true

/-- The answer with the least joint motion among the candidates. -/
structure IsBest (seed : List K) (Cand : List K → Prop) (a : Answer K) : Prop where
  found_iff : a.found = true ↔ ∃ q, Cand q
  cand : a.found = true → Cand a.solution
  least : a.found = true → ∀ q, Cand q → maxMotion seed a.solution ≤ maxMotion seed q
  code : a.errorCode = if a.found then .SUCCESS else .NO_IK_SOLUTION

variable [IsStrictOrderedRing K]

/-- The end of the search, with the best of the candidates kept. -/
theorem BestFit.Keeps.isBest {seed : List K} {cands : List (List K)} {Cand : List K → Prop}
    (hcand : ∀ q, q ∈ cands ↔ Cand q) {s : BestFit.Search K}
    (hkeeps : BestFit.Keeps seed s (cands.argmin (maxMotion seed))) (solution : List K) :
    ∃ a, (if s.bestCosts ≠ -1 then some (⟨true, s.bestSolution, .SUCCESS⟩ : Answer K)
        else some ⟨false, solution, .NO_IK_SOLUTION⟩) = some a ∧ IsBest seed Cand a := by
  cases hbest : cands.argmin (maxMotion seed) with
  | none =>
    rw [hbest] at hkeeps
    refine ⟨_, if_neg (not_not.mpr hkeeps), ?_, ?_, ?_, rfl⟩
    · constructor
      · intro hfalse
        cases hfalse
      · rintro ⟨q, hq⟩
        have hmem := (hcand q).mpr hq
        rw [List.argmin_eq_none.mp hbest] at hmem
        cases hmem
    all_goals intro hfalse; cases hfalse
  | some q =>
    rw [hbest] at hkeeps
    obtain ⟨hcosts, hq⟩ := hkeeps
    have hleast := Least.of_argmin hbest
    have hne : s.bestCosts ≠ -1 := by
      have hnonneg := BestFit.maxMotion_nonneg seed q
      rw [hcosts]
      intro h
      linarith
    refine ⟨_, if_pos hne, ?_, ?_, ?_, rfl⟩
    · exact ⟨fun _ => ⟨q, (hcand q).mp hleast.mem⟩, fun _ => rfl⟩
    · intro _
      rw [hq]
      exact (hcand q).mp hleast.mem
    · intro _ q' hq'
      rw [hq]
      exact hleast.le q' ((hcand q').mpr hq')

variable [FloorRing K]

/-- The candidates are the accepted solutions for the values visited. -/
theorem Redundant.mem_candidates {p : Plugin K} {seed consistencyLimits : List K} {free : Nat}
    {limit : JointLimit K} {initialGuess : K}
    (h : Redundant p seed consistencyLimits free limit initialGuess) (sols : K → List (List K))
    (callback : Option (List K → ErrorCode)) (q : List K) :
    q ∈ ((visits
          (increments limit initialGuess p.searchDiscretization consistencyLimits[free]?).1
          (-(increments limit initialGuess p.searchDiscretization consistencyLimits[free]?).2)
          0).flatMap fun counter : Int =>
        sols (initialGuess + p.searchDiscretization * counter)).filter
          (accepted p.limits callback) ↔
      Candidate p sols callback (window limit initialGuess consistencyLimits[free]?)
        initialGuess q := by
  have hgrid := mem_grid_iff limit consistencyLimits[free]? h.le_max h.min_le h.step_pos
  rw [List.mem_filter, List.mem_flatMap]
  constructor
  · rintro ⟨⟨n, hn, hq⟩, hacc⟩
    exact ⟨n, (hgrid n).mp hn, hq, hacc⟩
  · rintro ⟨n, hn, hq, hacc⟩
    exact ⟨⟨n, (hgrid n).mpr hn, hq⟩, hacc⟩

theorem Redundant.searchRedundant_isBest {p : Plugin K} {seed consistencyLimits : List K}
    {free : Nat} {limit : JointLimit K} {initialGuess : K}
    (h : Redundant p seed consistencyLimits free limit initialGuess) (sols : K → List (List K))
    (callback : Option (List K → ErrorCode)) (solution : List K) :
    ∃ a, BestFit.searchRedundant p sols free seed consistencyLimits callback solution = some a ∧
      IsBest seed (Candidate p sols callback (window limit initialGuess consistencyLimits[free]?)
        initialGuess) a := by
  simp only [BestFit.searchRedundant, h.active_eq, h.seed_length, h.consistent, h.limit_eq,
    h.guess_eq, Bool.true_eq_false, ne_eq, not_true_eq_false, if_false, BestFit.searchLoop_eq]
  have hkeeps := argmin_refines (BestFit.visit_keep p.limits callback seed)
    (BestFit.visit_skip p.limits callback seed)
    (show BestFit.Keeps seed ⟨-1, [], solution, .NO_IK_SOLUTION⟩ none from rfl)
  exact BestFit.Keeps.isBest (h.mem_candidates sols callback) (hkeeps _) _

/-- **The search of the fixed plugin**: of all solutions that are accepted, for the values of the
redundant joint at multiples of the search step in the window, one with the least motion. -/
theorem bestFit_search {p : Plugin K} {seed consistencyLimits : List K} {free : Nat}
    {limit : JointLimit K} {initialGuess : K}
    (h : Redundant p seed consistencyLimits free limit initialGuess) (ikPose : Frame K)
    (callback : Option (List K → ErrorCode)) (solution : List K) (code : ErrorCode) :
    ∃ a, BestFit.searchPositionIK p ikPose seed consistencyLimits callback solution code = some a ∧
      IsBest seed (Candidate p (fun x => rawSolutions p ikPose [x]) callback
        (window limit initialGuess consistencyLimits[free]?) initialGuess) a := by
  simp only [BestFit.searchPositionIK, h.free_eq]
  exact h.searchRedundant_isBest _ callback solution

theorem bestFit_search_slide :
    ∃ a, BestFit.searchPositionIK slide 1 [0, 0] [] none [] .SUCCESS = some a ∧
      IsBest [0, 0] (Candidate slide (fun x => rawSolutions slide 1 [x]) none (1, -1) 0) a :=
  bestFit_search slide_redundant 1 none [] .SUCCESS

/-- **The fixed search does not lose a solution**: where the older one finds one, it does, and no
joint moves further than the furthest one there. -/
theorem bestFit_improves {p : Plugin K} {seed consistencyLimits : List K} {free : Nat}
    {limit : JointLimit K} {initialGuess : K}
    (h : Redundant p seed consistencyLimits free limit initialGuess) {ikPose : Frame K}
    {callback : Option (List K → ErrorCode)} {solution : List K} {code : ErrorCode} {a : Answer K}
    (ha : FirstFit.searchPositionIK p ikPose seed consistencyLimits callback solution code = some a)
    (hfound : a.found = true) :
    ∃ b, BestFit.searchPositionIK p ikPose seed consistencyLimits callback solution code = some b ∧
      b.found = true ∧ b.errorCode = .SUCCESS ∧
      maxMotion seed b.solution ≤ maxMotion seed a.solution := by
  obtain ⟨b, hb, hbest⟩ := h.searchRedundant_isBest (fun x => rawSolutions p ikPose [x]) callback
    solution
  have hcand : Candidate p (fun x => rawSolutions p ikPose [x]) callback
      (window limit initialGuess consistencyLimits[free]?) initialGuess a.solution := by
    rw [h.search_eq] at ha
    cases ha
    have hfirst := FirstFit.searchLoop_isFirst p.limits callback
      (fun counter => rawSolutions p ikPose [initialGuess + p.searchDiscretization * counter])
      (increments limit initialGuess p.searchDiscretization consistencyLimits[free]?).1
      (increments limit initialGuess p.searchDiscretization consistencyLimits[free]?).2 0
      (a := ⟨false, solution, code⟩) rfl
    obtain ⟨hmem, hacc⟩ := hfirst.mem hfound
    obtain ⟨n, hn, hq⟩ := List.mem_flatMap.mp hmem
    exact ⟨n, h.upward_window hn, hq, hacc⟩
  have hbfound : b.found = true := hbest.found_iff.mpr ⟨_, hcand⟩
  refine ⟨b, ?_, hbfound, ?_, hbest.least hbfound _ hcand⟩
  · simp only [BestFit.searchPositionIK, h.free_eq]
    exact hb
  · rw [hbest.code, hbfound]
    rfl

theorem slide_found :
    FirstFit.searchPositionIK slide 1 [0, 0] [] none [] .SUCCESS =
      some ⟨true, [0, 10], .SUCCESS⟩ := by
  have htry : FirstFit.tryAll slide.limits none
      (rawSolutions slide 1 [0 + slide.searchDiscretization * ((0 : Int) : ℚ)])
      ⟨false, [], .SUCCESS⟩ = ⟨true, [0, 10], .SUCCESS⟩ := by
    rw [plain_raw rfl fun _ _ _ => rfl]
    norm_num [slide, FirstFit.tryAll, obeysLimits, JointLimit.obeys, verdict]
  rw [slide_redundant.search_eq, FirstFit.searchLoop_found (by rw [htry]), htry]

theorem bestFit_improves_slide :
    ∃ b, BestFit.searchPositionIK slide 1 [0, 0] [] none [] .SUCCESS = some b ∧ b.found = true ∧
      b.errorCode = .SUCCESS ∧ maxMotion [0, 0] b.solution ≤ maxMotion [0, 0] [(0 : ℚ), 10] :=
  bestFit_improves slide_redundant slide_found rfl

end Ik

end FanucDriver
