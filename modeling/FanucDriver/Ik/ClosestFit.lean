import FanucDriver.Ik.BestFit
import FanucDriver.Ik.Sampling

/-!
# The solution closest to the seed

The plugins of the M-20iB/25 and the LR Mate 200iD/7L.

* `nearSolution`, `turnedSolutions` — `getSolution` with a seed, for all joints and all solutions.
* `LimitObeyingSol`, `StdSort` — the solutions within the limits, and how they are sorted.
* `ClosestFit.getPositionIK`, `ClosestFit.getPositionIKs`, `ClosestFit.searchPositionIK` — one
  solution, all solutions, and the search, which goes through all solutions when no joint is
  redundant.

What a query that passes the checks achieves is in `FanucDriver.Ik.Nearest`.
-/

set_option autoImplicit false

namespace FanucDriver

namespace Ik

open Frames

variable {K : Type} [Field K] [LinearOrder K]

/-- `dist_from_seed` -/
def distance (seed solution : List K) : K := ((seed.zip solution).map fun q => |q.1 - q.2|).sum

/-- `LimitObeyingSol` -/
structure LimitObeyingSol (K : Type) where
  value : List K
  distFromSeed : K
  deriving Repr

/-- `std::sort` of these; the order of solutions that are equally far is not specified. -/
structure StdSort (K : Type) [LE K] where
  sort : List (LimitObeyingSol K) → List (LimitObeyingSol K)
  perm : ∀ l, (sort l).Perm l
  sorted : ∀ l, (sort l).Pairwise fun a b => a.distFromSeed ≤ b.distFromSeed

/-- `solutions_obey_limits`; reading past the end of a solution is `none`. -/
def limitObeying (seed : List K) (sols : List (List K)) : Option (List (LimitObeyingSol K)) :=
  sols.mapM fun sol => if sol.length < seed.length then none else some ⟨sol, distance seed sol⟩

/-- The check of the seed, up to the first joint out of bounds; reading past the end of the limits
is `none`. -/
def seedInBounds : List (JointLimit K) → List K → Option Bool
  | _, [] => some true
  | [], _ :: _ => none
  | l :: limits, q :: seed =>
    if l.obeys LIMIT_TOLERANCE q then seedInBounds limits seed else some false

/-- `kinematics::KinematicErrors`, as far as it is used. -/
inductive KinematicError where
  | OK
  | UNSUPORTED_DISCRETIZATION_REQUESTED
  | MULTIPLE_TIPS_NOT_SUPPORTED
  | EMPTY_TIP_POSES
  | IK_SEED_OUTSIDE_LIMITS
  | SOLVER_NOT_ACTIVE
  | NO_SOLUTION
  deriving DecidableEq, Repr

/-- The value returned, `solutions` and `kinematic_error`. -/
structure Answers (K : Type) where
  found : Bool
  solutions : List (List K)
  kinematicError : KinematicError

/-- The discretization asked for, `redundant_joint_discretization_` and the random numbers. -/
structure Discretization (K : Type) where
  method : DiscretizationMethod
  value : Nat → Option K
  rand : Rand

variable [IsStrictOrderedRing K] [FloorRing K]

/-- The joints of `getSolution` with a seed. -/
def nearSolution (M_PI : HalfTurn K) : List (JointLimit K) → List K → List K → List K
  | l :: limits, s :: seed, q :: sol => turn M_PI l s q :: nearSolution M_PI limits seed sol
  | _, _, sol => sol

def turnedSolutions (M_PI : HalfTurn K) (p : Plugin K) (ikPose : Frame K) (seed vfree : List K) :
    List (List K) :=
  (rawSolutions p ikPose vfree).map (nearSolution M_PI p.limits seed)

/-- The solutions within the limits. -/
def keptSolutions (M_PI : HalfTurn K) (p : Plugin K) (ikPose : Frame K) (seed vfree : List K) :
    List (List K) :=
  (turnedSolutions M_PI p ikPose seed vfree).filter (obeysLimits LIMIT_TOLERANCE p.limits)

namespace ClosestFit

/-- `getPositionIK` -/
def getPositionIK (M_PI : HalfTurn K) (std : StdSort K) (p : Plugin K) (ikPose : Frame K)
    (seed solution : List K) (code : ErrorCode) : Option (Answer K) :=
  if p.active = false then some ⟨false, solution, code⟩
  else if seed.length < p.solver.numJoints then some ⟨false, solution, code⟩
  else
    match seedInBounds p.limits seed, seedFree p.solver.freeParameters seed with
    | some false, _ => some ⟨false, solution, code⟩
    | some true, some vfree =>
      match limitObeying seed (keptSolutions M_PI p ikPose seed vfree) with
      | none => none
      | some sols =>
        match (std.sort sols).head? with
        | some first => some ⟨true, first.value, .SUCCESS⟩
        | none => some ⟨false, solution, .NO_IK_SOLUTION⟩
    | _, _ => none

/-- The values of the redundant joint for which there are solution sets. -/
def freeValues (M_PI : HalfTurn K) (p : Plugin K) (d : Discretization K) (seed : List K) :
    Option (Except KinematicError (List (List K))) :=
  match p.solver.freeParameters with
  | [] => some (.ok [[]])
  | free :: _ =>
    match seed[free]?, p.limits[free]? with
    | some jv, some limit =>
      if d.method = .NO_DISCRETIZATION ∧ limit.hasLimits = true ∧
          ¬ (limit.min - LIMIT_TOLERANCE < jv ∧ jv < limit.max + LIMIT_TOLERANCE) then
        some (.error .IK_SEED_OUTSIDE_LIMITS)
      else
        match sampleRedundantJoint M_PI d.rand p.limits p.solver.freeParameters d.value d.method
            [jv] with
        | none => none
        | some (false, _) => some (.error .UNSUPORTED_DISCRETIZATION_REQUESTED)
        | some (true, vals) => some (.ok (vals.map fun v => [v]))
    | _, _ => none

/-- The end of `getPositionIK` with multiple solutions. -/
def report (solutions sols : List (List K)) : Answers K :=
  if sols.isEmpty then ⟨false, solutions, .NO_SOLUTION⟩ else ⟨true, solutions ++ sols, .OK⟩

/-- `getPositionIK` with multiple solutions -/
def getPositionIKs (M_PI : HalfTurn K) (p : Plugin K) (d : Discretization K)
    (ikPoses : List (Frame K)) (seed : List K) (solutions : List (List K))
    (error : KinematicError) : Option (Answers K) :=
  if p.active = false then some ⟨false, solutions, .SOLVER_NOT_ACTIVE⟩
  else
    match ikPoses with
    | [] => some ⟨false, solutions, .EMPTY_TIP_POSES⟩
    | _ :: _ :: _ => some ⟨false, solutions, .MULTIPLE_TIPS_NOT_SUPPORTED⟩
    | [ikPose] =>
      if seed.length < p.solver.numJoints then some ⟨false, solutions, error⟩
      else
        match freeValues M_PI p d seed with
        | none => none
        | some (.error e) => some ⟨false, solutions, e⟩
        | some (.ok vfrees) =>
          some (report solutions (vfrees.flatMap (keptSolutions M_PI p ikPose seed)))

/-- The loop over the sorted solutions. -/
def tryCallback (cb : List K → ErrorCode) (solution : List K) :
    List (LimitObeyingSol K) → ErrorCode → Answer K
  | [], code => ⟨false, solution, code⟩
  | s :: sols, _ =>
    if cb s.value = .SUCCESS then ⟨true, s.value, .SUCCESS⟩
    else tryCallback cb solution sols (cb s.value)

/-- `searchPositionIK` -/
def searchPositionIK (M_PI : HalfTurn K) (std : StdSort K) (p : Plugin K) (d : Discretization K)
    (ikPose : Frame K) (seed consistencyLimits : List K) (callback : Option (List K → ErrorCode))
    (solution : List K) (code : ErrorCode) : Option (Answer K) :=
  match p.solver.freeParameters with
  | [] =>
    match getPositionIKs M_PI p d [ikPose] seed [] .OK with
    | none => none
    | some r =>
      if r.found = false then some ⟨false, solution, .NO_IK_SOLUTION⟩
      else
        match limitObeying seed r.solutions, callback with
        | none, _ => none
        | some sols, some cb => some (tryCallback cb solution (std.sort sols) code)
        | some sols, none =>
          match (std.sort sols).head? with
          | some first => some ⟨true, first.value, .SUCCESS⟩
          | none => none
  | free :: _ =>
    BestFit.searchRedundant p (fun x => turnedSolutions M_PI p ikPose seed [x]) free seed
      consistencyLimits callback solution

end ClosestFit

end Ik

end FanucDriver
