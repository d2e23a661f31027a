import FanucDriver.Ik.Chains
import FanucDriver.Ik.Solution

/-!
# The kinematics plugin: solver, limits and poses

* `ComputeIk`, `Solver` — the functions a generated solver exports.
* `Plugin` — a configured `IKFastKinematicsPlugin`: one limit for each joint of the solver.
* `solve`, `solveTranslation`, `getPositionFK` — how poses are handed to the solver, by the two
  kinds of plugins, and taken from it.
* `asks_m10ia`, `asks_fiveAxis` — what a solver is asked for when the pose is that of a joint
  vector.
-/

set_option autoImplicit false

namespace FanucDriver

namespace Ik

open Frames

/-- `IkParameterizationType`, without the flags. -/
inductive IkParameterizationType where
  | transform6D
  | rotation3D
  | translation3D
  | direction3D
  | ray4D
  | lookat3D
  | translationDirection5D
  | translationXY2D
  | translationXYOrientation3D
  | translationLocalGlobal6D
  | translationXAxisAngle4D
  | translationYAxisAngle4D
  | translationZAxisAngle4D
  | translationXAxisAngleZNorm4D
  | translationYAxisAngleXNorm4D
  | translationZAxisAngleYNorm4D
  deriving DecidableEq

variable {K : Type}

/-- `ComputeIk` of a solver; its solutions have a value for every joint. -/
structure ComputeIk (K : Type) (numJoints : Nat) where
  solutions : (eetrans : Fin 3 → K) → (eerot : List K) → (pfree : List K) → List (IkSolution K)
  dof : ∀ t r f, ∀ s ∈ solutions t r f, s.vbasesol.length = numJoints

/-- What a generated solver exports. -/
structure Solver (K : Type) where
  ikType : IkParameterizationType
  numJoints : Nat
  freeParameters : List Nat
  computeIk : ComputeIk K numJoints

/-- An entry of `joint_has_limits_vector_`, `joint_min_vector_` and `joint_max_vector_`. -/
structure JointLimit (K : Type) where
  hasLimits : Bool
  min : K
  max : K
  deriving DecidableEq, Repr

/-- `moveit_msgs/MoveItErrorCodes` -/
inductive ErrorCode where
  | SUCCESS
  | NO_IK_SOLUTION
  | other (val : Int)
  deriving DecidableEq, Repr

/-- A plugin that `initialize` has configured, or not yet (`active`); `translation3D` is whether its
`solve` has a case for `IKP_Translation3D`. -/
structure Plugin (K : Type) where
  solver : Solver K
  translation3D : Bool
  limits : List (JointLimit K)
  limits_length : limits.length = solver.numJoints
  active : Bool
  searchDiscretization : K

section Solve

variable [CommRing K]

/-- The solutions for a pose, with its rotation handed over for the types in `rotation`. -/
def solveFor (rotation : List IkParameterizationType) (s : Solver K) (poseFrame : Frame K)
    (vfree : List K) : List (IkSolution K) :=
  if s.ikType ∈ rotation then
    let mult := poseFrame.M
    s.computeIk.solutions poseFrame.p
      [mult 0 0, mult 0 1, mult 0 2, mult 1 0, mult 1 1, mult 1 2, mult 2 0, mult 2 1, mult 2 2]
      vfree
  else
    match s.ikType with
    | .direction3D | .ray4D | .translationDirection5D =>
      let direction := poseFrame.M.mulVec ![0, 0, 1]
      s.computeIk.solutions poseFrame.p [direction 0, direction 1, direction 2] vfree
    | _ => []

/-- `solve` of the plugins of the M-10iA, the LR Mate 200iD and most others. -/
def solve (s : Solver K) (poseFrame : Frame K) (vfree : List K) : List (IkSolution K) :=
  solveFor [.transform6D] s poseFrame vfree

/-- `solve` of the plugins of the LR Mate 200i, 200iB and 200iD/7L, the M-20iB/25 and their like. -/
def solveTranslation (s : Solver K) (poseFrame : Frame K) (vfree : List K) : List (IkSolution K) :=
  solveFor [.transform6D, .translation3D] s poseFrame vfree

/-- The plugin's own `solve`. -/
def Plugin.solve (p : Plugin K) (poseFrame : Frame K) (vfree : List K) : List (IkSolution K) :=
  if p.translation3D then solveTranslation p.solver poseFrame vfree
  else Ik.solve p.solver poseFrame vfree

theorem solveFor_dof (rotation : List IkParameterizationType) (s : Solver K) (poseFrame : Frame K)
    (vfree : List K) :
    ∀ r ∈ solveFor rotation s poseFrame vfree, r.vbasesol.length = s.numJoints := by
  intro r hr
  unfold solveFor at hr
  split at hr
  · exact s.computeIk.dof _ _ _ r hr
  · split at hr
    any_goals exact s.computeIk.dof _ _ _ r hr
    cases hr

theorem Plugin.solve_dof (p : Plugin K) (poseFrame : Frame K) (vfree : List K) :
    ∀ r ∈ p.solve poseFrame vfree, r.vbasesol.length = p.solver.numJoints := by
  rw [Plugin.solve]
  split
  · exact solveFor_dof _ _ _ _
  · exact solveFor_dof _ _ _ _

/-- For a solver of poses the two kinds of `solve` are the same. -/
theorem Plugin.solve_transform6D {p : Plugin K} (hp : p.solver.ikType = .transform6D)
    (poseFrame : Frame K) (vfree : List K) :
    p.solve poseFrame vfree = Ik.solve p.solver poseFrame vfree := by
  rw [Plugin.solve]
  split
  · simp only [solveTranslation, Ik.solve, solveFor, hp, List.mem_cons, true_or, if_true]
  · rfl

/-- `getPositionFK` of the plugins that look at `GetIkType`; `none` is the result `false`. -/
def getPositionFK (ikType : IkParameterizationType) (computeFk : List K → Pose6D K)
    (tipFrame : String) (linkNames : List String) (jointAngles : List K) : Option (Frame K) :=
  if ikType ≠ .transform6D then none
  else if linkNames.length = 0 then none
  else if linkNames.length ≠ 1 ∨ linkNames[0]? ≠ some tipFrame then none
  else some (computeFk jointAngles).frame

end Solve

/-! ## What the solver is asked for -/

section Asked

variable [Field K]

/-- The exports of the solvers, around their `ComputeIk`. -/
def M10ia.solver (computeIk : ComputeIk K 6) : Solver K := ⟨.transform6D, 6, [], computeIk⟩

def M20ib25.solver (computeIk : ComputeIk K 6) : Solver K := ⟨.transform6D, 6, [], computeIk⟩

def Lrmate200id.solver (computeIk : ComputeIk K 6) : Solver K := ⟨.transform6D, 6, [], computeIk⟩

def Lrmate200ic5h.solver (computeIk : ComputeIk K 5) : Solver K :=
  ⟨.translationDirection5D, 5, [], computeIk⟩

def M430ia2f.solver (computeIk : ComputeIk K 5) : Solver K :=
  ⟨.translationDirection5D, 5, [], computeIk⟩

/-- **The M-10iA**: the solver computes where the description puts the tool, and for this pose it
is asked for exactly what it computes. -/
theorem asks_m10ia (computeIk : ComputeIk K 6) (j : Fin 6 → Angle K) (vfree : List K) :
    (M10ia.computeFk j).frame = toolFrame M10ia.joints tool0 (List.ofFn j) ∧
      solve (M10ia.solver computeIk) (toolFrame M10ia.joints tool0 (List.ofFn j)) vfree =
        computeIk.solutions (M10ia.computeFk j).eetrans (List.ofFn (M10ia.computeFk j).eerot)
          vfree := by
  refine ⟨computeFk_m10ia j, ?_⟩
  rw [← computeFk_m10ia]
  rfl

/-- The direction handed over for a rigid frame is its third axis. -/
theorem solve_direction (s : Solver K) (hs : s.ikType = .translationDirection5D) (f : Frame K)
    (vfree : List K) :
    solve s f vfree = s.computeIk.solutions f.p [f.M 0 2, f.M 1 2, f.M 2 2] vfree := by
  rw [solve, solveFor, if_neg (by rw [hs]; decide)]
  simp only [hs]
  congr 2 <;> simp [Matrix.mulVec, dotProduct, Fin.sum_univ_three]

/-- A direction, of length one, that is perpendicular to the direction of `e`. -/
structure Perpendicular (d : Fin 3 → K) (e : Pose5D K) : Prop where
  product : d 0 * e.eerot 0 + d 1 * e.eerot 1 + d 2 * e.eerot 2 = 0
  asked : d 0 ^ 2 + d 1 ^ 2 + d 2 ^ 2 = 1
  computed : e.eerot 0 ^ 2 + e.eerot 1 ^ 2 + e.eerot 2 ^ 2 = 1

/-- A solver whose direction is the first axis of the tool frame is asked for the third. -/
theorem asks_perpendicular (s : Solver K) (hs : s.ikType = .translationDirection5D) {f : Frame K}
    (hf : f.IsRigid) {e : Pose5D K} (he : e.eetrans = f.p ∧ ∀ i, e.eerot i = f.M i 0)
    (vfree : List K) :
    ∃ d, solve s f vfree = s.computeIk.solutions e.eetrans [d 0, d 1, d 2] vfree ∧
      Perpendicular d e := by
  refine ⟨fun i => f.M i 2, ?_, ?_, hf.unit 2, ?_⟩
  · rw [solve_direction s hs, he.1]
  · simp only [he.2]
    exact hf.perpendicular (by decide)
  · simp only [he.2]
    exact hf.unit 0

/-- **The five-axis robots**: for the pose a joint vector puts the tool in, the solver is asked
for a direction perpendicular to the one it computes for this joint vector. -/
theorem asks_fiveAxis (computeIk : ComputeIk K 5) (j : Fin 5 → Angle K) (vfree : List K) :
    (∃ d, solve (Lrmate200ic5h.solver computeIk)
          (toolFrame Lrmate200ic5h.joints tool0 (List.ofFn j)) vfree =
        computeIk.solutions (Lrmate200ic5h.computeFk j).eetrans [d 0, d 1, d 2] vfree ∧
      Perpendicular d (Lrmate200ic5h.computeFk j)) ∧
    ∃ d, solve (M430ia2f.solver computeIk) (toolFrame M430ia2f.joints 1 (List.ofFn j)) vfree =
        computeIk.solutions (M430ia2f.computeFk j).eetrans [d 0, d 1, d 2] vfree ∧
      Perpendicular d (M430ia2f.computeFk j) := by
  constructor
  · exact asks_perpendicular _ rfl ((chain_isRigid _).mul tool0_isRigid)
      (computeFk_lrmate200ic5h j) vfree
  · exact asks_perpendicular _ rfl ((chain_isRigid _).mul .one) (computeFk_m430ia2f j) vfree

end Asked

end Ik

end FanucDriver
