import FanucDriver.Lib.Frames
import Mathlib.Data.Rat.Cast.OfScientific
import Mathlib.Tactic.NormNum.OfScientific

/-!
# Forward kinematics

`ComputeFk` of the solvers IKFast has generated, beside the chains of the robot descriptions the
solvers are used with (`*_macro.xacro`), in exact arithmetic.

* `IKcos`, `IKsin` — of a joint angle, which is given by its cosine and sine.
* `Pose6D`, `Pose5D` — what `ComputeFk` writes for the two kinds of solver in use.
* `M10ia`, `M20ib25`, `Lrmate200id`, `Lrmate200ic5h`, `M430ia2f` — `computeFk` and the joints of
  five robots.
-/

set_option autoImplicit false

namespace FanucDriver

namespace Ik

open Frames

variable {K : Type} [Field K]

def IKcos (a : Angle K) : K := a.cos

def IKsin (a : Angle K) : K := a.sin

/-- `eetrans` and `eerot` of a solver for `IKP_Transform6D`. -/
structure Pose6D (K : Type) where
  eetrans : Fin 3 → K
  eerot : Fin 9 → K

/-- `eetrans` and `eerot` of a solver for `IKP_TranslationDirection5D`. -/
structure Pose5D (K : Type) where
  eetrans : Fin 3 → K
  eerot : Fin 3 → K

local instance neZero_nine : NeZero 9 := ⟨by decide⟩

/-- The frame `getPositionFK` makes of the result; the matrix is stored by rows. -/
def Pose6D.frame (e : Pose6D K) : Frame K where
  p := e.eetrans
  M := !![e.eerot 0, e.eerot 1, e.eerot 2; e.eerot 3, e.eerot 4, e.eerot 5;
    e.eerot 6, e.eerot 7, e.eerot 8]

/-! ## Robot descriptions -/

theorem unit_x_neg : (-1 : K) ^ 2 + 0 ^ 2 + 0 ^ 2 = 1 := by ring

theorem unit_y : (0 : K) ^ 2 + 1 ^ 2 + 0 ^ 2 = 1 := by ring

theorem unit_y_neg : (0 : K) ^ 2 + (-1) ^ 2 + 0 ^ 2 = 1 := by ring

theorem unit_z : (0 : K) ^ 2 + 0 ^ 2 + 1 ^ 2 = 1 := by ring

theorem pi_sq : (-1 : K) ^ 2 + 0 ^ 2 = 1 := by ring

theorem neg_half_pi_sq : (0 : K) ^ 2 + (-1) ^ 2 = 1 := by ring

/-- The joint `tool0` of `rpy="${pi} ${-pi/2.0} 0"`. -/
def tool0 : Frame K where
  p := 0
  M := revolute 0 0 1 .zero * revolute 0 1 0 ⟨0, -1, neg_half_pi_sq⟩ *
    revolute 1 0 0 ⟨-1, 0, pi_sq⟩

theorem tool0_p : (tool0 : Frame K).p = 0 := rfl

theorem tool0_M : (tool0 : Frame K).M = !![0, 0, 1; 0, -1, 0; 1, 0, 0] := by
  simp only [tool0, revolute, Angle.zero, Matrix.mul_fin_three]
  norm_num

/-- The frame `tool0` of a robot: the chain of its joints and the fixed joint after it. -/
def toolFrame (joints : List (Link K)) (tool : Frame K) (j : List (Angle K)) : Frame K :=
  chain (joints.zip j) * tool

namespace M10ia

/-- `ComputeFk` of `fanuc_m10ia_manipulator_ikfast_solver.cpp`. -/
def computeFk (j : Fin 6 → Angle K) : Pose6D K :=
  let x0 := IKcos (j 0)
  let x1 := IKcos (j 2)
  let x2 := IKsin (j 1)
  let x3 := IKcos (j 1)
  let x4 := IKsin (j 2)
  let x5 := IKsin (j 3)
  let x6 := IKcos (j 3)
  let x7 := IKsin (j 0)
  let x8 := IKcos (j 5)
  let x9 := IKsin (j 5)
  let x10 := IKsin (j 4)
  let x11 := IKcos (j 4)
  let x12 := 0.64 * x3
  let x13 := 0.1 * x0
  let x14 := 0.1 * x6
  let x15 := 0.2 * x2
  let x16 := 1 * x2
  let x17 := 1 * x7
  let x18 := 0.6 * x2
  let x19 := 1 * x0
  let x20 := 1 * x5
  let x21 := x1 * x7
  let x22 := x5 * x7
  let x23 := x1 * x3
  let x24 := x2 * x4
  let x25 := x3 * x4
  let x26 := x0 * x1
  let x27 := x1 * x2
  let x28 := x17 * x6
  let x29 := x1 * x16
  let x30 := x19 * x25
  let x31 := x17 * x25
  let x32 := x24 + x23
  let x33 := x32 * x6
  let x34 := x2 * x26 + (-1) * x30
  let x35 := x2 * x21 + (-1) * x31
  let x36 := x30 + (-1) * x16 * x26
  let x37 := (-1) * x16 * x21 + x31
  let x38 := x34 * x6
  let x39 := x37 * x5
  let x40 := x38 + (-1) * x17 * x5
  let x41 := x35 * x6 + x0 * x5
  let x42 := x11 * x33 + x10 * (x29 + (-1) * x25)
  let x43 := x10 * ((-1) * x0 * x16 * x4 + (-1) * x19 * x23) + x11 * x40
  let x44 := x10 * ((-1) * x16 * x4 * x7 + (-1) * x17 * x23) + x11 * x41
  let eerot0 := x9 * ((-1) * x28 + x36 * x5) + x43 * x8
  let eerot1 := x8 * (x28 + (-1) * x20 * x36) + x43 * x9
  let eerot2 := x10 * x40 + x11 * (x0 * x24 + x0 * x23)
  let eetrans0 := x0 * x18 + (-0.2) * x0 * x25 + x15 * x26 + 0.15 * x0 + x11 * (x13 * x23 +
      x13 * x24) + x10 * ((-0.1) * x22 + x14 * x34) + x12 * x26 + 0.64 * x0 * x24
  let eerot3 := x44 * x8 + x9 * (x39 + x0 * x6)
  let eerot4 := x44 * x9 + x8 * ((-1) * x20 * x37 + (-1) * x19 * x6)
  let eerot5 := x11 * (x24 * x7 + x21 * x3) + x10 * x41
  let x45 := x24 * x7
  let eetrans1 := 0.64 * x45 + x15 * x21 + 0.15 * x7 + x10 * (x14 * x35 + x13 * x5) +
      (-0.2) * x25 * x7 + x12 * x21 + x11 * (0.1 * x21 * x3 + 0.1 * x45) + x18 * x7
  let eerot6 := x42 * x8 + x5 * x9 * ((-1) * x16 * x4 + (-1) * x23)
  let eerot7 := x42 * x9 + x32 * x5 * x8
  let eerot8 := x10 * x33 + x11 * (x25 + (-1) * x29)
  let eetrans2 := 0.45 + 0.6 * x3 + (-0.64) * x27 + 0.2 * x23 + x11 * ((-0.1) * x27 +
      0.1 * x25) + x12 * x4 + x10 * x6 * (0.1 * x23 + 0.1 * x24) + x15 * x4
  ⟨![eetrans0, eetrans1, eetrans2],
    ![eerot0, eerot1, eerot2, eerot3, eerot4, eerot5, eerot6, eerot7, eerot8]⟩

/-- The joints of `m10ia_macro.xacro`. -/
def joints : List (Link K) :=
  [⟨![0, 0, 0.45], 0, 0, 1, unit_z⟩, ⟨![0.15, 0, 0], 0, 1, 0, unit_y⟩,
    ⟨![0, 0, 0.6], 0, -1, 0, unit_y_neg⟩, ⟨![0, 0, 0.2], -1, 0, 0, unit_x_neg⟩,
    ⟨![0.64, 0, 0], 0, -1, 0, unit_y_neg⟩, ⟨![0.1, 0, 0], -1, 0, 0, unit_x_neg⟩]

end M10ia

namespace M20ib25

/-- `ComputeFk` of `fanuc_m20ib25_manipulator_ikfast_solver.cpp`. -/
def computeFk (j : Fin 6 → Angle K) : Pose6D K :=
  let x0 := IKcos (j 0)
  let x1 := IKcos (j 3)
  let x2 := IKcos (j 2)
  let x3 := IKsin (j 1)
  let x4 := IKsin (j 0)
  let x5 := IKsin (j 3)
  let x6 := IKcos (j 1)
  let x7 := IKsin (j 2)
  let x8 := IKsin (j 5)
  let x9 := IKcos (j 5)
  let x10 := IKcos (j 4)
  let x11 := IKsin (j 4)
  let x12 := 0.865 * x4
  let x13 := 0.12 * x2
  let x14 := 0.1 * x1
  let x15 := 0.1 * x4
  let x16 := 0.1 * x7
  let x17 := 1 * x5
  let x18 := 1 * x4
  let x19 := 1 * x2
  let x20 := 0.1 * x0
  let x21 := 1 * x0
  let x22 := x2 * x6
  let x23 := x0 * x3
  let x24 := x3 * x7
  let x25 := x3 * x4
  let x26 := x6 * x7
  let x27 := x2 * x3
  let x28 := x1 * x18
  let x29 := x19 * x3
  let x30 := x21 * x26
  let x31 := x18 * x26
  let x32 := x24 + x22
  let x33 := x1 * x32
  let x34 := (-1) * x30 + x2 * x23
  let x35 := (-1) * x31 + x2 * x25
  let x36 := (-1) * x19 * x23 + x30
  let x37 := (-1) * x18 * x27 + x31
  let x38 := x1 * x34
  let x39 := x37 * x5
  let x40 := (-1) * x17 * x4 + x38
  let x41 := x0 * x5 + x1 * x35
  let x42 := x10 * x33 + x11 * ((-1) * x26 + x29)
  let x43 := x10 * x40 + x11 * ((-1) * x21 * x24 + (-1) * x0 * x19 * x6)
  let x45 := 1 * x18
  let x44 := x10 * x41 + x11 * ((-1) * x22 * x45 + (-1) * x24 * x45)
  let eerot0 := x8 * ((-1) * x28 + x36 * x5) + x43 * x9
  let eerot1 := x43 * x8 + x9 * ((-1) * x17 * x36 + x28)
  let eerot2 := x11 * x40 + x10 * (x0 * x22 + x23 * x7)
  let eetrans0 := 0.865 * x23 * x7 + (-0.12) * x0 * x26 + x11 * (x14 * x34 + (-1) * x15 * x5) +
      0.905 * x23 + x10 * (x16 * x23 + x20 * x22) + 0.075 * x0 + x13 * x23 + 0.865 * x0 * x22
  let eerot3 := x44 * x9 + x8 * (x0 * x1 + x39)
  let eerot4 := x44 * x8 + x9 * ((-1) * x1 * x21 + (-1) * x17 * x37)
  let eerot5 := x11 * x41 + x10 * (x22 * x4 + x24 * x4)
  let eetrans1 := (-0.12) * x26 * x4 + x11 * (x14 * x35 + x20 * x5) + 0.905 * x25 +
      x10 * (x15 * x24 + x15 * x22) + 0.075 * x4 + x12 * x24 + x12 * x22 + x13 * x25
  let eerot6 := x42 * x9 + x5 * x8 * ((-1) * x19 * x6 + (-1) * x24)
  let eerot7 := x42 * x8 + x32 * x5 * x9
  let eerot8 := x10 * ((-1) * x29 + x26) + x11 * x33
  let eetrans2 := 0.65 + 0.12 * x24 + 0.865 * x26 + 0.905 * x6 + x10 * ((-0.1) * x27 +
      x16 * x6) + (-0.865) * x27 + x13 * x6 + x1 * x11 * (x16 * x3 + 0.1 * x22)
  ⟨![eetrans0, eetrans1, eetrans2],
    ![eerot0, eerot1, eerot2, eerot3, eerot4, eerot5, eerot6, eerot7, eerot8]⟩

/-- The joints of `m20ib25_macro.xacro`. -/
def joints : List (Link K) :=
  [⟨![0, 0, 0.65], 0, 0, 1, unit_z⟩, ⟨![0.075, 0, 0], 0, 1, 0, unit_y⟩,
    ⟨![0, 0, 0.905], 0, -1, 0, unit_y_neg⟩, ⟨![0, 0, 0.12], -1, 0, 0, unit_x_neg⟩,
    ⟨![0.865, 0, 0], 0, -1, 0, unit_y_neg⟩, ⟨![0.1, 0, 0], -1, 0, 0, unit_x_neg⟩]

end M20ib25

namespace Lrmate200id

/-- `ComputeFk` of `fanuc_lrmate200id_manipulator_ikfast_solver.cpp`. -/
def computeFk (j : Fin 6 → Angle K) : Pose6D K :=
  let x0 := IKcos (j 0)
  let x1 := IKsin (j 1)
  let x2 := IKsin (j 2)
  let x3 := IKcos (j 1)
  let x4 := IKcos (j 2)
  let x5 := IKcos (j 3)
  let x6 := IKsin (j 0)
  let x7 := IKsin (j 3)
  let x8 := IKcos (j 5)
  let x9 := IKsin (j 5)
  let x10 := IKsin (j 4)
  let x11 := IKcos (j 4)
  let x12 := 0.08 * x0
  let x13 := 0.08 * x6
  let x14 := 0.335 * x6
  let x15 := 1 * x11
  let x16 := 1 * x7
  let x17 := 1 * x5
  let x18 := 0.335 * x0
  let x19 := 1 * x4
  let x20 := 0.08 * x5
  let x21 := 0.035 * x4
  let x22 := x1 * x2
  let x23 := x3 * x4
  let x24 := x10 * x5
  let x25 := x1 * x6
  let x26 := x2 * x3
  let x27 := x0 * x1
  let x28 := x1 * x4
  let x29 := x16 * x6
  let x30 := 1 * x0 * x26
  let x31 := 1 * x26 * x6
  let x32 := x22 + x23
  let x33 := x26 + (-1) * x1 * x19
  let x34 := (-1) * x22 + (-1) * x19 * x3
  let x35 := x32 * x7
  let x36 := x10 * x33
  let x37 := x0 * (x22 + x23)
  let x38 := (-1) * x30 + x27 * x4
  let x39 := x6 * (x22 + x23)
  let x40 := (-1) * x31 + x25 * x4
  let x41 := x10 * x37
  let x42 := x38 * x5
  let x43 := x11 * x34 * x5
  let x44 := x40 * x5
  let x45 := x10 * x39
  let x46 := x29 + (-1) * x17 * x38
  let x47 := x16 * ((-1) * x30 + x19 * x27) + x17 * x6
  let x48 := (-1) * x0 * x16 + (-1) * x17 * x40
  let x49 := x16 * (x19 * x25 + (-1) * x31) + (-1) * x0 * x17
  let eerot0 := x8 * ((-1) * x15 * x46 + (-1) * x41) + x47 * x9
  let eerot1 := x47 * x8 + x9 * (x41 + x11 * x46)
  let eerot2 := x10 * (x42 + (-1) * x29) + x11 * x37
  let eetrans0 := (-0.035) * x0 * x26 + x18 * x23 + x11 * (x12 * x22 + x12 * x23) +
      0.33 * x27 + 0.05 * x0 + x21 * x27 + x10 * (x20 * x38 + (-1) * x13 * x7) + x18 * x22
  let eerot3 := x8 * ((-1) * x15 * x48 + (-1) * x45) + x49 * x9
  let eerot4 := x49 * x8 + x9 * (x11 * x48 + x45)
  let eerot5 := x11 * x39 + x10 * (x0 * x7 + x44)
  let eetrans1 := (-0.035) * x26 * x6 + x14 * x23 + x10 * (x12 * x7 + x20 * x40) +
      x11 * (x13 * x22 + x13 * x23) + 0.33 * x25 + x14 * x22 + 0.05 * x6 + x21 * x25
  let eerot6 := x35 * x9 + x8 * ((-1) * x36 + (-1) * x15 * x34 * x5)
  let eerot7 := x35 * x8 + x9 * (x43 + x36)
  let eerot8 := x11 * x33 + x24 * x32
  let eetrans2 := 0.33 + x11 * ((-0.08) * x28 + 0.08 * x26) + (-0.335) * x28 + 0.335 * x26 +
      0.035 * x22 + x21 * x3 + 0.33 * x3 + x24 * (0.08 * x23 + 0.08 * x22)
  ⟨![eetrans0, eetrans1, eetrans2],
    ![eerot0, eerot1, eerot2, eerot3, eerot4, eerot5, eerot6, eerot7, eerot8]⟩

/-- The joints of `lrmate200id_macro.xacro`. -/
def joints : List (Link K) :=
  [⟨![0, 0, 0.33], 0, 0, 1, unit_z⟩, ⟨![0.05, 0, 0], 0, 1, 0, unit_y⟩,
    ⟨![0, 0, 0.33], 0, -1, 0, unit_y_neg⟩, ⟨![0, 0, 0.035], -1, 0, 0, unit_x_neg⟩,
    ⟨![0.335, 0, 0], 0, -1, 0, unit_y_neg⟩, ⟨![0.08, 0, 0], -1, 0, 0, unit_x_neg⟩]

end Lrmate200id

namespace Lrmate200ic5h

-- `x23` and `x24` are not used in the source either
set_option linter.unusedVariables false in
/-- `ComputeFk` of `fanuc_lrmate200ic5h_manipulator_ikfast_solver.cpp`. -/
def computeFk (j : Fin 5 → Angle K) : Pose5D K :=
  let x0 := IKcos (j 0)
  let x1 := IKsin (j 1)
  let x2 := IKcos (j 2)
  let x3 := IKcos (j 1)
  let x4 := IKsin (j 2)
  let x5 := IKsin (j 0)
  let x6 := IKsin (j 3)
  let x7 := IKcos (j 3)
  let x8 := IKcos (j 4)
  let x9 := IKsin (j 4)
  let x10 := 0.075 * x0
  let x11 := 0.08 * x5
  let x12 := 0.32 * x0
  let x13 := 0.08 * x1
  let x14 := 1 * x0
  let x15 := 1 * x5
  let x16 := 0.08 * x0
  let x17 := 0.075 * x5
  let x18 := x3 * x4
  let x19 := x1 * x5
  let x20 := x2 * x3
  let x21 := x1 * x4
  let x22 := x1 * x2
  let x23 := 0.075 * x22
  let x24 := x1 * x11
  let x25 := x0 * x13
  let x26 := 1 * x18
  let eetrans0 := x10 * x22 + x10 + x6 * ((-1) * x16 * x26 + x2 * x25) + x12 * x20 +
      0.3 * x0 * x1 + x12 * x21 + x7 * (x16 * x20 + x25 * x4) + (-1) * x10 * x26
  let x27 := 1 * x18
  let eetrans1 := 0.32 * x19 * x4 + 0.32 * x20 * x5 + x6 * ((-1) * x11 * x27 + x11 * x22) +
      (-1) * x17 * x27 + 0.3 * x19 + x17 + x17 * x22 + x7 * (x11 * x21 + x11 * x20)
  let eetrans2 := 0.33 + x6 * (x13 * x4 + 0.08 * x20) + 0.32 * x18 + 0.075 * x21 + 0.3 * x3 +
      (-0.32) * x22 + x7 * (0.08 * x18 + (-1) * x13 * x2) + 0.075 * x20
  let x28 := 1 * x14
  let eerot0 := x8 * (x6 * ((-1) * x21 * x28 + (-1) * x20 * x28) + x7 * ((-1) * x18 * x28 +
      x0 * x22)) + (-1) * x15 * x9
  let x29 := 1 * x15
  let eerot1 := x8 * (x6 * ((-1) * x20 * x29 + (-1) * x21 * x29) + x7 * ((-1) * x18 * x29 +
      x19 * x2)) + x0 * x9
  let eerot2 := x8 * (x6 * ((-1) * x18 + 1 * x22) + x7 * (x20 + x21))
  ⟨![eetrans0, eetrans1, eetrans2], ![eerot0, eerot1, eerot2]⟩

/-- The joints of `lrmate200ic5h_macro.xacro`. -/
def joints : List (Link K) :=
  [⟨![0, 0, 0.33], 0, 0, 1, unit_z⟩, ⟨![0.075, 0, 0], 0, 1, 0, unit_y⟩,
    ⟨![0, 0, 0.3], 0, -1, 0, unit_y_neg⟩, ⟨![0.32, 0, 0.075], 0, -1, 0, unit_y_neg⟩,
    ⟨![0.08, 0, 0], -1, 0, 0, unit_x_neg⟩]

end Lrmate200ic5h

namespace M430ia2f

/-- `ComputeFk` of `fanuc_m430ia2f_manipulator_ikfast_solver.cpp`. -/
def computeFk (j : Fin 5 → Angle K) : Pose5D K :=
  let x0 := IKcos (j 0)
  let x1 := IKcos (j 2)
  let x2 := IKsin (j 1)
  let x3 := IKcos (j 1)
  let x4 := IKsin (j 2)
  let x5 := IKsin (j 0)
  let x6 := IKcos (j 3)
  let x7 := IKsin (j 3)
  let x8 := IKcos (j 4)
  let x9 := IKsin (j 4)
  let x10 := 1 * x2
  let x11 := 0.55 * x3
  let x12 := 0.065 * x3
  let x13 := 0.55 * x2
  let x14 := 1 * x3
  let x15 := 0.065 * x2
  let x16 := 0.35 * x2
  let x17 := x4 * x5
  let x18 := x0 * x4
  let x19 := x0 * x1
  let x20 := x1 * x5
  let eetrans0 := x0 * x16 + x11 * x18 + 0.095 * x5 + x6 * (x12 * x18 + x15 * x19) +
      x13 * x19 + x7 * (x12 * x19 + (-1) * x15 * x18)
  let eetrans1 := x16 * x5 + x7 * (x12 * x20 + (-1) * x15 * x17) + (-0.095) * x0 + x11 * x17 +
      x6 * (x15 * x20 + x12 * x17) + x13 * x20
  let x21 := 1 * x4
  let eetrans2 := 0.44 + 0.35 * x3 + x7 * ((-1) * x1 * x15 + (-1) * x12 * x21) + x1 * x11 +
      x6 * (x1 * x12 + (-1) * x15 * x21) + (-1) * x13 * x21
  let x22 := 1 * x10
  let eerot0 := (-1) * x5 * x9 + x8 * (x7 * ((-1) * x19 * x22 + (-1) * x14 * x18) +
      x6 * (x19 * x3 + (-1) * x18 * x22))
  let x23 := 1 * x10
  let eerot1 := x0 * x9 + x8 * (x6 * (x20 * x3 + (-1) * x17 * x23) + x7 * ((-1) * x20 * x23 +
      (-1) * x14 * x17))
  let x24 := 1 * x1
  let eerot2 := x8 * (x6 * ((-1) * x14 * x4 + (-1) * x10 * x24) + x7 * (x2 * x4 +
      (-1) * x14 * x24))
  ⟨![eetrans0, eetrans1, eetrans2], ![eerot0, eerot1, eerot2]⟩

/-- The joints of `m430ia2f_macro.xacro`. -/
def joints : List (Link K) :=
  [⟨![0, 0, 0.44], 0, 0, 1, unit_z⟩, ⟨![0, 0, 0], 0, 1, 0, unit_y⟩,
    ⟨![0, -0.095, 0.35], 0, 1, 0, unit_y⟩, ⟨![0, 0, 0.55], 0, 1, 0, unit_y⟩,
    ⟨![0, 0, 0.065], 0, 0, 1, unit_z⟩]

end M430ia2f

end Ik

end FanucDriver
