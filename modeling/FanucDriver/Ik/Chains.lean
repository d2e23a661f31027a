import FanucDriver.Ik.Forward

/-!
# What the solvers compute

* `chain_arm`, `chain_wrist` — the two halves of a six-axis arm, multiplied out.
* `computeFk_m10ia`, `computeFk_m20ib25`, `computeFk_lrmate200ic5h`, `computeFk_m430ia2f` —
  `ComputeFk` is the chain of the robot description, for all joint angles.
* `computeFk_lrmate200id_iff` — for the LR Mate 200iD it is not.
-/

set_option autoImplicit false

namespace FanucDriver

namespace Ik

open Frames

variable {K : Type} [Field K]

/-! ## Rotations about the axes -/

theorem revolute_z (a : Angle K) :
    revolute 0 0 1 a = !![a.cos, -a.sin, 0; a.sin, a.cos, 0; 0, 0, 1] := by
  simp [revolute]

theorem revolute_y (a : Angle K) :
    revolute 0 1 0 a = !![a.cos, 0, a.sin; 0, 1, 0; -a.sin, 0, a.cos] := by
  simp [revolute]

theorem revolute_y_neg (a : Angle K) :
    revolute 0 (-1) 0 a = !![a.cos, 0, -a.sin; 0, 1, 0; a.sin, 0, a.cos] := by
  simp [revolute]

theorem revolute_x_neg (a : Angle K) :
    revolute (-1) 0 0 a = !![1, 0, 0; 0, a.cos, a.sin; 0, -a.sin, a.cos] := by
  simp [revolute]

/-! ## Six-axis arms -/

/-- Joints 1 to 3 of a six-axis arm. -/
def armJoints (d1 a1 a2 : K) : List (Link K) :=
  [⟨![0, 0, d1], 0, 0, 1, unit_z⟩, ⟨![a1, 0, 0], 0, 1, 0, unit_y⟩,
    ⟨![0, 0, a2], 0, -1, 0, unit_y_neg⟩]

/-- Joints 4 to 6. -/
def wristJoints (a3 d4 d6 : K) : List (Link K) :=
  [⟨![0, 0, a3], -1, 0, 0, unit_x_neg⟩, ⟨![d4, 0, 0], 0, -1, 0, unit_y_neg⟩,
    ⟨![d6, 0, 0], -1, 0, 0, unit_x_neg⟩]

/-- Joints 2 and 3 turn about parallel axes. -/
theorem chain_arm (d1 a1 a2 : K) (q1 q2 q3 : Angle K) :
    chain ((armJoints d1 a1 a2).zip [q1, q2, q3]) =
      ⟨![q1.cos * (a1 + a2 * q2.sin), q1.sin * (a1 + a2 * q2.sin), d1 + a2 * q2.cos],
        !![q1.cos * (q2.cos * q3.cos + q2.sin * q3.sin), -q1.sin,
            q1.cos * (q2.sin * q3.cos - q2.cos * q3.sin);
          q1.sin * (q2.cos * q3.cos + q2.sin * q3.sin), q1.cos,
            q1.sin * (q2.sin * q3.cos - q2.cos * q3.sin);
          q2.cos * q3.sin - q2.sin * q3.cos, 0, q2.cos * q3.cos + q2.sin * q3.sin]⟩ := by
  simp only [armJoints, List.zip_cons_cons, List.zip_nil_right, chain, mul_one, Link.frame,
    revolute_z, revolute_y, revolute_y_neg]
  apply Frame.eq_of_entries <;>
    simp only [Frame.mul_p, Frame.mul_M, mulVec_three, Matrix.mul_fin_three, Matrix.cons_add_cons,
      Matrix.empty_add_empty, Matrix.of_apply, Matrix.cons_val] <;>
    refine ⟨?_, ?_, ?_⟩ <;> ring

theorem chain_wrist (a3 d4 d6 : K) (q4 q5 q6 : Angle K) :
    chain ((wristJoints a3 d4 d6).zip [q4, q5, q6]) * tool0 =
      ⟨![d4 + d6 * q5.cos, d6 * q4.sin * q5.sin, a3 + d6 * q4.cos * q5.sin],
        !![-(q5.sin * q6.cos), -(q5.sin * q6.sin), q5.cos;
          q4.cos * q6.sin + q4.sin * q5.cos * q6.cos, q4.sin * q5.cos * q6.sin - q4.cos * q6.cos,
            q4.sin * q5.sin;
          q4.cos * q5.cos * q6.cos - q4.sin * q6.sin, q4.cos * q5.cos * q6.sin + q4.sin * q6.cos,
            q4.cos * q5.sin]⟩ := by
  simp only [wristJoints, List.zip_cons_cons, List.zip_nil_right, chain, mul_one, Link.frame,
    revolute_x_neg, revolute_y_neg]
  apply Frame.eq_of_entries <;>
    simp only [Frame.mul_p, Frame.mul_M, tool0_p, tool0_M, mulVec_three, Matrix.mulVec_zero,
      add_zero, Matrix.mul_fin_three, Matrix.cons_add_cons, Matrix.empty_add_empty,
      Matrix.of_apply, Matrix.cons_val] <;>
    refine ⟨?_, ?_, ?_⟩ <;> ring

theorem ofFn_six (j : Fin 6 → Angle K) : List.ofFn j = [j 0, j 1, j 2] ++ [j 3, j 4, j 5] := by
  simp [List.ofFn_succ]

theorem ofFn_five (j : Fin 5 → Angle K) : List.ofFn j = [j 0, j 1, j 2, j 3, j 4] := by
  simp [List.ofFn_succ]

/-- The tool frame of a six-axis arm. -/
theorem toolFrame_six (d1 a1 a2 a3 d4 d6 : K) (j : Fin 6 → Angle K) :
    toolFrame (armJoints d1 a1 a2 ++ wristJoints a3 d4 d6) tool0 (List.ofFn j) =
      chain ((armJoints d1 a1 a2).zip [j 0, j 1, j 2]) *
        (chain ((wristJoints a3 d4 d6).zip [j 3, j 4, j 5]) * tool0) := by
  have hlen : (armJoints d1 a1 a2).length = [j 0, j 1, j 2].length := rfl
  rw [toolFrame, ofFn_six, List.zip_append hlen, chain_append, mul_assoc]

/-- The entries of `computeFk` and of the chain, written out. -/
theorem computeFk_m10ia (j : Fin 6 → Angle K) :
    (M10ia.computeFk j).frame = toolFrame M10ia.joints tool0 (List.ofFn j) := by
  rw [show (M10ia.joints : List (Link K)) = armJoints 0.45 0.15 0.6 ++ wristJoints 0.2 0.64 0.1
    from rfl, toolFrame_six, chain_arm, chain_wrist]
  simp only [Pose6D.frame, M10ia.computeFk, IKcos, IKsin]
  apply Frame.eq_of_entries <;>
    simp only [Frame.mul_p, Frame.mul_M, mulVec_three, Matrix.mul_fin_three, Matrix.cons_add_cons,
      Matrix.empty_add_empty, Matrix.of_apply, Matrix.cons_val] <;>
    refine ⟨?_, ?_, ?_⟩ <;> ring

theorem computeFk_m20ib25 (j : Fin 6 → Angle K) :
    (M20ib25.computeFk j).frame = toolFrame M20ib25.joints tool0 (List.ofFn j) := by
  rw [show (M20ib25.joints : List (Link K)) =
    armJoints 0.65 0.075 0.905 ++ wristJoints 0.12 0.865 0.1 from rfl, toolFrame_six, chain_arm,
    chain_wrist]
  simp only [Pose6D.frame, M20ib25.computeFk, IKcos, IKsin]
  apply Frame.eq_of_entries <;>
    simp only [Frame.mul_p, Frame.mul_M, mulVec_three, Matrix.mul_fin_three, Matrix.cons_add_cons,
      Matrix.empty_add_empty, Matrix.of_apply, Matrix.cons_val] <;>
    refine ⟨?_, ?_, ?_⟩ <;> ring

theorem computeFk_lrmate200id (j : Fin 6 → Angle K) :
    (Lrmate200id.computeFk j).frame =
      toolFrame Lrmate200id.joints tool0 (List.ofFn (Function.update j 5 (j 5).neg)) := by
  rw [show (Lrmate200id.joints : List (Link K)) =
    armJoints 0.33 0.05 0.33 ++ wristJoints 0.035 0.335 0.08 from rfl, toolFrame_six, chain_arm,
    chain_wrist]
  simp only [Pose6D.frame, Lrmate200id.computeFk, IKcos, IKsin, Angle.neg, Function.update_self,
    ne_eq, Fin.reduceEq, not_false_eq_true, Function.update_of_ne]
  apply Frame.eq_of_entries <;>
    simp only [Frame.mul_p, Frame.mul_M, mulVec_three, Matrix.mul_fin_three, Matrix.cons_add_cons,
      Matrix.empty_add_empty, Matrix.of_apply, Matrix.cons_val] <;>
    refine ⟨?_, ?_, ?_⟩ <;> ring

theorem tool0_isRigid : (tool0 : Frame K).IsRigid where
  orthonormal := by
    rw [tool0_M, Matrix.eta_fin_three (Matrix.transpose _), Matrix.mul_fin_three,
      Matrix.one_fin_three]
    simp [Matrix.transpose_apply]
  det := by
    rw [tool0_M, Matrix.det_fin_three]
    simp

/-- Joint 6 of the LR Mate 200iD turned the other way round: the tool stays where it is, and keeps
its orientation only when the sine is zero. -/
theorem toolFrame_lrmate200id_neg [CharZero K] (j : Fin 6 → Angle K) :
    (toolFrame Lrmate200id.joints tool0 (List.ofFn (Function.update j 5 (j 5).neg))).p =
        (toolFrame Lrmate200id.joints tool0 (List.ofFn j)).p ∧
      (toolFrame Lrmate200id.joints tool0 (List.ofFn (Function.update j 5 (j 5).neg)) =
          toolFrame Lrmate200id.joints tool0 (List.ofFn j) ↔
        (j 5).sin = 0) := by
  rw [show (Lrmate200id.joints : List (Link K)) =
    armJoints 0.33 0.05 0.33 ++ wristJoints 0.035 0.335 0.08 from rfl, toolFrame_six,
    toolFrame_six, chain_wrist, chain_wrist]
  simp only [Function.update_self, ne_eq, Fin.reduceEq, not_false_eq_true, Function.update_of_ne,
    Angle.neg]
  refine ⟨rfl, ?_, ?_⟩
  · intro heq
    -- joints 1 to 3 are the same on both sides
    have hM := congrArg Frame.M ((chain_isRigid _).mul_left_cancel heq)
    have h1 := congrFun (congrFun hM 1) 0
    have h2 := congrFun (congrFun hM 2) 0
    simp only [Matrix.of_apply, Matrix.cons_val] at h1 h2
    have hcos : (j 3).cos * (j 5).sin = 0 := by linear_combination -(1 / 2 : K) * h1
    have hsin : (j 3).sin * (j 5).sin = 0 := by linear_combination (1 / 2 : K) * h2
    linear_combination (j 3).cos * hcos + (j 3).sin * hsin - (j 5).sin * (j 3).sq_add_sq
  · intro hsin
    rw [hsin, neg_zero]

/-- **The solver of the LR Mate 200iD** turns joint 6 the other way round, so it agrees with the
description of the robot where the sine of joint 6 is zero, and nowhere else. -/
theorem computeFk_lrmate200id_iff [CharZero K] (j : Fin 6 → Angle K) :
    (Lrmate200id.computeFk j).frame =
        toolFrame Lrmate200id.joints tool0 (List.ofFn (Function.update j 5 (j 5).neg)) ∧
      ((Lrmate200id.computeFk j).frame = toolFrame Lrmate200id.joints tool0 (List.ofFn j) ↔
        (j 5).sin = 0) := by
  refine ⟨computeFk_lrmate200id j, ?_⟩
  rw [computeFk_lrmate200id]
  exact (toolFrame_lrmate200id_neg j).2

/-- A quarter turn. -/
def quarter : Angle ℚ := ⟨0, 1, by norm_num⟩

theorem computeFk_lrmate200id_iff_quarter :
    (Lrmate200id.computeFk fun _ => quarter).frame ≠
      toolFrame Lrmate200id.joints tool0 (List.ofFn fun _ : Fin 6 => quarter) := by
  rw [Ne, (computeFk_lrmate200id_iff fun _ => quarter).2]
  exact one_ne_zero

/-- The frame of five joints, written out. -/
theorem computeFk_lrmate200ic5h (j : Fin 5 → Angle K) :
    (Lrmate200ic5h.computeFk j).eetrans = (toolFrame Lrmate200ic5h.joints tool0 (List.ofFn j)).p ∧
      ∀ i, (Lrmate200ic5h.computeFk j).eerot i =
        (toolFrame Lrmate200ic5h.joints tool0 (List.ofFn j)).M i 0 := by
  rw [ofFn_five]
  simp only [toolFrame, Lrmate200ic5h.joints, List.zip_cons_cons, List.zip_nil_right, chain,
    mul_one, Link.frame, revolute_z, revolute_x_neg, revolute_y_neg, revolute_y,
    Lrmate200ic5h.computeFk, IKcos, IKsin]
  constructor
  · simp only [Frame.mul_p, mulVec_three, tool0_p, Matrix.mulVec_zero, add_zero,
      Matrix.cons_add_cons, Matrix.empty_add_empty]
    ext i
    fin_cases i <;> simp only [Fin.zero_eta, Fin.mk_one, Fin.reduceFinMk, Matrix.cons_val] <;> ring
  · intro i
    simp only [Frame.mul_M, tool0_M, Matrix.mul_fin_three]
    fin_cases i <;>
      simp only [Fin.zero_eta, Fin.mk_one, Fin.reduceFinMk, Matrix.of_apply, Matrix.cons_val] <;>
      ring

theorem computeFk_m430ia2f (j : Fin 5 → Angle K) :
    (M430ia2f.computeFk j).eetrans = (toolFrame M430ia2f.joints 1 (List.ofFn j)).p ∧
      ∀ i, (M430ia2f.computeFk j).eerot i =
        (toolFrame M430ia2f.joints 1 (List.ofFn j)).M i 0 := by
  rw [ofFn_five]
  simp only [toolFrame, M430ia2f.joints, List.zip_cons_cons, List.zip_nil_right, chain, mul_one,
    Link.frame, revolute_z, revolute_y, M430ia2f.computeFk, IKcos, IKsin]
  constructor
  · simp only [Frame.mul_p, mulVec_three, Matrix.cons_add_cons, Matrix.empty_add_empty]
    ext i
    fin_cases i <;> simp only [Fin.zero_eta, Fin.mk_one, Fin.reduceFinMk, Matrix.cons_val] <;> ring
  · intro i
    simp only [Frame.mul_M, Matrix.mul_fin_three]
    fin_cases i <;>
      simp only [Fin.zero_eta, Fin.mk_one, Fin.reduceFinMk, Matrix.of_apply, Matrix.cons_val] <;>
      ring

end Ik

end FanucDriver
