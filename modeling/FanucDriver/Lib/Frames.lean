import Mathlib.LinearAlgebra.Matrix.Notation
import Mathlib.LinearAlgebra.UnitaryGroup
import Mathlib.Tactic.FinCases
import Mathlib.Tactic.LinearCombination
import Mathlib.Tactic.Ring

/-!
# Frames and serial chains

Rigid motions of three-dimensional space over a commutative ring, as robot descriptions use
them.

* `Angle` — an angle, given by its cosine and sine.
* `Frame` — a position and a matrix; frames form a monoid.
* `Frame.IsRigid` — the matrix is a rotation; products of rigid frames are rigid.
* `revolute`, `Link`, `chain` — a rotation about an axis, a joint with the offset before it, and
  the frame at the end of a list of joints.
* `chain_isRigid` — the chain of joints with unit axes is rigid, for all joint angles.
-/

set_option autoImplicit false

namespace Frames

variable {K : Type} [CommRing K]

/-! ## Angles -/

/-- An angle by its cosine and sine. -/
@[ext] structure Angle (K : Type) [CommRing K] where
  cos : K
  sin : K
  sq_add_sq : cos ^ 2 + sin ^ 2 = 1

/-- The angle zero. -/
def Angle.zero : Angle K := ⟨1, 0, by simp⟩

/-- The same angle the other way round. -/
def Angle.neg (a : Angle K) : Angle K := ⟨a.cos, -a.sin, by rw [neg_sq, a.sq_add_sq]⟩

/-! ## Frames -/

/-- A frame: the position of its origin and the matrix of its axes. -/
@[ext] structure Frame (K : Type) where
  p : Fin 3 → K
  M : Matrix (Fin 3) (Fin 3) K

namespace Frame

/-- A frame given in another one. -/
instance : Mul (Frame K) := ⟨fun f g => ⟨f.p + f.M.mulVec g.p, f.M * g.M⟩⟩

instance : One (Frame K) := ⟨⟨0, 1⟩⟩

@[simp] theorem mul_p (f g : Frame K) : (f * g).p = f.p + f.M.mulVec g.p := rfl

@[simp] theorem mul_M (f g : Frame K) : (f * g).M = f.M * g.M := rfl

@[simp] theorem one_p : (1 : Frame K).p = 0 := rfl

@[simp] theorem one_M : (1 : Frame K).M = 1 := rfl

instance : Monoid (Frame K) where
  mul_assoc f g h := by
    ext1
    · rw [mul_p, mul_p, mul_p, mul_p, mul_M, Matrix.mulVec_add, Matrix.mulVec_mulVec, add_assoc]
    · rw [mul_M, mul_M, mul_M, mul_M, mul_assoc]
  one_mul f := by ext1 <;> simp
  mul_one f := by ext1 <;> simp

omit [CommRing K] in
/-- Frames with the same entries. -/
theorem eq_of_entries {f g : Frame K} (hp : f.p 0 = g.p 0 ∧ f.p 1 = g.p 1 ∧ f.p 2 = g.p 2)
    (h0 : f.M 0 0 = g.M 0 0 ∧ f.M 0 1 = g.M 0 1 ∧ f.M 0 2 = g.M 0 2)
    (h1 : f.M 1 0 = g.M 1 0 ∧ f.M 1 1 = g.M 1 1 ∧ f.M 1 2 = g.M 1 2)
    (h2 : f.M 2 0 = g.M 2 0 ∧ f.M 2 1 = g.M 2 1 ∧ f.M 2 2 = g.M 2 2) : f = g := by
  obtain ⟨p0, p1, p2⟩ := hp
  obtain ⟨m00, m01, m02⟩ := h0
  obtain ⟨m10, m11, m12⟩ := h1
  obtain ⟨m20, m21, m22⟩ := h2
  ext i k
  · fin_cases i <;> assumption
  · fin_cases i <;> fin_cases k <;> assumption

/-- The axes are orthonormal and right-handed. -/
structure IsRigid (f : Frame K) : Prop where
  orthonormal : f.M.transpose * f.M = 1
  det : f.M.det = 1

theorem IsRigid.one : (1 : Frame K).IsRigid := ⟨by simp, by simp⟩

theorem IsRigid.mul {f g : Frame K} (hf : f.IsRigid) (hg : g.IsRigid) : (f * g).IsRigid where
  orthonormal := by
    rw [mul_M, Matrix.transpose_mul, mul_assoc, ← mul_assoc f.M.transpose, hf.orthonormal,
      one_mul, hg.orthonormal]
  det := by rw [mul_M, Matrix.det_mul, hf.det, hg.det, one_mul]

/-- A rigid frame can be undone. -/
theorem IsRigid.mul_left_cancel {f g h : Frame K} (hf : f.IsRigid) (heq : f * g = f * h) :
    g = h := by
  have hundo : ∀ k : Frame K, f.M.transpose.mulVec ((f * k).p - f.p) = k.p ∧
      f.M.transpose * (f * k).M = k.M := by
    intro k
    rw [mul_p, mul_M, add_sub_cancel_left, Matrix.mulVec_mulVec, ← mul_assoc, hf.orthonormal,
      Matrix.one_mulVec, one_mul]
    exact ⟨rfl, rfl⟩
  ext1
  · rw [← (hundo g).1, heq, (hundo h).1]
  · rw [← (hundo g).2, heq, (hundo h).2]

/-- Two different axes of a rigid frame are perpendicular. -/
theorem IsRigid.perpendicular {f : Frame K} (h : f.IsRigid) {i j : Fin 3} (hij : i ≠ j) :
    f.M 0 i * f.M 0 j + f.M 1 i * f.M 1 j + f.M 2 i * f.M 2 j = 0 := by
  have hentry := congrFun (congrFun h.orthonormal i) j
  rw [Matrix.mul_apply, Matrix.one_apply_ne hij, Fin.sum_univ_three] at hentry
  exact hentry

/-- The axes of a rigid frame have length one. -/
theorem IsRigid.unit {f : Frame K} (h : f.IsRigid) (i : Fin 3) :
    f.M 0 i ^ 2 + f.M 1 i ^ 2 + f.M 2 i ^ 2 = 1 := by
  have hentry := congrFun (congrFun h.orthonormal i) i
  rw [Matrix.mul_apply, Matrix.one_apply_eq, Fin.sum_univ_three] at hentry
  simpa only [Matrix.transpose_apply, sq] using hentry

end Frame

/-! ## Joints -/

/-- The rotation by `a` about the axis `(x, y, z)`. -/
def revolute (x y z : K) (a : Angle K) : Matrix (Fin 3) (Fin 3) K :=
  !![x * x * (1 - a.cos) + a.cos, x * y * (1 - a.cos) - z * a.sin,
      x * z * (1 - a.cos) + y * a.sin;
    y * x * (1 - a.cos) + z * a.sin, y * y * (1 - a.cos) + a.cos,
      y * z * (1 - a.cos) - x * a.sin;
    z * x * (1 - a.cos) - y * a.sin, z * y * (1 - a.cos) + x * a.sin,
      z * z * (1 - a.cos) + a.cos]

/-- A revolute joint: the offset of its frame and its axis. -/
structure Link (K : Type) [CommRing K] where
  offset : Fin 3 → K
  x : K
  y : K
  z : K
  unit : x ^ 2 + y ^ 2 + z ^ 2 = 1

/-- Where the link is when the joint has turned by `a`. -/
def Link.frame (l : Link K) (a : Angle K) : Frame K := ⟨l.offset, revolute l.x l.y l.z a⟩

/-- Rotations about unit axes are rotations: the columns have length one, are perpendicular, and
the determinant is one. -/
theorem Link.frame_isRigid (l : Link K) (a : Angle K) : (l.frame a).IsRigid := by
  obtain ⟨offset, x, y, z, hunit⟩ := l
  obtain ⟨c, s, hcs⟩ := a
  constructor
  · ext i j
    fin_cases i <;> fin_cases j <;>
      simp only [Link.frame, revolute, Matrix.mul_apply, Fin.sum_univ_three, Matrix.transpose_apply,
        Fin.zero_eta, Fin.mk_one, Fin.reduceFinMk, Matrix.of_apply, Matrix.cons_val,
        Matrix.one_apply_eq, ne_eq, Fin.reduceEq, not_false_eq_true, Matrix.one_apply_ne]
    · linear_combination (1 - x ^ 2) * hcs + (s ^ 2 + (1 - c) ^ 2 * x ^ 2) * hunit
    · linear_combination -(x * y) * hcs + (1 - c) ^ 2 * x * y * hunit
    · linear_combination -(x * z) * hcs + (1 - c) ^ 2 * x * z * hunit
    · linear_combination -(x * y) * hcs + (1 - c) ^ 2 * x * y * hunit
    · linear_combination (1 - y ^ 2) * hcs + (s ^ 2 + (1 - c) ^ 2 * y ^ 2) * hunit
    · linear_combination -(y * z) * hcs + (1 - c) ^ 2 * y * z * hunit
    · linear_combination -(x * z) * hcs + (1 - c) ^ 2 * x * z * hunit
    · linear_combination -(y * z) * hcs + (1 - c) ^ 2 * y * z * hunit
    · linear_combination (1 - z ^ 2) * hcs + (s ^ 2 + (1 - c) ^ 2 * z ^ 2) * hunit
  · simp only [Link.frame, revolute, Matrix.det_fin_three, Matrix.of_apply, Matrix.cons_val]
    linear_combination hcs + (s ^ 2 + (1 - c) * (c ^ 2 + s ^ 2 * (x ^ 2 + y ^ 2 + z ^ 2))) * hunit

/-- A matrix applied to a vector, both written out. -/
theorem mulVec_three (a b c d e f g h i x y z : K) :
    !![a, b, c; d, e, f; g, h, i].mulVec ![x, y, z] =
      ![a * x + b * y + c * z, d * x + e * y + f * z, g * x + h * y + i * z] := by
  ext k
  fin_cases k <;> simp [Matrix.mulVec, dotProduct, Fin.sum_univ_three]

/-- The frame at the end of a chain of joints. -/
def chain : List (Link K × Angle K) → Frame K
  | [] => 1
  | (l, a) :: ls => l.frame a * chain ls

theorem chain_append (as bs : List (Link K × Angle K)) :
    chain (as ++ bs) = chain as * chain bs := by
  induction as with
  | nil => rw [List.nil_append, chain, one_mul]
  | cons a as ih => rw [List.cons_append, chain, chain, ih, mul_assoc]

theorem chain_isRigid (ls : List (Link K × Angle K)) : (chain ls).IsRigid := by
  induction ls with
  | nil => exact .one
  | cons la ls ih => exact (la.1.frame_isRigid la.2).mul ih

end Frames
