import Mathlib.Algebra.Order.Field.Basic
import Mathlib.Algebra.Order.Ring.Rat
import Mathlib.Data.Int.Cast.Lemmas
import Mathlib.Data.List.Chain
import Mathlib.Tactic.Ring

/-!
# The joint 2-3 linkage

Both joint interface nodes correct joint 3 for the motion of joint 2: the streamer on the way to
the controller, the relay handler on the way back, with the opposite sign.

* `JointTrajectoryPoint`, `linkageTransform`, `linkageTransformPoint` — the two overloads;
  `JointTrajectoryStreamer.transform`, `JointRelayHandler.transform` — the nodes' uses of them.
* `shear` — the correction as a linear map; it can be undone and commutes with difference
  quotients.
* `Moves` — the velocities of a point are the difference quotients of the positions.
  `moves_sheared` — a correction of positions and velocities would keep this.
* `transform_consistent_iff` — when the correction of the positions alone does.
-/

set_option autoImplicit false

namespace FanucDriver

namespace Linkage

variable {K : Type} [Field K]

/-- `trajectory_msgs/JointTrajectoryPoint` -/
structure JointTrajectoryPoint (K : Type) where
  positions : List K
  velocities : List K
  accelerations : List K
  effort : List K
  timeFromStart : K

/-- The overload for positions; `none` when the assertion on the number of joints fails. -/
def linkageTransform (pointsIn : List K) (J23Factor : K) : Option (List K) :=
  match pointsIn with
  | j1 :: j2 :: j3 :: j4 :: js => some (j1 :: j2 :: (j3 + J23Factor * j2) :: j4 :: js)
  | _ => none

/-- The overload for points: the point is copied, then its positions are replaced. -/
def linkageTransformPoint (ptIn : JointTrajectoryPoint K) (J23Factor : K) :
    Option (JointTrajectoryPoint K) :=
  (linkageTransform ptIn.positions J23Factor).map fun positions =>
    { ptIn with positions := positions }

/-- Points are sent back to the controller, so the factor is inverted. -/
def JointTrajectoryStreamer.transform (J23Factor : Int) (ptIn : JointTrajectoryPoint K) :
    Option (JointTrajectoryPoint K) :=
  linkageTransformPoint ptIn ((-J23Factor : Int) : K)

def JointRelayHandler.transform (J23Factor : Int) (posIn : List K) : Option (List K) :=
  linkageTransform posIn (J23Factor : K)

/-! ## The correction as a linear map -/

/-- A multiple of the second coordinate is added to the third. -/
def shear (c : K) : List K → List K
  | a :: b :: d :: l => a :: b :: (d + c * b) :: l
  | l => l

@[simp] theorem shear_length (c : K) (l : List K) : (shear c l).length = l.length := by
  unfold shear
  split <;> simp

/-- A correction is undone by the opposite one. -/
theorem shear_neg (c : K) (l : List K) : shear c (shear (-c) l) = l := by
  match l with
  | [] | [_] | [_, _] => rfl
  | a :: b :: d :: l =>
    simp only [shear]
    ring_nf

/-- Difference quotients of the coordinates over the time `dt`. -/
def quotients (dt : K) (xs ys : List K) : List K := List.zipWith (fun x y => (y - x) / dt) xs ys

theorem quotients_shear (c dt : K) {xs ys : List K} (hlen : xs.length = ys.length) :
    quotients dt (shear c xs) (shear c ys) = shear c (quotients dt xs ys) := by
  match xs, ys with
  | [], [] | [_], [_] | [_, _], [_, _] => rfl
  | a :: b :: d :: xs, a' :: b' :: d' :: ys =>
    have hthird : (d' + c * b' - (d + c * b)) / dt = (d' - d) / dt + c * ((b' - b) / dt) := by
      rw [← mul_div_assoc, ← add_div]
      ring_nf
    simp only [shear, quotients, List.zipWith_cons_cons, hthird]
  | [], _ :: _ | [_], [] | [_], _ :: _ :: _ | [_, _], [] | [_, _], [_]
  | [_, _], _ :: _ :: _ :: _ | _ :: _ :: _ :: _, [] | _ :: _ :: _ :: _, [_]
  | _ :: _ :: _ :: _, [_, _] => simp at hlen

/-- Only a multiple that is zero leaves the list as it is. -/
theorem shear_eq_self_iff (c : K) {a b d : K} {l : List K} :
    shear c (a :: b :: d :: l) = a :: b :: d :: l ↔ c = 0 ∨ b = 0 := by
  rw [← mul_eq_zero, shear]
  simp only [List.cons.injEq, true_and, and_true, add_eq_left]

theorem linkageTransform_eq (c : K) {l : List K} (h : 3 < l.length) :
    linkageTransform l c = some (shear c l) := by
  match l with
  | _ :: _ :: _ :: _ :: _ => rfl
  | [] | [_] | [_, _] | [_, _, _] => simp at h

/-- What the streamer sends for a point. -/
def sent (J23Factor : Int) (p : JointTrajectoryPoint K) : JointTrajectoryPoint K :=
  { p with positions := shear (-(J23Factor : K)) p.positions }

theorem streamer_transform (J23Factor : Int) {p : JointTrajectoryPoint K}
    (h : 3 < p.positions.length) :
    JointTrajectoryStreamer.transform J23Factor p = some (sent J23Factor p) := by
  rw [JointTrajectoryStreamer.transform, linkageTransformPoint, linkageTransform_eq _ h,
    Int.cast_neg]
  rfl

/-- Positions come back from the controller as they were sent. -/
theorem relay_transform_sent (J23Factor : Int) {p : JointTrajectoryPoint K}
    (h : 3 < p.positions.length) :
    JointRelayHandler.transform J23Factor (sent J23Factor p).positions = some p.positions := by
  rw [JointRelayHandler.transform, linkageTransform_eq _ (by simpa [sent] using h), sent,
    shear_neg]

/-! ## Velocities -/

variable [LinearOrder K]

/-- From `p` to `q` the time and the joints move on, and the velocities of `q` are the difference
quotients of the positions. -/
structure Moves (p q : JointTrajectoryPoint K) : Prop where
  elapsed : p.timeFromStart < q.timeFromStart
  joints : p.positions.length = q.positions.length
  velocities : q.velocities =
    quotients (q.timeFromStart - p.timeFromStart) p.positions q.positions

/-- **A correction of positions and velocities keeps the velocities accurate.** -/
theorem moves_sheared (c : K) {p q : JointTrajectoryPoint K} (h : Moves p q) :
    Moves { p with positions := shear c p.positions, velocities := shear c p.velocities }
      { q with positions := shear c q.positions, velocities := shear c q.velocities } where
  elapsed := h.elapsed
  joints := by simpa using h.joints
  velocities := by rw [quotients_shear c _ h.joints, ← h.velocities]

variable [IsStrictOrderedRing K]

/-- Joint 2 is where it was. -/
def Joint2Still (p q : JointTrajectoryPoint K) : Prop := p.positions[1]? = q.positions[1]?

/-- The correction of the positions alone. -/
theorem moves_sent_iff (J23Factor : Int) {p q : JointTrajectoryPoint K} (h : Moves p q)
    (hq : 3 < q.positions.length) :
    Moves (sent J23Factor p) (sent J23Factor q) ↔ J23Factor = 0 ∨ Joint2Still p q := by
  have hdt : q.timeFromStart - p.timeFromStart ≠ 0 := sub_ne_zero.mpr h.elapsed.ne'
  have hp : 3 < p.positions.length := h.joints ▸ hq
  -- the velocities sent are those of the original, the positions are not
  have hsame : Moves (sent J23Factor p) (sent J23Factor q) ↔
      shear (-(J23Factor : K)) q.velocities = q.velocities := by
    constructor
    · intro hs
      have hvel := hs.velocities
      simp only [sent] at hvel
      rw [quotients_shear _ _ h.joints, ← h.velocities] at hvel
      exact hvel.symm
    · intro hs
      refine ⟨h.elapsed, by simpa [sent] using h.joints, ?_⟩
      simp only [sent]
      rw [quotients_shear _ _ h.joints, ← h.velocities, hs]
  rw [hsame, h.velocities, Joint2Still]
  match hpp : p.positions, hqq : q.positions, hp, hq with
  | _ :: x :: _ :: _ :: _, _ :: y :: _ :: _ :: _, _, _ =>
    simp only [quotients, List.zipWith_cons_cons, shear_eq_self_iff, neg_eq_zero,
      Int.cast_eq_zero, div_eq_zero_iff, hdt, or_false, sub_eq_zero, List.getElem?_cons_succ,
      List.getElem?_cons_zero, Option.some.injEq]
    exact or_congr_right eq_comm

/-! ## Trajectories -/

theorem mapM_eq_map {α β : Type} {f : α → Option β} {g : α → β} {l : List α}
    (h : ∀ a ∈ l, f a = some (g a)) : l.mapM f = some (l.map g) := by
  induction l with
  | nil => rfl
  | cons a l ih =>
    rw [List.forall_mem_cons] at h
    rw [List.mapM_cons, h.1, ih h.2]
    rfl

/-- A trajectory whose velocities are the difference quotients of its positions. -/
def Trajectory (ps : List (JointTrajectoryPoint K)) : Prop := ps.IsChain Moves

theorem trajectory_sent_iff (J23Factor : Int) {ps : List (JointTrajectoryPoint K)}
    (hps : Trajectory ps) (hsize : ∀ p ∈ ps, 3 < p.positions.length) :
    Trajectory (ps.map (sent J23Factor)) ↔ J23Factor = 0 ∨ ps.IsChain Joint2Still := by
  simp only [Trajectory, List.isChain_map] at hps ⊢
  rw [List.isChain_iff_getElem] at hps ⊢
  rw [List.isChain_iff_getElem]
  have hpair : ∀ i (hi : i + 1 < ps.length), Moves (sent J23Factor ps[i]) (sent J23Factor ps[i + 1])
      ↔ J23Factor = 0 ∨ Joint2Still ps[i] ps[i + 1] :=
    fun i hi => moves_sent_iff J23Factor (hps i hi) (hsize _ (List.getElem_mem hi))
  simp only [hpair, forall_or_left]

/-- **When the correction is consistent.**  The positions always come back; the velocities stay
the difference quotients of the positions only with the factor zero or with joint 2 at rest. -/
theorem transform_consistent_iff (J23Factor : Int) {ps : List (JointTrajectoryPoint K)}
    (hsize : ∀ p ∈ ps, 3 < p.positions.length) :
    ∃ qs, ps.mapM (JointTrajectoryStreamer.transform J23Factor) = some qs ∧
      ((qs.mapM (fun q => JointRelayHandler.transform J23Factor q.positions) =
            some (ps.map JointTrajectoryPoint.positions) ∧
          (Trajectory ps → Trajectory qs)) ↔
        (Trajectory ps → J23Factor = 0 ∨ ps.IsChain Joint2Still)) := by
  refine ⟨ps.map (sent J23Factor), mapM_eq_map fun p hp => streamer_transform _ (hsize p hp), ?_⟩
  have hback : (ps.map (sent J23Factor)).mapM
      (fun q => JointRelayHandler.transform J23Factor q.positions) =
        some (ps.map JointTrajectoryPoint.positions) := by
    rw [List.mapM_map]
    exact mapM_eq_map fun p hp => relay_transform_sent _ (hsize p hp)
  rw [and_iff_right hback]
  exact forall_congr' fun hps => trajectory_sent_iff J23Factor hps hsize

/-- Three poses of a six-axis robot, one second apart; only joint 1 moves. -/
def turn : List (JointTrajectoryPoint ℚ) :=
  [⟨[0, 1, 2, 0, 0, 0], [0, 0, 0, 0, 0, 0], [], [], 0⟩,
    ⟨[1, 1, 2, 0, 0, 0], [1, 0, 0, 0, 0, 0], [], [], 1⟩,
    ⟨[3, 1, 2, 0, 0, 0], [2, 0, 0, 0, 0, 0], [], [], 2⟩]

theorem transform_consistent_turn :
    ∃ qs, turn.mapM (JointTrajectoryStreamer.transform 1) = some qs ∧
      ((qs.mapM (fun q => JointRelayHandler.transform 1 q.positions) =
            some (turn.map JointTrajectoryPoint.positions) ∧
          (Trajectory turn → Trajectory qs)) ↔
        (Trajectory turn → (1 : Int) = 0 ∨ turn.IsChain Joint2Still)) :=
  transform_consistent_iff 1 (by decide)

/-- Joint 2 moves by one in one second. -/
def lift : List (JointTrajectoryPoint ℚ) :=
  [⟨[0, 0, 0, 0], [0, 0, 0, 0], [], [], 0⟩, ⟨[0, 1, 0, 0], [0, 1, 0, 0], [], [], 1⟩]

/-- With the factor one, joint 3 is sent to -1 with the velocity 0. -/
theorem transform_consistent_lift :
    ∃ qs, lift.mapM (JointTrajectoryStreamer.transform 1) = some qs ∧
      (∀ p ∈ lift, 3 < p.positions.length) ∧ Trajectory lift ∧ ¬ Trajectory qs := by
  have hlift : Trajectory lift := by
    rw [Trajectory, lift, List.isChain_pair]
    exact ⟨by norm_num, rfl, by simp [quotients]⟩
  have hsize : ∀ p ∈ lift, 3 < p.positions.length := by decide
  refine ⟨_, mapM_eq_map fun p hp => streamer_transform 1 (hsize p hp), hsize, hlift, ?_⟩
  rw [trajectory_sent_iff 1 hlift hsize, lift, List.isChain_pair]
  simp [Joint2Still]

end Linkage

end FanucDriver
