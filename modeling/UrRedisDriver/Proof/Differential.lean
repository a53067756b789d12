import UrRedisDriver.Lib.Twist
import UrRedisDriver.Trajectory.Kinematics

/-!
# The Jacobian is the derivative of the forward kinematics

The pose of the flange is the motion up to a joint, the turn of that joint, and the motion
after it. Only the turn depends on the angle of the joint, and its axis is the third of the
frame before it, which is the one the Jacobian takes.
-/

namespace UrRedisDriver.Proof

open UrRedisDriver UnitQuaternion Matrix
open scoped Literals

noncomputable section

variable {dh : DhParameters} {q : Joints ℝ} {i : Fin 6}

/-! ## The arm, cut at one joint -/

theorem foldl_mul_eq_prod {α M : Type} [Monoid M] (f : α → M) (as : List α) (a : M) :
    as.foldl (fun m x => m * f x) a = a * (as.map f).prod := by
  induction as generalizing a with
  | nil => rw [List.map_nil, List.prod_nil, mul_one, List.foldl_nil]
  | cons x xs ih => rw [List.foldl_cons, ih, List.map_cons, List.prod_cons, mul_assoc]

/-- The frame before joint `i`. -/
def before (dh : DhParameters) (q : Joints ℝ) (i : Fin 6) : Pose :=
  (((List.finRange 6).take i).map (dh.link q)).prod

/-- The motion from that joint's turn to the flange. -/
def after (dh : DhParameters) (q : Joints ℝ) (i : Fin 6) : Pose :=
  Pose.translation 0 0 (dh.row i).1 * Pose.translation (dh.row i).2.1 0 0
    * Pose.rotation (fromAxisAngle Vec3.xAxis (dh.row i).2.2)
    * (((List.finRange 6).drop (i + 1)).map (dh.link q)).prod

theorem forwardKinematics_eq_turning (dh : DhParameters) (q : Joints ℝ) (i : Fin 6) :
    forwardKinematics dh q = Motion.turning (before dh q i) (after dh q i) (q i) := by
  have hcut : ∀ i : Fin 6, List.finRange 6
      = (List.finRange 6).take i ++ i :: (List.finRange 6).drop (i + 1) := by decide
  rw [forwardKinematics, foldl_mul_eq_prod, one_mul, hcut i, List.map_append, List.map_cons,
    List.prod_append, List.prod_cons]
  unfold Motion.turning before after
  simp only [mul_assoc, DhParameters.link, dhTransform]
  rfl

/-- Neither part depends on the angle of the joint. -/
theorem before_update (t : ℝ) : before dh (Function.update q i t) i = before dh q i := by
  have hother : ∀ i : Fin 6, ∀ j ∈ (List.finRange 6).take i, j ≠ i := by decide
  unfold before
  congr 1
  refine List.map_congr_left fun j hj => ?_
  unfold DhParameters.link
  rw [Function.update_of_ne (hother i j hj)]

theorem after_update (t : ℝ) : after dh (Function.update q i t) i = after dh q i := by
  have hother : ∀ i : Fin 6, ∀ j ∈ (List.finRange 6).drop (i + 1), j ≠ i := by decide
  unfold after
  congr 2
  refine List.map_congr_left fun j hj => ?_
  unfold DhParameters.link
  rw [Function.update_of_ne (hother i j hj)]

theorem forwardKinematics_update (dh : DhParameters) (q : Joints ℝ) (i : Fin 6) (t : ℝ) :
    forwardKinematics dh (Function.update q i t)
      = Motion.turning (before dh q i) (after dh q i) t := by
  rw [forwardKinematics_eq_turning dh _ i, before_update, after_update, Function.update_self]

/-! ## The columns of the Jacobian -/

theorem forwardKinematicsAll_flange : forwardKinematicsAll dh q 5 = forwardKinematics dh q := rfl

/-- The Jacobian takes the axis from the frame before the joint. -/
theorem jointAxis_eq : jointAxis (forwardKinematicsAll dh q) i
    = (Motion.axis (before dh q i), (before dh q i).trans) := by
  unfold jointAxis
  by_cases h0 : i = 0
  · subst h0
    rw [if_pos rfl]
    simp [before, Motion.axis]
  · have hprev : ∀ i : Fin 6, i ≠ 0 → (i - 1 : Fin 6).val + 1 = i.val := by decide
    have hframe : forwardKinematicsAll dh q (i - 1) = before dh q i := by
      rw [forwardKinematicsAll, hprev i h0, foldl_mul_eq_prod, one_mul]
      rfl
    rw [if_neg h0, hframe]
    rfl

/-- The rows for the velocity of the flange. -/
def linearPart (J : Matrix (Fin 6) (Fin 6) ℝ) (i : Fin 6) : Vec3 := ![J 0 i, J 1 i, J 2 i]

/-- The rows for the angular velocity. -/
def angularPart (J : Matrix (Fin 6) (Fin 6) ℝ) (i : Fin 6) : Vec3 := ![J 3 i, J 4 i, J 5 i]

theorem angularPart_jacobian : angularPart (jacobian dh q) i = Motion.axis (before dh q i) := by
  have haxis : angularPart (jacobian dh q) i = (jointAxis (forwardKinematicsAll dh q) i).1 := by
    ext r
    fin_cases r <;> rfl
  rw [haxis, jointAxis_eq]

theorem linearPart_jacobian : linearPart (jacobian dh q) i
    = Motion.axis (before dh q i)
      ⨯₃ ((forwardKinematics dh q).trans - (before dh q i).trans) := by
  have hlinear : linearPart (jacobian dh q) i = (jointAxis (forwardKinematicsAll dh q) i).1
      ⨯₃ ((forwardKinematicsAll dh q 5).trans - (jointAxis (forwardKinematicsAll dh q) i).2) := by
    ext r
    fin_cases r <;> rfl
  rw [hlinear, jointAxis_eq, forwardKinematicsAll_flange]

/--
**The Jacobian.** Its upper rows are the derivative of the flange's position by the angle of
a joint, its lower ones the angular velocity `w` for which the flange's turn changes at the
rate `[w]× R`.
-/
theorem jacobian_hasDerivAt (dh : DhParameters) (q : Joints ℝ) (i : Fin 6) :
    (∀ r, HasDerivAt (fun t => (forwardKinematics dh (Function.update q i t)).trans r)
        (linearPart (jacobian dh q) i r) (q i))
      ∧ ∀ r c, HasDerivAt (fun t => matrix (forwardKinematics dh (Function.update q i t)).rot r c)
        ((skew (angularPart (jacobian dh q) i) * matrix (forwardKinematics dh q).rot) r c)
        (q i) := by
  constructor
  · intro r
    simp only [forwardKinematics_update]
    rw [linearPart_jacobian, forwardKinematics_eq_turning dh q i]
    exact Motion.hasDerivAt_turning_trans _ _ _ r
  · intro r c
    simp only [forwardKinematics_update]
    rw [angularPart_jacobian, forwardKinematics_eq_turning dh q i]
    exact Motion.hasDerivAt_turning_matrix _ _ _ r c

end

end UrRedisDriver.Proof
