import UrRedisDriver.Proof.InverseKinematics
import Mathlib.Analysis.Real.Pi.Bounds

/-!
# A pose in front of the base

A flange with no turn, at distance `d4` to the side of the base and at height `z`. Every
angle but those of the two links is a multiple of a quarter turn.
-/

namespace UrRedisDriver.Proof

open UrRedisDriver
open scoped Literals

noncomputable section

variable {dh : DhParameters} {T : Pose} {z : ℝ}

/-- The pose has no turn and stands at `(0, -d4, z)`. -/
structure Ahead (dh : DhParameters) (T : Pose) (z : ℝ) : Prop where
  rot : T.rot = 1
  trans : T.trans = ![0, -dh.d4, z]
  d4 : 0 < dh.d4
  d6 : dh.d6 ≠ 0

/-- The cosine of the elbow at that height. -/
def elbow (dh : DhParameters) (z : ℝ) : ℝ :=
  (dh.d5 ^ 2 + (z - dh.d6 - dh.d1) ^ 2 - dh.a2 * dh.a2 - dh.a3 * dh.a3) / (2 * dh.a2 * dh.a3)

namespace Ahead

variable (h : Ahead dh T z)
include h

theorem theta1 : theta1Branches dh T = [0, 0] := by
  have hr : √(0 + -dh.d4 * -dh.d4) = dh.d4 := by
    rw [show 0 + -dh.d4 * -dh.d4 = dh.d4 ^ 2 by ring, Real.sqrt_sq h.d4.le]
  have hbase : Angle.atan2 0 dh.d4 = 0 := Complex.arg_ofReal_of_nonneg h.d4.le
  have h02 : (1 : Matrix (Fin 3) (Fin 3) ℝ) 0 2 = 0 := rfl
  have h12 : (1 : Matrix (Fin 3) (Fin 3) ℝ) 1 2 = 0 := rfl
  simp only [theta1Branches, h.rot, h.trans, UnitQuaternion.matrix_one, h02, h12,
    Matrix.cons_val_zero, Matrix.cons_val_one, mul_zero, sub_zero, neg_neg, hr, hbase,
    abs_of_pos h.d4, lt_irrefl, if_false, div_self h.d4.ne']
  rw [Angle.clamp_of_mem (by norm_num) le_rfl, Real.arccos_one]
  simp

theorem c5 : c5Raw dh T 0 = 0 := by
  simp [c5Raw, h.trans]

theorem theta5 {θ5 : ℝ} (hθ5 : θ5 ∈ theta5Branches dh T 0) :
    Real.sin θ5 = 1 ∨ Real.sin θ5 = -1 := by
  have hchoice := (mem_choices hθ5).2
  rw [h.c5, Angle.clamp_of_mem (by norm_num) zero_le_one, Real.arccos_zero] at hchoice
  rcases hchoice with rfl | rfl
  · exact .inl Real.sin_pi_div_two
  · exact .inr (by rw [Real.sin_neg, Real.sin_pi_div_two])

/-- Joint 6 makes a quarter turn. -/
theorem theta6 {θ5 : ℝ} (hθ5 : Real.sin θ5 = 1 ∨ Real.sin θ5 = -1) :
    Real.cos (theta6 T 0 θ5) = 0 := by
  have habs : |Real.sin θ5| = 1 := by
    rcases hθ5 with h1 | h1 <;> rw [h1]
    · exact abs_one
    · rw [abs_neg, abs_one]
  have hs : ¬ |Real.sin θ5| < singularEps := by
    rw [habs, singularEps]
    norm_num
  -- joint 5 stands at a right angle, so joint 6 is well defined
  have h5 : Real.cos θ5 = 0 := by
    have hone := Real.sin_sq_add_cos_sq θ5
    rw [← sq_abs (Real.sin θ5), habs] at hone
    exact pow_eq_zero_iff two_ne_zero |>.mp (by linarith)
  have halong : ∀ j : Fin 3, j ≠ 1 → along T 0 j = 0 := by
    intro j hj
    rw [along, h.rot, UnitQuaternion.matrix_one, Matrix.one_apply_ne' hj, Real.sin_zero]
    ring
  have hmul := (theta6_eq hs ((halong 2 (by decide)).trans h5.symm)).1
  rw [halong 0 (by decide)] at hmul
  rcases hθ5 with h1 | h1 <;> rw [h1] at hmul <;> linarith

/-- The cosine of the elbow, for every choice at the wrist. -/
theorem c3 {θ5 : ℝ} (hθ5 : θ5 ∈ theta5Branches dh T 0) :
    c3Raw dh (t14 dh T 0 θ5 (UrRedisDriver.theta6 T 0 θ5)) = elbow dh z := by
  have hT : T = ⟨1, ![0, -dh.d4, z]⟩ := Motion.ext h.rot h.trans
  have hone := Real.sin_sq_add_cos_sq (UrRedisDriver.theta6 T 0 θ5)
  rw [h.theta6 (h.theta5 hθ5)] at hone
  have hreach := t14_ahead dh ![0, -dh.d4, z] θ5 (UrRedisDriver.theta6 T 0 θ5)
  rw [← hT] at hreach
  rw [c3Raw, hreach.1, hreach.2, elbow]
  congr 3
  simp
  linear_combination dh.d5 ^ 2 * hone

theorem theta1_eq {θ1 : ℝ} (hθ1 : θ1 ∈ theta1Branches dh T) : θ1 = 0 := by
  rw [h.theta1] at hθ1
  exact (List.mem_pair.mp hθ1).elim id id

/-- No branch is clamped if the pose is within reach, and the wrist is well bent. -/
theorem unclamped (hreach : |elbow dh z| ≤ 1) {θ1 θ5 : ℝ} (hθ1 : θ1 ∈ theta1Branches dh T)
    (hθ5 : θ5 ∈ theta5Branches dh T θ1) : |c5Raw dh T θ1| ≤ 1
      ∧ |c3Raw dh (t14 dh T θ1 θ5 (UrRedisDriver.theta6 T θ1 θ5))| ≤ 1
      ∧ singularEps ≤ |Real.sin θ5| := by
  have hzero := h.theta1_eq hθ1
  subst hzero
  refine ⟨?_, ?_, ?_⟩
  · rw [h.c5, abs_zero]
    exact zero_le_one
  · rw [h.c3 hθ5]
    exact hreach
  · rcases h.theta5 hθ5 with hs | hs <;> rw [hs, singularEps]
    · norm_num
    · norm_num

/-- The closed form is right about the pose, if it is within reach. -/
theorem same (h2 : dh.a2 ≠ 0) (h3 : dh.a3 ≠ 0) (hreach : |elbow dh z| ≤ 1) :
    ∀ sol ∈ inverseKinematics dh T, Motion.Same (forwardKinematics dh sol) T := by
  intro sol hsol
  obtain ⟨θ1, hθ1, θ5, hθ5, θ3, hθ3, rfl⟩ := mem_inverseKinematics.mp hsol
  obtain ⟨hc5, hc3, hs5⟩ := h.unclamped hreach hθ1 hθ5
  exact choice_same h.d6 h2 h3 hθ1 hθ5 hθ3 hc5 hc3 (.inr hs5)

/-- Every branch leaves joint 1 where it is. -/
theorem first {sol : Joints ℝ} (hsol : sol ∈ inverseKinematics dh T) : sol 0 = 0 := by
  obtain ⟨θ1, hθ1, θ5, -, θ3, -, rfl⟩ := mem_inverseKinematics.mp hsol
  rw [h.theta1_eq hθ1]
  exact wrapToPi_of_mem (neg_lt_zero.mpr Real.pi_pos) Real.pi_pos.le

/-- One branch has its elbow bent by a quarter turn at most. -/
theorem reached (hlo : 0 ≤ elbow dh z) (hhi : elbow dh z ≤ 1) :
    ∃ sol ∈ inverseKinematics dh T, (∀ i, |sol i| ≤ Real.pi) ∧ |sol 2| ≤ Real.pi / 2 := by
  have hpi := Real.pi_pos
  -- the wrist to one side and the elbow up
  have h5 : Real.pi / 2 ∈ theta5Branches dh T 0 := by
    have hneg : ¬ (0 : ℝ) > 1 + reachTolerance := by
      rw [reachTolerance]
      norm_num
    unfold theta5Branches
    dsimp only
    rw [h.c5, abs_zero, if_neg hneg, Angle.clamp_of_mem (by norm_num) zero_le_one,
      Real.arccos_zero]
    exact List.mem_cons_self
  let t := t14 dh T 0 (Real.pi / 2) (UrRedisDriver.theta6 T 0 (Real.pi / 2))
  have hc3 : c3Raw dh t = elbow dh z := h.c3 h5
  have h3 : Real.arccos (elbow dh z) ∈ theta3Branches dh t := by
    have hneg : ¬ |elbow dh z| > 1 + reachTolerance := by
      rw [abs_of_nonneg hlo, reachTolerance]
      linarith
    unfold theta3Branches
    dsimp only
    rw [hc3, if_neg hneg, Angle.clamp_of_mem (by linarith) hhi]
    exact List.mem_cons_self
  have h1 : (0 : ℝ) ∈ theta1Branches dh T := by
    rw [h.theta1]
    exact List.mem_cons_self
  refine ⟨_, mem_inverseKinematics.mpr ⟨0, h1, Real.pi / 2, h5, _, h3, rfl⟩, ?_, ?_⟩
  · intro i
    obtain ⟨hl, hu⟩ := wrapToPi_mem (branch dh T 0 (Real.pi / 2) (Real.arccos (elbow dh z)) i)
    exact abs_le.mpr ⟨hl.le, hu⟩
  · have hge := Real.arccos_nonneg (elbow dh z)
    have hle : Real.arccos (elbow dh z) ≤ Real.pi / 2 := Real.arccos_le_pi_div_two.mpr hlo
    have hwrap := wrapToPi_of_mem (a := Real.arccos (elbow dh z)) (by linarith) (by linarith)
    rw [show (wrapToPi ∘ branch dh T 0 (Real.pi / 2) (Real.arccos (elbow dh z))) 2
      = Real.arccos (elbow dh z) from hwrap, abs_of_nonneg hge]
    exact hle

end Ahead

/-! ## One of them, for the `ur20` -/

/-- The parameters of the `ur20`. -/
def ur20 : DhParameters := ⟨0.2363, -0.862, -0.7287, 0.201, 0.1593, 0.1543⟩

theorem forModel_ur20 : DhParameters.forModel "ur20" = some ur20 := by
  unfold DhParameters.forModel
  simp [ur20]

/-- A pose without a rotation vector has no turn. -/
theorem poseFromArray_noTurn (v : Joints ℝ) (h : ![v 3, v 4, v 5] = 0) :
    poseFromArray v = ⟨1, ![v 0, v 1, v 2]⟩ := by
  rw [poseFromArray, h, UnitQuaternion.fromScaledAxis_zero]

/-- Well within reach of the `ur20`. -/
def frontPose : Joints ℝ := ![0, -0.201, 1.5906, 0, 0, 0]

theorem front_ahead : Ahead ur20 (poseFromArray frontPose) 1.5906 := by
  have h : ![frontPose 3, frontPose 4, frontPose 5] = 0 := by
    ext i
    fin_cases i <;> rfl
  rw [poseFromArray_noTurn _ h]
  refine ⟨rfl, ?_, ?_, ?_⟩
  · ext i
    fin_cases i <;> simp [frontPose, ur20]
  · norm_num [ur20]
  · norm_num [ur20]

theorem front_elbow : 0 ≤ elbow ur20 1.5906 ∧ elbow ur20 1.5906 ≤ 1 := by
  constructor <;> norm_num [elbow, ur20]

theorem front_same : ∀ sol ∈ inverseKinematics ur20 (poseFromArray frontPose),
    Motion.Same (forwardKinematics ur20 sol) (poseFromArray frontPose) := by
  refine front_ahead.same ?_ ?_ ?_
  · norm_num [ur20]
  · norm_num [ur20]
  · exact abs_le.mpr ⟨by linarith [front_elbow.1], front_elbow.2⟩

end

end UrRedisDriver.Proof
