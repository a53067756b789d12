import UrRedisDriver.Proof.InverseKinematics
import Mathlib.LinearAlgebra.Matrix.ToLinearEquiv

/-!
# An arm with its joints at right angles

The upper arm up, the forearm ahead and the wrist down: no two links are in line, so every
small motion of the flange is one of the joints'.
-/

namespace UrRedisDriver.Proof

open UrRedisDriver Matrix
open Real (sin cos pi)
open scoped Literals

noncomputable section

/-- The arm at right angles, with the last joint anywhere. -/
def squared (turn : ℝ) : Joints ℝ := ![0, -(pi / 2), pi / 2, 0, pi / 2, turn]

/-- The turn and the shift of a pose. -/
structure TurnShift (T : Pose) (m : Matrix (Fin 3) (Fin 3) ℝ) (v : Vec3) : Prop where
  turn : UnitQuaternion.matrix T.rot = m
  shift : T.trans = v

theorem TurnShift.smul {T : Pose} {m : Matrix (Fin 3) (Fin 3) ℝ} {v : Vec3} (h : TurnShift T m v)
    (w : Vec3) (i : Fin 3) : (T.rot • w + T.trans) i
      = m i 0 * w 0 + m i 1 * w 1 + m i 2 * w 2 + v i := by
  rw [Pi.add_apply, UnitQuaternion.smul_apply, h.turn, h.shift]

theorem TurnShift.mul {T L : Pose} {m n m' : Matrix (Fin 3) (Fin 3) ℝ} {v w v' : Vec3}
    (h : TurnShift T m v) (h' : TurnShift L n w) (hm : m * n = m')
    (hv : ∀ i, m i 0 * w 0 + m i 1 * w 1 + m i 2 * w 2 + v i = v' i) :
    TurnShift (T * L) m' v' := by
  constructor
  · rw [Motion.mul_rot, UnitQuaternion.matrix_mul, h.turn, h'.turn, hm]
  · funext i
    rw [Motion.mul_trans, h.smul, h'.shift, hv]

theorem TurnShift.link (dh : DhParameters) (q : Joints ℝ) (i : Fin 6) :
    let (d, a, α) := dh.row i
    TurnShift (dh.link q i)
      !![cos (q i), -sin (q i) * cos α, sin (q i) * sin α;
        sin (q i), cos (q i) * cos α, -cos (q i) * sin α;
        0, sin α, cos α]
      ![a * cos (q i), a * sin (q i), d] :=
  ⟨dhTransform_matrix .., dhTransform_trans ..⟩

theorem forwardKinematicsAll_eq (dh : DhParameters) (q : Joints ℝ) : forwardKinematicsAll dh q
    = ![dh.link q 0, dh.link q 0 * dh.link q 1, dh.link q 0 * dh.link q 1 * dh.link q 2,
        dh.link q 0 * dh.link q 1 * dh.link q 2 * dh.link q 3,
        dh.link q 0 * dh.link q 1 * dh.link q 2 * dh.link q 3 * dh.link q 4,
        forwardKinematics dh q] := by
  have h : List.finRange 6 = [0, 1, 2, 3, 4, 5] := by decide
  rw [forwardKinematics_eq]
  funext i
  fin_cases i <;> simp [forwardKinematicsAll, h]

theorem squared_frames (dh : DhParameters) (turn : ℝ) :
    let f := forwardKinematicsAll dh (squared turn)
    TurnShift (f 0) !![1, 0, 0; 0, 0, -1; 0, 1, 0] ![0, 0, dh.d1]
      ∧ TurnShift (f 1) !![0, 1, 0; 0, 0, -1; -1, 0, 0] ![0, 0, dh.d1 - dh.a2]
      ∧ TurnShift (f 2) !![1, 0, 0; 0, 0, -1; 0, 1, 0] ![dh.a3, 0, dh.d1 - dh.a2]
      ∧ TurnShift (f 3) !![1, 0, 0; 0, -1, 0; 0, 0, -1] ![dh.a3, -dh.d4, dh.d1 - dh.a2]
      ∧ TurnShift (f 4) !![0, 0, -1; -1, 0, 0; 0, 1, 0] ![dh.a3, -dh.d4, dh.d1 - dh.a2 - dh.d5]
      ∧ (f 5).trans = ![dh.a3 - dh.d6, -dh.d4, dh.d1 - dh.a2 - dh.d5] := by
  have hneg : -pi / 2 = -(pi / 2) := neg_div 2 pi
  have hl := TurnShift.link dh (squared turn)
  have h0 : TurnShift (dh.link (squared turn) 0) !![1, 0, 0; 0, 0, -1; 0, 1, 0]
      ![0, 0, dh.d1] := by simpa [squared, DhParameters.row] using hl 0
  have h1 : TurnShift (dh.link (squared turn) 1) !![0, 1, 0; -1, 0, 0; 0, 0, 1]
      ![0, -dh.a2, 0] := by simpa [squared, DhParameters.row] using hl 1
  have h2 : TurnShift (dh.link (squared turn) 2) !![0, -1, 0; 1, 0, 0; 0, 0, 1]
      ![0, dh.a3, 0] := by simpa [squared, DhParameters.row] using hl 2
  have h3 : TurnShift (dh.link (squared turn) 3) !![1, 0, 0; 0, 0, -1; 0, 1, 0]
      ![0, 0, dh.d4] := by simpa [squared, DhParameters.row] using hl 3
  have h4 : TurnShift (dh.link (squared turn) 4) !![0, 0, -1; 1, 0, 0; 0, -1, 0]
      ![0, 0, dh.d5] := by simpa [squared, DhParameters.row, hneg] using hl 4
  -- every frame is the one before it times its link
  have f1 := @TurnShift.mul _ _ _ _ !![0, 1, 0; 0, 0, -1; -1, 0, 0] _ _
    ![0, 0, dh.d1 - dh.a2] h0 h1 (by simp) (by intro i; fin_cases i <;> simp; ring)
  have f2 := @TurnShift.mul _ _ _ _ !![1, 0, 0; 0, 0, -1; 0, 1, 0] _ _
    ![dh.a3, 0, dh.d1 - dh.a2] f1 h2 (by simp) (by intro i; fin_cases i <;> simp)
  have f3 := @TurnShift.mul _ _ _ _ !![1, 0, 0; 0, -1, 0; 0, 0, -1] _ _
    ![dh.a3, -dh.d4, dh.d1 - dh.a2] f2 h3 (by simp) (by intro i; fin_cases i <;> simp)
  have f4 := @TurnShift.mul _ _ _ _ !![0, 0, -1; -1, 0, 0; 0, 1, 0] _ _
    ![dh.a3, -dh.d4, dh.d1 - dh.a2 - dh.d5] f3 h4 (by simp) (by intro i; fin_cases i <;> simp; ring)
  rw [forwardKinematicsAll_eq]
  refine ⟨h0, f1, f2, f3, f4, ?_⟩
  show (forwardKinematics dh (squared turn)).trans = _
  have h5 : (dh.link (squared turn) 5).trans = ![0, 0, dh.d6] := by
    simpa [squared, DhParameters.row] using (hl 5).shift
  funext i
  rw [forwardKinematics_eq, Motion.mul_trans, f4.smul, h5]
  fin_cases i <;> simp
  ring

/-- The flange looks back over the arm, wherever its last joint is. -/
theorem squared_approach (dh : DhParameters) (turn : ℝ) :
    UnitQuaternion.matrix (forwardKinematics dh (squared turn)).rot 0 2 = -1 := by
  obtain ⟨-, -, -, -, f4, -⟩ := squared_frames dh turn
  have h5 := (TurnShift.link dh (squared turn) 5).turn
  rw [forwardKinematicsAll_eq] at f4
  have hfive : UnitQuaternion.matrix (dh.link (squared turn) 0 * dh.link (squared turn) 1
      * dh.link (squared turn) 2 * dh.link (squared turn) 3 * dh.link (squared turn) 4).rot
      = !![0, 0, -1; -1, 0, 0; 0, 1, 0] := f4.turn
  rw [forwardKinematics_eq, Motion.mul_rot, UnitQuaternion.matrix_mul, hfive, h5,
    Matrix.mul_apply, Fin.sum_univ_three]
  simp

theorem TurnShift.axis {T : Pose} {m : Matrix (Fin 3) (Fin 3) ℝ} {v : Vec3}
    (h : TurnShift T m v) : T.rot • (![0, 0, 1] : Vec3) = ![m 0 2, m 1 2, m 2 2] := by
  funext i
  rw [UnitQuaternion.smul_apply, h.turn]
  fin_cases i <;> simp

theorem jacobian_squared (dh : DhParameters) (turn : ℝ) : jacobian dh (squared turn) = !![
    dh.d4, dh.a2 + dh.d5, dh.d5, dh.d5, 0, 0;
    dh.a3 - dh.d6, 0, 0, 0, dh.d6, 0;
    0, dh.a3 - dh.d6, dh.a3 - dh.d6, -dh.d6, 0, 0;
    0, 0, 0, 0, 0, -1;
    0, -1, -1, -1, 0, 0;
    1, 0, 0, 0, -1, 0] := by
  obtain ⟨f0, f1, f2, f3, f4, f5⟩ := squared_frames dh turn
  -- the axis of a joint is the z axis of the frame before it
  have hz : ∀ i : Fin 6, jointAxis (forwardKinematicsAll dh (squared turn)) i
      = (![(![0, 0, 1], 0), (![0, -1, 0], ![0, 0, dh.d1]), (![0, -1, 0], ![0, 0, dh.d1 - dh.a2]),
          (![0, -1, 0], ![dh.a3, 0, dh.d1 - dh.a2]),
          (![0, 0, -1], ![dh.a3, -dh.d4, dh.d1 - dh.a2]),
          (![-1, 0, 0], ![dh.a3, -dh.d4, dh.d1 - dh.a2 - dh.d5])] : Fin 6 → Vec3 × Vec3) i := by
    intro i
    fin_cases i
    · rfl
    · exact Prod.ext (f0.axis.trans (by simp)) f0.shift
    · exact Prod.ext (f1.axis.trans (by simp)) f1.shift
    · exact Prod.ext (f2.axis.trans (by simp)) f2.shift
    · exact Prod.ext (f3.axis.trans (by simp)) f3.shift
    · exact Prod.ext (f4.axis.trans (by simp)) f4.shift
  ext r i
  simp only [jacobian, hz, f5, Matrix.of_apply, cross_apply]
  fin_cases i <;> fin_cases r <;> simp
  ring

theorem det_jacobian_squared (dh : DhParameters) (turn : ℝ) (h2 : dh.a2 ≠ 0) (h3 : dh.a3 ≠ 0) :
    (jacobian dh (squared turn)).det ≠ 0 := by
  intro hdet
  obtain ⟨v, hv, h⟩ := Matrix.exists_mulVec_eq_zero_iff.mpr hdet
  rw [jacobian_squared] at h
  have hx := congrFun h 0
  have hy := congrFun h 1
  have hzz := congrFun h 2
  have hrx := congrFun h 3
  have hry := congrFun h 4
  have hrz := congrFun h 5
  simp [Matrix.mulVec, dotProduct, Fin.sum_univ_six] at hx hy hzz hrx hry hrz
  -- joints 1, 4 and 2 cannot move, and the others follow them
  have v0 : v 0 = 0 := by
    have : dh.a3 * v 0 = 0 := by linear_combination hy + dh.d6 * hrz
    exact (mul_eq_zero.mp this).resolve_left h3
  have v3 : v 3 = 0 := by
    have : dh.a3 * v 3 = 0 := by linear_combination -hzz - (dh.a3 - dh.d6) * hry
    exact (mul_eq_zero.mp this).resolve_left h3
  have v1 : v 1 = 0 := by
    have : dh.a2 * v 1 = 0 := by linear_combination hx - dh.d4 * v0 + dh.d5 * hry
    exact (mul_eq_zero.mp this).resolve_left h2
  apply hv
  funext i
  fin_cases i
  · exact v0
  · exact v1
  · simp; linarith
  · exact v3
  · simp; linarith
  · simp; linarith

end

end UrRedisDriver.Proof
