import UrRedisDriver.Lib.UnitQuaternion
import Mathlib

/-!
# How a motion changes while one joint turns

A motion `A * R(t) * B`, with `R(t)` the turn about the third axis by `t`, changes as if the
whole of it turned about the third axis of `A`, through the origin of `A`.
-/

open Matrix
open scoped Literals

noncomputable section

/-! ## Cross products -/

/-- The matrix of the cross product with `w`. -/
def skew (w : Vec3) : Matrix (Fin 3) (Fin 3) ℝ :=
  !![0, -w 2, w 1; w 2, 0, -w 0; -w 1, w 0, 0]

theorem skew_mulVec (w v : Vec3) : skew w *ᵥ v = w ⨯₃ v := by
  ext i
  fin_cases i <;> simp [skew, Matrix.mulVec, dotProduct, Fin.sum_univ_three, cross_apply] <;> ring

namespace UnitQuaternion

/-- A turn takes cross products to cross products. -/
theorem matrix_mulVec_cross (q : UnitQuaternion) (u v : Vec3) :
    matrix q *ᵥ (u ⨯₃ v) = (matrix q *ᵥ u) ⨯₃ (matrix q *ᵥ v) := by
  have h := (mem_unitary_iff q.1).mp q.2
  -- for any quaternion the right side is the left side times the square of its length
  have hscale : (matrix q *ᵥ u) ⨯₃ (matrix q *ᵥ v)
      = (q.1.re ^ 2 + q.1.imI ^ 2 + q.1.imJ ^ 2 + q.1.imK ^ 2) • (matrix q *ᵥ (u ⨯₃ v)) := by
    ext i
    fin_cases i <;>
      simp [matrix, rotMatrix, dotProduct, Fin.sum_univ_three, cross_apply] <;> ring
  rw [hscale, h, one_smul]

theorem matrix_mul_skew (q : UnitQuaternion) (w : Vec3) :
    matrix q * skew w = skew (q • w) * matrix q := by
  apply Matrix.mulVec_injective
  funext v
  rw [← Matrix.mulVec_mulVec, ← Matrix.mulVec_mulVec, skew_mulVec, skew_mulVec]
  exact matrix_mulVec_cross q w v

/-! ## Derivatives -/

/-- A turn about the third axis changes by the cross product with it. -/
theorem hasDerivAt_matrix_zAxis (θ : ℝ) (j k : Fin 3) :
    HasDerivAt (fun t => matrix (fromAxisAngle Vec3.zAxis t) j k)
      ((skew ![0, 0, 1] * matrix (fromAxisAngle Vec3.zAxis θ)) j k) θ := by
  have hs := Real.hasDerivAt_sin θ
  have hc := Real.hasDerivAt_cos θ
  simp only [matrix_zAxis, Matrix.mul_apply, Fin.sum_univ_three]
  fin_cases j <;> fin_cases k <;> simp [skew]
  · exact hc
  · exact hs.neg
  · exact hasDerivAt_const θ 0
  · exact hs
  · exact hc
  · exact hasDerivAt_const θ 0
  · exact hasDerivAt_const θ 0
  · exact hasDerivAt_const θ 0
  · exact hasDerivAt_const θ 1

end UnitQuaternion

/-- A product changes as its factor does. -/
theorem hasDerivAt_mul_mul {R : ℝ → Matrix (Fin 3) (Fin 3) ℝ} {R' : Matrix (Fin 3) (Fin 3) ℝ}
    {θ : ℝ} (h : ∀ j k, HasDerivAt (fun t => R t j k) (R' j k) θ)
    (A B : Matrix (Fin 3) (Fin 3) ℝ) (r c : Fin 3) :
    HasDerivAt (fun t => (A * R t * B) r c) ((A * R' * B) r c) θ := by
  simp only [Matrix.mul_apply]
  exact HasDerivAt.fun_sum fun k _ =>
    (HasDerivAt.fun_sum fun j _ => (h j k).const_mul (A r j)).mul_const (B k c)

/-- And so does what it makes of a vector. -/
theorem hasDerivAt_mul_mulVec {R : ℝ → Matrix (Fin 3) (Fin 3) ℝ} {R' : Matrix (Fin 3) (Fin 3) ℝ}
    {θ : ℝ} (h : ∀ j k, HasDerivAt (fun t => R t j k) (R' j k) θ)
    (A : Matrix (Fin 3) (Fin 3) ℝ) (v : Vec3) (r : Fin 3) :
    HasDerivAt (fun t => ((A * R t) *ᵥ v) r) (((A * R') *ᵥ v) r) θ := by
  simp only [Matrix.mulVec, dotProduct, Matrix.mul_apply]
  exact HasDerivAt.fun_sum fun k _ =>
    (HasDerivAt.fun_sum fun j _ => (h j k).const_mul (A r j)).mul_const (v k)

namespace Motion

open UnitQuaternion

/-- A motion with a turn about the third axis in it. -/
def turning (A B : Motion UnitQuaternion Vec3) (t : ℝ) : Motion UnitQuaternion Vec3 :=
  A * ⟨fromAxisAngle Vec3.zAxis t, 0⟩ * B

/-- The axis of that turn, as `A` has it. -/
def axis (A : Motion UnitQuaternion Vec3) : Vec3 := A.rot • ![0, 0, 1]

/-- The turn of the motion changes about the axis. -/
theorem hasDerivAt_turning_matrix (A B : Motion UnitQuaternion Vec3) (θ : ℝ) (r c : Fin 3) :
    HasDerivAt (fun t => matrix (turning A B t).rot r c)
      ((skew (axis A) * matrix (turning A B θ).rot) r c) θ := by
  have h := hasDerivAt_mul_mul (hasDerivAt_matrix_zAxis θ) (matrix A.rot) (matrix B.rot) r c
  have hturn : ∀ t, matrix (turning A B t).rot
      = matrix A.rot * matrix (fromAxisAngle Vec3.zAxis t) * matrix B.rot := fun t => by
    rw [turning, mul_rot, mul_rot, matrix_mul, matrix_mul]
  simp only [hturn]
  refine h.congr_deriv ?_
  -- the axis is carried from the frame it turns in to the base
  rw [← Matrix.mul_assoc, matrix_mul_skew]
  simp only [Matrix.mul_assoc]
  rfl

/-- Its shift changes by the cross product of the axis with the arm from it. -/
theorem hasDerivAt_turning_trans (A B : Motion UnitQuaternion Vec3) (θ : ℝ) (r : Fin 3) :
    HasDerivAt (fun t => (turning A B t).trans r)
      ((axis A ⨯₃ ((turning A B θ).trans - A.trans)) r) θ := by
  have hshift : ∀ t, (turning A B t).trans
      = (matrix A.rot * matrix (fromAxisAngle Vec3.zAxis t)) *ᵥ B.trans + A.trans := fun t => by
    rw [turning, mul_trans, mul_trans, mul_rot, smul_zero, zero_add, UnitQuaternion.smul_def,
      matrix_mul]
  have h := hasDerivAt_mul_mulVec (hasDerivAt_matrix_zAxis θ) (matrix A.rot) B.trans r
  simp only [hshift, add_sub_cancel_right]
  refine (h.add_const (A.trans r)).congr_deriv ?_
  rw [← skew_mulVec, Matrix.mulVec_mulVec, ← Matrix.mul_assoc, ← Matrix.mul_assoc,
    matrix_mul_skew]
  rfl

end Motion

end
