import UrRedisDriver.Lib.Angle
import UrRedisDriver.Lib.Literals
import UrRedisDriver.Lib.Motion
import Mathlib.Algebra.Star.Unitary
import Mathlib.Algebra.Quaternion
import Mathlib.Analysis.SpecialFunctions.Trigonometric.Basic
import Mathlib.Analysis.SpecialFunctions.Trigonometric.Inverse
import Mathlib.Data.Matrix.Mul
import Mathlib.LinearAlgebra.Matrix.Notation
import Mathlib.LinearAlgebra.Matrix.Determinant.Basic

/-!
# Turns of space by unit quaternions

A unit quaternion turns a vector by the rotation matrix it denotes. Opposite quaternions
denote one turn, so it is their matrices that say whether two of them turn alike.
-/

open Matrix Quaternion
open scoped Literals

noncomputable section

/-- Three coordinates. -/
abbrev Vec3 := Fin 3 → ℝ

/-- A quaternion of norm one. -/
abbrev UnitQuaternion := unitary ℍ[ℝ]

/-- A vector of length one. -/
abbrev UnitVec3 := {u : Vec3 // u ⬝ᵥ u = 1}

namespace Vec3

/-- The length of a vector. -/
def norm (v : Vec3) : ℝ := √(v ⬝ᵥ v)

def xAxis : UnitVec3 := ⟨![1, 0, 0], by simp [dotProduct, Fin.sum_univ_three]⟩

def zAxis : UnitVec3 := ⟨![0, 0, 1], by simp [dotProduct, Fin.sum_univ_three]⟩

theorem dot_self (v : Vec3) : v ⬝ᵥ v = v 0 ^ 2 + v 1 ^ 2 + v 2 ^ 2 := by
  simp only [dotProduct, Fin.sum_univ_three]
  ring

theorem norm_sq (v : Vec3) : norm v ^ 2 = v 0 ^ 2 + v 1 ^ 2 + v 2 ^ 2 := by
  rw [norm, dot_self, Real.sq_sqrt (by positivity)]

@[simp] theorem norm_zero : norm 0 = 0 := by simp [norm]

theorem norm_nonneg (v : Vec3) : 0 ≤ norm v := Real.sqrt_nonneg _

/-- The Cauchy-Schwarz inequality. -/
theorem abs_dot_le (u v : Vec3) : |u ⬝ᵥ v| ≤ norm u * norm v := by
  apply abs_le_of_sq_le_sq _ (mul_nonneg (norm_nonneg u) (norm_nonneg v))
  have h := Finset.sum_mul_sq_le_sq_mul_sq Finset.univ u v
  rw [mul_pow, norm_sq, norm_sq]
  simpa [dotProduct, Fin.sum_univ_three] using h

end Vec3

namespace UnitQuaternion

/-! ## Building them -/

/-- The squares of the four parts sum to one. -/
theorem mem_unitary_iff (q : ℍ[ℝ]) :
    q ∈ unitary ℍ[ℝ] ↔ q.re ^ 2 + q.imI ^ 2 + q.imJ ^ 2 + q.imK ^ 2 = 1 := by
  rw [Unitary.mem_iff, Quaternion.star_mul_self, Quaternion.self_mul_star, and_self,
    ← Quaternion.normSq_def']
  exact ⟨fun h => Quaternion.coe_injective h, fun h => congrArg Quaternion.coe h⟩

/-- The quaternion with these four parts. -/
def ofParts (w x y z : ℝ) (h : w ^ 2 + x ^ 2 + y ^ 2 + z ^ 2 = 1) : UnitQuaternion :=
  ⟨⟨w, x, y, z⟩, (mem_unitary_iff _).mpr h⟩

section Parts

variable {w x y z : ℝ} (h : w ^ 2 + x ^ 2 + y ^ 2 + z ^ 2 = 1)

@[simp] theorem ofParts_re : (ofParts w x y z h).1.re = w := rfl

@[simp] theorem ofParts_imI : (ofParts w x y z h).1.imI = x := rfl

@[simp] theorem ofParts_imJ : (ofParts w x y z h).1.imJ = y := rfl

@[simp] theorem ofParts_imK : (ofParts w x y z h).1.imK = z := rfl

end Parts

/-- The turn about an axis by an angle. -/
def fromAxisAngle (u : UnitVec3) (θ : ℝ) : UnitQuaternion :=
  ofParts (Real.cos (θ / 2)) (u.1 0 * Real.sin (θ / 2)) (u.1 1 * Real.sin (θ / 2))
    (u.1 2 * Real.sin (θ / 2)) (by
      have hu : 1 = u.1 0 ^ 2 + u.1 1 ^ 2 + u.1 2 ^ 2 := u.2.symm.trans (Vec3.dot_self u.1)
      linear_combination Real.sin_sq_add_cos_sq (θ / 2) - Real.sin (θ / 2) ^ 2 * hu)

/--
The turn a rotation vector stands for: about the vector, by its length. This is the
exponential of half the vector, as an imaginary quaternion.
-/
def fromScaledAxis (v : Vec3) : UnitQuaternion :=
  let h : Vec3 := (1 / 2 : ℝ) • v
  let n := Vec3.norm h
  ofParts (Real.cos n) (h 0 * (Real.sin n / n)) (h 1 * (Real.sin n / n))
    (h 2 * (Real.sin n / n)) (by
      have hn : n ^ 2 = h 0 ^ 2 + h 1 ^ 2 + h 2 ^ 2 := Vec3.norm_sq h
      by_cases h0 : n = 0
      · simp [h0]
      · have hs : (Real.sin n / n) ^ 2 * n ^ 2 = Real.sin n ^ 2 := by
          rw [← mul_pow, div_mul_cancel₀ _ h0]
        linear_combination Real.sin_sq_add_cos_sq n + hs - (Real.sin n / n) ^ 2 * hn)

@[simp] theorem fromScaledAxis_zero : fromScaledAxis 0 = 1 := by
  apply Subtype.ext
  ext <;> simp [fromScaledAxis]

@[simp] theorem fromAxisAngle_zero (u : UnitVec3) : fromAxisAngle u 0 = 1 := by
  apply Subtype.ext
  ext <;> simp [fromAxisAngle]

/-- The imaginary part. -/
def vector (q : UnitQuaternion) : Vec3 := ![q.1.imI, q.1.imJ, q.1.imK]

/-- The rotation vector of a turn, of length at most `π`. -/
def scaledAxis (q : UnitQuaternion) : Vec3 :=
  let v := if 0 ≤ q.1.re then vector q else -vector q
  let n := Vec3.norm v
  if n = 0 then 0 else (Angle.atan2 n |q.1.re| * 2 / n) • v

/-- The cosine of the angle between two quaternions. -/
def dot (p q : UnitQuaternion) : ℝ :=
  p.1.re * q.1.re + p.1.imI * q.1.imI + p.1.imJ * q.1.imJ + p.1.imK * q.1.imK

/-- A combination of two quaternions, of norm one. -/
def mix (p q : UnitQuaternion) (a b : ℝ) (h : a ^ 2 + b ^ 2 + 2 * a * b * dot p q = 1) :
    UnitQuaternion :=
  ofParts (a * p.1.re + b * q.1.re) (a * p.1.imI + b * q.1.imI) (a * p.1.imJ + b * q.1.imJ)
    (a * p.1.imK + b * q.1.imK) (by
      have hp := (mem_unitary_iff p.1).mp p.2
      have hq := (mem_unitary_iff q.1).mp q.2
      rw [dot] at h
      linear_combination h + a ^ 2 * hp + b ^ 2 * hq)

/-- Sines of two angles, divided by the sine of their sum, mix to norm one. -/
theorem sin_mix {α β c s : ℝ} (hc : Real.cos (α + β) = c) (hs : Real.sin (α + β) = s)
    (h0 : s ≠ 0) :
    (Real.sin α / s) ^ 2 + (Real.sin β / s) ^ 2
      + 2 * (Real.sin α / s) * (Real.sin β / s) * c = 1 := by
  have hα := Real.sin_sq_add_cos_sq α
  have hβ := Real.sin_sq_add_cos_sq β
  rw [Real.cos_add] at hc
  rw [Real.sin_add] at hs
  subst hc
  have hsum : Real.sin α ^ 2 + Real.sin β ^ 2
      + 2 * Real.sin α * Real.sin β
        * (Real.cos α * Real.cos β - Real.sin α * Real.sin β) = s ^ 2 := by
    rw [← hs]
    linear_combination -Real.sin α ^ 2 * hβ - Real.sin β ^ 2 * hα
  field_simp
  linear_combination hsum

/-- From `p` to `q` along the great circle, for quaternions at most a right angle apart. -/
def slerpNear (p q : UnitQuaternion) (t : ℝ) (hpos : 0 ≤ dot p q) : UnitQuaternion :=
  if h1 : 1 ≤ dot p q then p
  else
    let hang := Real.arccos (dot p q)
    mix p q (Real.sin ((1 - t) * hang) / √(1 - dot p q ^ 2))
      (Real.sin (t * hang) / √(1 - dot p q ^ 2))
      (by
        have hsum : (1 - t) * hang + t * hang = hang := by ring
        refine sin_mix ?_ ?_ ?_
        · rw [hsum, Real.cos_arccos (by linarith) (by linarith)]
        · rw [hsum, Real.sin_arccos]
        · have : 0 < 1 - dot p q ^ 2 := by nlinarith
          exact (Real.sqrt_pos.mpr this).ne')

theorem dot_neg_right (p q : UnitQuaternion) : dot p (-q) = -dot p q := by
  simp only [dot, Unitary.coe_neg, Quaternion.re_neg, Quaternion.imI_neg, Quaternion.imJ_neg,
    Quaternion.imK_neg]
  ring

/-- Spherical interpolation: from `p` to the one of `q` and `-q` that is nearer. -/
def slerp (p q : UnitQuaternion) (t : ℝ) : UnitQuaternion :=
  if h : dot p q < 0 then slerpNear p (-q) t (by rw [dot_neg_right]; linarith)
  else slerpNear p q t (not_lt.mp h)

theorem ext_parts {p q : UnitQuaternion} (hw : p.1.re = q.1.re) (hx : p.1.imI = q.1.imI)
    (hy : p.1.imJ = q.1.imJ) (hz : p.1.imK = q.1.imK) : p = q :=
  Subtype.ext (QuaternionAlgebra.ext hw hx hy hz)

/-- A rotation vector along an axis turns about it, by its length. -/
theorem fromScaledAxis_smul (u : UnitVec3) {θ : ℝ} (hθ : 0 ≤ θ) :
    fromScaledAxis (θ • u.1) = fromAxisAngle u θ := by
  have hnorm : Vec3.norm ((1 / 2 : ℝ) • θ • u.1) = θ / 2 := by
    rw [Vec3.norm, smul_smul, dotProduct_smul, smul_dotProduct, u.2, smul_eq_mul, smul_eq_mul,
      mul_one, Real.sqrt_mul_self (by positivity)]
    ring
  have hpart : ∀ i, ((1 / 2 : ℝ) • θ • u.1) i * (Real.sin (θ / 2) / (θ / 2))
      = u.1 i * Real.sin (θ / 2) := by
    intro i
    rw [Pi.smul_apply, Pi.smul_apply, smul_eq_mul, smul_eq_mul]
    -- at no angle the quotient is zero by convention, and so is the sine
    by_cases h0 : θ = 0
    · simp [h0]
    · field_simp
  unfold fromScaledAxis
  simp only [hnorm, hpart]
  rfl

/-- Quaternions without an angle between them are the same. -/
theorem eq_of_one_le_dot {p q : UnitQuaternion} (h : 1 ≤ dot p q) : p = q := by
  have hp := (mem_unitary_iff p.1).mp p.2
  have hq := (mem_unitary_iff q.1).mp q.2
  rw [dot] at h
  -- unit vectors with a dot product of one have no distance
  have hsum : (p.1.re - q.1.re) ^ 2 + (p.1.imI - q.1.imI) ^ 2 + (p.1.imJ - q.1.imJ) ^ 2
      + (p.1.imK - q.1.imK) ^ 2 ≤ 0 := by
    linarith
  have hzero : ∀ {x y : ℝ}, (x - y) ^ 2 ≤ 0 → x = y := fun hxy =>
    sub_eq_zero.mp (pow_eq_zero_iff two_ne_zero |>.mp (le_antisymm hxy (sq_nonneg _)))
  have h1 := sq_nonneg (p.1.re - q.1.re)
  have h2 := sq_nonneg (p.1.imI - q.1.imI)
  have h3 := sq_nonneg (p.1.imJ - q.1.imJ)
  have h4 := sq_nonneg (p.1.imK - q.1.imK)
  apply ext_parts <;> apply hzero <;> linarith

theorem sin_arccos_div {c : ℝ} (h0 : 0 ≤ c) (h1 : ¬ 1 ≤ c) :
    Real.sin (Real.arccos c) / √(1 - c ^ 2) = 1 := by
  rw [Real.sin_arccos]
  exact div_self (Real.sqrt_pos.mpr (by nlinarith)).ne'

theorem slerpNear_zero {p q : UnitQuaternion} (h : 0 ≤ dot p q) : slerpNear p q 0 h = p := by
  unfold slerpNear
  split
  · rfl
  · rename_i h1
    apply ext_parts <;> simp [mix, sin_arccos_div h h1]

theorem slerpNear_one {p q : UnitQuaternion} (h : 0 ≤ dot p q) : slerpNear p q 1 h = q := by
  unfold slerpNear
  split
  · rename_i h1
    exact eq_of_one_le_dot h1
  · rename_i h1
    apply ext_parts <;> simp [mix, sin_arccos_div h h1]

/-! ## The matrix of a turn -/

/-- The rotation matrix of a quaternion; it is multiplicative for all of them. -/
def rotMatrix : ℍ[ℝ] →* Matrix (Fin 3) (Fin 3) ℝ where
  toFun q :=
    !![q.re * q.re + q.imI * q.imI - q.imJ * q.imJ - q.imK * q.imK,
        q.imI * q.imJ * 2 - q.re * q.imK * 2,
        q.re * q.imJ * 2 + q.imI * q.imK * 2;
       q.re * q.imK * 2 + q.imI * q.imJ * 2,
        q.re * q.re - q.imI * q.imI + q.imJ * q.imJ - q.imK * q.imK,
        q.imJ * q.imK * 2 - q.re * q.imI * 2;
       q.imI * q.imK * 2 - q.re * q.imJ * 2,
        q.re * q.imI * 2 + q.imJ * q.imK * 2,
        q.re * q.re - q.imI * q.imI - q.imJ * q.imJ + q.imK * q.imK]
  map_one' := by
    ext i j
    fin_cases i <;> fin_cases j <;> simp
  map_mul' p q := by
    ext i j
    fin_cases i <;> fin_cases j <;> simp [Matrix.mul_apply, Fin.sum_univ_three] <;> ring

theorem rotMatrix_star (q : ℍ[ℝ]) : rotMatrix (star q) = (rotMatrix q)ᵀ := by
  ext i j
  fin_cases i <;> fin_cases j <;> simp [rotMatrix] <;> ring

/-- The matrix of a turn. -/
def matrix (q : UnitQuaternion) : Matrix (Fin 3) (Fin 3) ℝ := rotMatrix q.1

/-- Unit quaternions turn vectors by their matrices. -/
instance : DistribMulAction UnitQuaternion Vec3 where
  smul q v := matrix q *ᵥ v
  one_smul v := show rotMatrix 1 *ᵥ v = v by rw [map_one, one_mulVec]
  mul_smul p q v := show rotMatrix (p.1 * q.1) *ᵥ v = _ by
    rw [map_mul, ← mulVec_mulVec]; rfl
  smul_zero q := mulVec_zero _
  smul_add q v w := mulVec_add _ v w

theorem smul_def (q : UnitQuaternion) (v : Vec3) : q • v = matrix q *ᵥ v := rfl

theorem smul_apply (q : UnitQuaternion) (v : Vec3) (i : Fin 3) :
    (q • v) i = matrix q i 0 * v 0 + matrix q i 1 * v 1 + matrix q i 2 * v 2 := by
  rw [smul_def, Matrix.mulVec, dotProduct, Fin.sum_univ_three]

@[simp] theorem matrix_one : matrix 1 = 1 := map_one rotMatrix

@[simp] theorem matrix_mul (p q : UnitQuaternion) : matrix (p * q) = matrix p * matrix q :=
  map_mul rotMatrix p.1 q.1

@[simp] theorem matrix_inv (q : UnitQuaternion) : matrix q⁻¹ = (matrix q)ᵀ :=
  rotMatrix_star q.1

/-- A rotation matrix is orthogonal. -/
theorem matrix_transpose_mul (q : UnitQuaternion) : (matrix q)ᵀ * matrix q = 1 := by
  rw [← matrix_inv, ← matrix_mul, inv_mul_cancel, matrix_one]

theorem matrix_mul_transpose (q : UnitQuaternion) : matrix q * (matrix q)ᵀ = 1 := by
  rw [← matrix_inv, ← matrix_mul, mul_inv_cancel, matrix_one]

@[simp] theorem matrix_neg (q : UnitQuaternion) : matrix (-q) = matrix q := by
  show rotMatrix (-q.1) = rotMatrix q.1
  ext i j
  fin_cases i <;> fin_cases j <;> simp [rotMatrix]

/-- Spherical interpolation leaves from the one turn and gets to the other. -/
theorem matrix_slerp_zero (p q : UnitQuaternion) : matrix (slerp p q 0) = matrix p := by
  unfold slerp
  split <;> rw [slerpNear_zero]

theorem matrix_slerp_one (p q : UnitQuaternion) : matrix (slerp p q 1) = matrix q := by
  unfold slerp
  split <;> rw [slerpNear_one]
  exact matrix_neg q

/-- A turn keeps the orientation of space. -/
theorem det_matrix (q : UnitQuaternion) : (matrix q).det = 1 := by
  have h := (mem_unitary_iff q.1).mp q.2
  have hdet : (matrix q).det
      = (q.1.re ^ 2 + q.1.imI ^ 2 + q.1.imJ ^ 2 + q.1.imK ^ 2) ^ 3 := by
    rw [Matrix.det_fin_three]
    simp only [matrix, rotMatrix, MonoidHom.coe_mk, OneHom.coe_mk, Matrix.of_apply,
      Matrix.cons_val]
    ring
  rw [hdet, h, one_pow]

/-- The columns of a rotation matrix are orthonormal. -/
theorem dot_columns (q : UnitQuaternion) (i j : Fin 3) :
    matrix q 0 i * matrix q 0 j + matrix q 1 i * matrix q 1 j + matrix q 2 i * matrix q 2 j
      = (1 : Matrix (Fin 3) (Fin 3) ℝ) i j := by
  rw [← matrix_transpose_mul q, Matrix.mul_apply, Fin.sum_univ_three]
  rfl

/-- And so are its rows. -/
theorem dot_rows (q : UnitQuaternion) (i j : Fin 3) :
    matrix q i 0 * matrix q j 0 + matrix q i 1 * matrix q j 1 + matrix q i 2 * matrix q j 2
      = (1 : Matrix (Fin 3) (Fin 3) ℝ) i j := by
  rw [← matrix_mul_transpose q, Matrix.mul_apply, Fin.sum_univ_three]
  rfl

/-- A turn that takes the second axis to the third is known from where it takes the first. -/
theorem matrix_of_row {q : UnitQuaternion} (h : matrix q 2 = ![0, 1, 0]) :
    matrix q = !![matrix q 0 0, 0, matrix q 1 0; matrix q 1 0, 0, -matrix q 0 0; 0, 1, 0]
      ∧ matrix q 0 0 ^ 2 + matrix q 1 0 ^ 2 = 1 := by
  have h0 : matrix q 2 0 = 0 := congrFun h 0
  have h1 : matrix q 2 1 = 1 := congrFun h 1
  have h2 : matrix q 2 2 = 0 := congrFun h 2
  have c00 := dot_columns q 0 0
  have c11 := dot_columns q 1 1
  have c02 := dot_columns q 0 2
  have hdet := det_matrix q
  rw [Matrix.det_fin_three] at hdet
  simp only [h0, h1, h2, Matrix.one_apply_eq, mul_zero, add_zero, mul_one] at c00 c11 c02 hdet
  rw [Matrix.one_apply_ne (by decide)] at c02
  -- the third row takes up all of its columns, and the rest is a turn of the plane
  have h01 : matrix q 0 1 = 0 := by nlinarith
  have h11 : matrix q 1 1 = 0 := by nlinarith
  simp only [sub_zero, zero_sub] at hdet
  have h02 : matrix q 0 2 = matrix q 1 0 := by
    linear_combination matrix q 0 0 * c02 - matrix q 0 2 * c00 + matrix q 1 0 * hdet
  have h12 : matrix q 1 2 = -matrix q 0 0 := by
    linear_combination matrix q 1 0 * c02 - matrix q 1 2 * c00 - matrix q 0 0 * hdet
  refine ⟨?_, by linear_combination c00⟩
  ext i j
  fin_cases i <;> fin_cases j <;> simp [h0, h1, h2, h01, h11, h02, h12]

/-- Quaternions turn alike exactly if their matrices agree. -/
theorem smul_eq_iff {p q : UnitQuaternion} :
    (∀ v : Vec3, p • v = q • v) ↔ matrix p = matrix q := by
  constructor
  · intro h
    exact Matrix.mulVec_injective (funext h)
  · intro h v
    rw [smul_def, smul_def]
    exact congrArg (· *ᵥ v) h

/-- What a coordinate of a turned vector is depends on one row only. -/
theorem smul_row {p q : UnitQuaternion} {i j : Fin 3} (h : matrix p i = matrix q j)
    (v : Vec3) : (p • v) i = (q • v) j := by
  rw [smul_apply, smul_apply, h]

/-- The matrix of a turn about the third axis. -/
theorem matrix_zAxis (θ : ℝ) : matrix (fromAxisAngle Vec3.zAxis θ)
    = !![Real.cos θ, -Real.sin θ, 0; Real.sin θ, Real.cos θ, 0; 0, 0, 1] := by
  have h := Real.sin_sq_add_cos_sq (θ / 2)
  have hc : Real.cos θ = 2 * Real.cos (θ / 2) ^ 2 - 1 := by rw [← Real.cos_two_mul]; ring_nf
  have hs : Real.sin θ = 2 * Real.sin (θ / 2) * Real.cos (θ / 2) := by
    rw [← Real.sin_two_mul]; ring_nf
  rw [hc, hs]
  ext i j
  fin_cases i <;> fin_cases j <;>
    simp [matrix, rotMatrix, fromAxisAngle, Vec3.zAxis] <;> linarith

/-- The matrix of a turn about the first axis. -/
theorem matrix_xAxis (θ : ℝ) : matrix (fromAxisAngle Vec3.xAxis θ)
    = !![1, 0, 0; 0, Real.cos θ, -Real.sin θ; 0, Real.sin θ, Real.cos θ] := by
  have h := Real.sin_sq_add_cos_sq (θ / 2)
  have hc : Real.cos θ = 2 * Real.cos (θ / 2) ^ 2 - 1 := by rw [← Real.cos_two_mul]; ring_nf
  have hs : Real.sin θ = 2 * Real.sin (θ / 2) * Real.cos (θ / 2) := by
    rw [← Real.sin_two_mul]; ring_nf
  rw [hc, hs]
  ext i j
  fin_cases i <;> fin_cases j <;>
    simp [matrix, rotMatrix, fromAxisAngle, Vec3.xAxis] <;> linarith

/-- Turns about one axis are the same only if their angles are, up to whole turns. -/
theorem angle_of_matrix_eq {u : UnitVec3} {θ φ : ℝ}
    (h : matrix (fromAxisAngle u θ) = matrix (fromAxisAngle u φ)) : (θ : Real.Angle) = φ := by
  have hu : u.1 0 ^ 2 + u.1 1 ^ 2 + u.1 2 ^ 2 = 1 := (Vec3.dot_self u.1).symm.trans u.2
  -- the trace holds the cosine, and what is not symmetric the sine
  have hcos : ∀ θ, matrix (fromAxisAngle u θ) 0 0 + matrix (fromAxisAngle u θ) 1 1
      + matrix (fromAxisAngle u θ) 2 2 = 1 + 2 * Real.cos θ := by
    intro θ
    have hc : Real.cos θ = 2 * Real.cos (θ / 2) ^ 2 - 1 := by rw [← Real.cos_two_mul]; ring_nf
    have hs := Real.sin_sq_add_cos_sq (θ / 2)
    rw [hc]
    simp only [matrix, rotMatrix, fromAxisAngle, MonoidHom.coe_mk, OneHom.coe_mk, Matrix.of_apply,
      Matrix.cons_val, ofParts_re, ofParts_imI, ofParts_imJ, ofParts_imK]
    linear_combination (-Real.sin (θ / 2) ^ 2) * hu - hs
  have hsin : ∀ θ, u.1 0 * (matrix (fromAxisAngle u θ) 2 1 - matrix (fromAxisAngle u θ) 1 2)
      + u.1 1 * (matrix (fromAxisAngle u θ) 0 2 - matrix (fromAxisAngle u θ) 2 0)
      + u.1 2 * (matrix (fromAxisAngle u θ) 1 0 - matrix (fromAxisAngle u θ) 0 1)
      = 2 * Real.sin θ := by
    intro θ
    have hs : Real.sin θ = 2 * Real.sin (θ / 2) * Real.cos (θ / 2) := by
      rw [← Real.sin_two_mul]; ring_nf
    rw [hs]
    simp only [matrix, rotMatrix, fromAxisAngle, MonoidHom.coe_mk, OneHom.coe_mk, Matrix.of_apply,
      Matrix.cons_val, ofParts_re, ofParts_imI, ofParts_imJ, ofParts_imK]
    linear_combination (4 * Real.sin (θ / 2) * Real.cos (θ / 2)) * hu
  have hc := hcos θ
  have hs := hsin θ
  rw [h, hcos φ] at hc
  rw [h, hsin φ] at hs
  exact Real.Angle.cos_sin_inj (by linarith) (by linarith)

end UnitQuaternion

end
