import Mathlib.Analysis.SpecialFunctions.Complex.Arg
import Mathlib.Analysis.SpecialFunctions.Trigonometric.Angle
import Mathlib.Analysis.SpecialFunctions.Trigonometric.Inverse
import Mathlib.Algebra.Order.Round

/-!
# Angles

The trigonometry of a planar arm: the angle of a point of the plane, the remainder a
floating-point `%` leaves, and where a two-link arm puts its tip.
-/

noncomputable section

namespace Angle

open Real

/-- The angle of the point `(x, y)`, in `(-π, π]`; zero at the origin. -/
def atan2 (y x : ℝ) : ℝ := Complex.arg ⟨x, y⟩

theorem sqrt_mul_cos_atan2 (y x : ℝ) : √(x ^ 2 + y ^ 2) * cos (atan2 y x) = x := by
  have h := Complex.norm_mul_cos_arg ⟨x, y⟩
  rwa [Complex.norm_eq_sqrt_sq_add_sq] at h

theorem sqrt_mul_sin_atan2 (y x : ℝ) : √(x ^ 2 + y ^ 2) * sin (atan2 y x) = y := by
  have h := Complex.norm_mul_sin_arg ⟨x, y⟩
  rwa [Complex.norm_eq_sqrt_sq_add_sq] at h

/-- The angle of a point of known distance from the origin. -/
theorem mul_cos_atan2 {x y r : ℝ} (hr : 0 ≤ r) (h : x ^ 2 + y ^ 2 = r ^ 2) :
    r * cos (atan2 y x) = x := by
  have hs := sqrt_mul_cos_atan2 y x
  rwa [h, sqrt_sq hr] at hs

theorem mul_sin_atan2 {x y r : ℝ} (hr : 0 ≤ r) (h : x ^ 2 + y ^ 2 = r ^ 2) :
    r * sin (atan2 y x) = y := by
  have hs := sqrt_mul_sin_atan2 y x
  rwa [h, sqrt_sq hr] at hs

/-- Up to whole turns, a point off the origin has the angle it is drawn at. -/
theorem coe_atan2 {x y r θ : ℝ} (hr : 0 < r) (hx : r * cos θ = x) (hy : r * sin θ = y) :
    (atan2 y x : Real.Angle) = θ := by
  have h : x ^ 2 + y ^ 2 = r ^ 2 := by
    rw [← hx, ← hy]
    linear_combination r ^ 2 * sin_sq_add_cos_sq θ
  have hcos : r * cos (atan2 y x) = r * cos θ := (mul_cos_atan2 hr.le h).trans hx.symm
  have hsin : r * sin (atan2 y x) = r * sin θ := (mul_sin_atan2 hr.le h).trans hy.symm
  exact Real.Angle.cos_sin_inj (mul_left_cancel₀ hr.ne' hcos) (mul_left_cancel₀ hr.ne' hsin)

/-- Towards zero. -/
def trunc (x : ℝ) : ℤ := if 0 ≤ x then ⌊x⌋ else ⌈x⌉

/-- The remainder of a division that is rounded towards zero. -/
def rem (x y : ℝ) : ℝ := x - y * trunc (x / y)

theorem rem_of_lt {x y : ℝ} (h0 : 0 ≤ x) (h : x < y) : rem x y = x := by
  have hy : 0 < y := lt_of_le_of_lt h0 h
  have hd : 0 ≤ x / y := div_nonneg h0 hy.le
  have hf : ⌊x / y⌋ = 0 := Int.floor_eq_zero_iff.mpr ⟨hd, (div_lt_one hy).mpr h⟩
  rw [rem, trunc, if_pos hd, hf]
  simp

theorem rem_self {y : ℝ} (hy : 0 < y) : rem y y = 0 := by
  rw [rem, trunc, div_self hy.ne', if_pos zero_le_one, Int.floor_one]
  simp

/-- The remainder of a non-negative number. -/
theorem rem_of_nonneg {x y : ℝ} (hy : 0 < y) (hx : 0 ≤ x) : 0 ≤ rem x y ∧ rem x y < y := by
  have hd : 0 ≤ x / y := div_nonneg hx hy.le
  have hxy : y * (x / y) = x := mul_div_cancel₀ _ hy.ne'
  have hlo := mul_le_mul_of_nonneg_left (Int.floor_le (x / y)) hy.le
  have hhi := mul_lt_mul_of_pos_left (Int.lt_floor_add_one (x / y)) hy
  rw [rem, trunc, if_pos hd]
  constructor <;> linarith

/-- The remainder of a negative number. -/
theorem rem_of_neg {x y : ℝ} (hy : 0 < y) (hx : x < 0) : -y < rem x y ∧ rem x y ≤ 0 := by
  have hd : ¬ 0 ≤ x / y := not_le.mpr (div_neg_of_neg_of_pos hx hy)
  have hxy : y * (x / y) = x := mul_div_cancel₀ _ hy.ne'
  have hlo := mul_le_mul_of_nonneg_left (Int.le_ceil (x / y)) hy.le
  have hhi := mul_lt_mul_of_pos_left (Int.ceil_lt_add_one (x / y)) hy
  rw [rem, trunc, if_neg hd]
  constructor <;> linarith

/-- Between two bounds. -/
def clamp (x lo hi : ℝ) : ℝ := max lo (min hi x)

theorem clamp_of_mem {x lo hi : ℝ} (hlo : lo ≤ x) (hhi : x ≤ hi) : clamp x lo hi = x := by
  rw [clamp, min_eq_right hhi, max_eq_right hlo]

theorem cos_arccos_clamp {x : ℝ} (h : |x| ≤ 1) : cos (arccos (clamp x (-1) 1)) = x := by
  obtain ⟨hlo, hhi⟩ := abs_le.mp h
  rw [clamp_of_mem hlo hhi, cos_arccos hlo hhi]

/-- Up to whole turns, an angle is one of the two that its cosine has. -/
theorem coe_arccos_clamp {x θ : ℝ} (h : cos θ = x) :
    (θ : Real.Angle) = arccos (clamp x (-1) 1) ∨ (θ : Real.Angle) = -arccos (clamp x (-1) 1) := by
  have hx : |x| ≤ 1 := by
    rw [← h]
    exact abs_cos_le_one θ
  exact Real.Angle.cos_eq_iff_coe_eq_or_eq_neg.mp (h.trans (cos_arccos_clamp hx).symm)

/--
**The two-link arm.** With its elbow at the angle the law of cosines asks for, the arm aimed
at a point puts its tip there.
-/
theorem twoLink {a b x y θ : ℝ} (h : x ^ 2 + y ^ 2 = a ^ 2 + b ^ 2 + 2 * a * b * cos θ) :
    let φ := atan2 y x - atan2 (b * sin θ) (a + b * cos θ)
    a * cos φ + b * cos (φ + θ) = x ∧ a * sin φ + b * sin (φ + θ) = y := by
  intro φ
  let r := √(x ^ 2 + y ^ 2)
  have hr : 0 ≤ r := sqrt_nonneg _
  have hxy : x ^ 2 + y ^ 2 = r ^ 2 := (sq_sqrt (by positivity)).symm
  have huv : (a + b * cos θ) ^ 2 + (b * sin θ) ^ 2 = r ^ 2 := by
    rw [← hxy, h]
    linear_combination b ^ 2 * sin_sq_add_cos_sq θ
  -- the tip in the frame of the first link, by its distance and angle
  have hu := mul_cos_atan2 hr huv
  have hv := mul_sin_atan2 hr huv
  have hsum : φ + atan2 (b * sin θ) (a + b * cos θ) = atan2 y x := sub_add_cancel _ _
  constructor
  · rw [← mul_cos_atan2 hr hxy, ← hsum, cos_add, cos_add]
    linear_combination -cos φ * hu + sin φ * hv
  · rw [← mul_sin_atan2 hr hxy, ← hsum, sin_add, sin_add]
    linear_combination -sin φ * hu - cos φ * hv

/--
Up to whole turns, the arm is aimed the only way that puts its tip where it is, unless its
links are of one length and it may be folded.
-/
theorem coe_twoLink {a b φ θ : ℝ} (h : |a| ≠ |b|) :
    ((atan2 (a * sin φ + b * sin (φ + θ)) (a * cos φ + b * cos (φ + θ))
      - atan2 (b * sin θ) (a + b * cos θ) : ℝ) : Real.Angle) = φ := by
  let r := √((a + b * cos θ) ^ 2 + (b * sin θ) ^ 2)
  have hpos : 0 < (a + b * cos θ) ^ 2 + (b * sin θ) ^ 2 := by
    refine lt_of_le_of_ne (by positivity) fun h0 => h ?_
    -- a tip at the origin: the arm is folded
    have hu : a + b * cos θ = 0 := by nlinarith [sq_nonneg (a + b * cos θ), sq_nonneg (b * sin θ)]
    have hv : b * sin θ = 0 := by nlinarith [sq_nonneg (a + b * cos θ), sq_nonneg (b * sin θ)]
    rw [← sq_eq_sq_iff_abs_eq_abs]
    linear_combination (a - b * cos θ) * hu - b * sin θ * hv + b ^ 2 * sin_sq_add_cos_sq θ
  have hr : 0 < r := sqrt_pos.mpr hpos
  have hr2 : (a + b * cos θ) ^ 2 + (b * sin θ) ^ 2 = r ^ 2 := (sq_sqrt hpos.le).symm
  let ψ := atan2 (b * sin θ) (a + b * cos θ)
  have hu : r * cos ψ = a + b * cos θ := mul_cos_atan2 hr.le hr2
  have hv : r * sin ψ = b * sin θ := mul_sin_atan2 hr.le hr2
  have hx : r * cos (φ + ψ) = a * cos φ + b * cos (φ + θ) := by
    rw [cos_add, cos_add]
    linear_combination cos φ * hu - sin φ * hv
  have hy : r * sin (φ + ψ) = a * sin φ + b * sin (φ + θ) := by
    rw [sin_add, sin_add]
    linear_combination sin φ * hu + cos φ * hv
  rw [Real.Angle.coe_sub, coe_atan2 hr hx hy, Real.Angle.coe_add, add_sub_cancel_right]

end Angle

end
