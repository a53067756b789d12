import Mathlib.Analysis.SpecialFunctions.Pow.NNReal
import Mathlib.Order.Bounds.Image

/-!
# Moves from rest to rest

A move over a distance `d` that speeds up at `a`, keeps the speed `u` and slows down at `a`
takes `u / a + d / u`. The best speed to keep, up to a highest one, is the highest one, or
where the move is too short for it the one that is reached half way.
-/

noncomputable section

namespace Trapezoid

variable {d a u v w : ℝ}

/-- The duration of a move that reaches the speed `u`. -/
def time (d a u : ℝ) : ℝ := u / a + d / u

/-- As long as the move is not too short for it, more speed makes it shorter. -/
theorem time_anti (ha : 0 < a) (hu : 0 < u) (huw : u ≤ w) (hw : w * w ≤ a * d) :
    time d a w ≤ time d a u := by
  have hw0 : 0 < w := hu.trans_le huw
  -- the difference of the times has the factor `a * d - u * w`, which is the room that is left
  have hdiff : time d a u - time d a w = (w - u) * (a * d - u * w) / (a * u * w) := by
    unfold time
    field_simp
    ring
  have huw' : u * w ≤ a * d := (mul_le_mul_of_nonneg_right huw hw0.le).trans hw
  have hnonneg : 0 ≤ time d a u - time d a w := by
    rw [hdiff]
    exact div_nonneg (mul_nonneg (sub_nonneg.mpr huw) (sub_nonneg.mpr huw')) (by positivity)
  linarith

/-- No speed beats the one that is reached half way. -/
theorem two_sqrt_le_time (hd : 0 < d) (ha : 0 < a) (hu : 0 < u) :
    2 * √(d / a) ≤ time d a u := by
  have hx : √(u / a) * √(d / u) = √(d / a) := by
    rw [← Real.sqrt_mul (by positivity)]
    congr 1
    field_simp
  have hsq : 2 * √(u / a) * √(d / u) ≤ √(u / a) ^ 2 + √(d / u) ^ 2 := two_mul_le_add_sq _ _
  rw [mul_assoc, hx, Real.sq_sqrt (by positivity), Real.sq_sqrt (by positivity)] at hsq
  exact hsq

theorem time_sqrt (hd : 0 < d) (ha : 0 < a) : time d a √(a * d) = 2 * √(d / a) := by
  have hup : √(a * d) / a = √(d / a) := by
    rw [Real.sqrt_mul ha.le, Real.sqrt_div hd.le, div_eq_div_iff ha.ne' (by positivity)]
    linear_combination √d * Real.mul_self_sqrt ha.le
  have hacross : d / √(a * d) = √(d / a) := by
    rw [Real.sqrt_mul ha.le, Real.sqrt_div hd.le, div_eq_div_iff (by positivity) (by positivity)]
    linear_combination -√a * Real.mul_self_sqrt hd.le
  rw [time, hup, hacross, two_mul]

/-- The highest speed is the best one where the move is long enough for it. -/
theorem isLeast_of_long (ha : 0 < a) (hv : 0 < v) (h : v * v / a < d) :
    IsLeast (time d a '' Set.Ioc 0 v) (time d a v) := by
  refine ⟨⟨v, ⟨hv, le_rfl⟩, rfl⟩, ?_⟩
  rintro _ ⟨u, ⟨hu, huv⟩, rfl⟩
  refine time_anti ha hu huv ?_
  rw [div_lt_iff₀ ha] at h
  linarith

/-- And where it is not, a lower one. -/
theorem isLeast_of_short (hd : 0 < d) (ha : 0 < a) (hv : 0 < v) (h : d ≤ v * v / a) :
    IsLeast (time d a '' Set.Ioc 0 v) (2 * √(d / a)) := by
  constructor
  · refine ⟨√(a * d), ⟨by positivity, ?_⟩, time_sqrt hd ha⟩
    rw [Real.sqrt_le_left hv.le, sq]
    rw [le_div_iff₀ ha] at h
    linarith
  · rintro _ ⟨u, ⟨hu, -⟩, rfl⟩
    exact two_sqrt_le_time hd ha hu

/-- With a higher speed allowed and steeper ramps a move takes no longer. -/
theorem least_anti {a' v' t t' : ℝ} (ha : 0 < a) (haa : a ≤ a') (hvv : v ≤ v')
    (h : IsLeast (time d a '' Set.Ioc 0 v) t) (h' : IsLeast (time d a' '' Set.Ioc 0 v') t') :
    t' ≤ t := by
  obtain ⟨u, ⟨hu, huv⟩, rfl⟩ := h.1
  have hramp : time d a' u ≤ time d a u :=
    add_le_add (div_le_div_of_nonneg_left hu.le ha haa) le_rfl
  exact (h'.2 ⟨u, ⟨hu, huv.trans hvv⟩, rfl⟩).trans hramp

/-- It takes no less than at the highest speed all the way. -/
theorem div_le_least {t : ℝ} (hd : 0 ≤ d) (ha : 0 < a)
    (h : IsLeast (time d a '' Set.Ioc 0 v) t) : d / v ≤ t := by
  obtain ⟨u, ⟨hu, huv⟩, rfl⟩ := h.1
  have hacross : d / v ≤ d / u := div_le_div_of_nonneg_left hd hu huv
  have hup : 0 ≤ u / a := by positivity
  unfold time
  linarith

end Trapezoid

end
