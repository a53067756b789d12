import UrRedisDriver.Lib.Trapezoid
import Mathlib.Analysis.SpecialFunctions.Integrals.Basic

/-!
# The shortest move from rest to rest

A move is given by its speed over time, which starts and ends at zero, stays within a highest
speed and changes no faster than the ramps. However it is shaped, it takes no less than the
best of the trapezoids; and each trapezoid is a move.
-/

noncomputable section

open Set intervalIntegral
open MeasureTheory (volume)

namespace Trapezoid

variable {d v a w T : ℝ} {u : ℝ → ℝ}

/-- A move over the distance `d` in the time `T`, by its speed. -/
structure Profile (d v a T : ℝ) (u : ℝ → ℝ) : Prop where
  nonneg : 0 ≤ T
  start : u 0 = 0
  stop : u T = 0
  speed : ∀ t ∈ Icc 0 T, |u t| ≤ v
  ramp : ∀ s ∈ Icc 0 T, ∀ t ∈ Icc 0 T, |u s - u t| ≤ a * |s - t|
  distance : ∫ t in 0..T, u t = d

/-- The distance can be covered from rest to rest in the time `T`. -/
def Feasible (d v a T : ℝ) : Prop := ∃ u, Profile d v a T u

/-! ## No move is faster -/

namespace Profile

variable (h : Profile d v a T u)
include h

theorem le_up {t : ℝ} (ht : t ∈ Icc 0 T) : u t ≤ a * t := by
  have hramp := h.ramp t ht 0 ⟨le_rfl, h.nonneg⟩
  rw [h.start, sub_zero, sub_zero, abs_of_nonneg ht.1] at hramp
  exact (le_abs_self _).trans hramp

theorem le_down {t : ℝ} (ht : t ∈ Icc 0 T) : u t ≤ a * (T - t) := by
  have hramp := h.ramp t ht T ⟨h.nonneg, le_rfl⟩
  rw [h.stop, sub_zero, abs_sub_comm, abs_of_nonneg (sub_nonneg.mpr ht.2)] at hramp
  exact (le_abs_self _).trans hramp

theorem le_speed {t : ℝ} (ht : t ∈ Icc 0 T) : u t ≤ v := (le_abs_self _).trans (h.speed t ht)

theorem continuousOn (ha : 0 ≤ a) : ContinuousOn u (Icc 0 T) := by
  have hlip : LipschitzOnWith a.toNNReal u (Icc 0 T) := by
    refine LipschitzOnWith.of_dist_le_mul fun s hs t ht => ?_
    rw [Real.dist_eq, Real.dist_eq, Real.coe_toNNReal a ha]
    exact h.ramp s hs t ht
  exact hlip.continuousOn

theorem integrable (ha : 0 ≤ a) {l r : ℝ} (hl : 0 ≤ l) (hlr : l ≤ r) (hr : r ≤ T) :
    IntervalIntegrable u volume l r := by
  refine ContinuousOn.intervalIntegrable ((h.continuousOn ha).mono ?_)
  rw [uIcc_of_le hlr]
  exact Icc_subset_Icc hl hr

/-- Over a part of the move it gets no further than a speed that bounds it there. -/
theorem part_le (ha : 0 ≤ a) {l r : ℝ} (hl : 0 ≤ l) (hlr : l ≤ r) (hr : r ≤ T) {f : ℝ → ℝ}
    (hf : Continuous f) (hle : ∀ t ∈ Icc l r, u t ≤ f t) :
    ∫ t in l..r, u t ≤ ∫ t in l..r, f t :=
  integral_mono_on hlr (h.integrable ha hl hlr hr) (hf.intervalIntegrable l r) hle

end Profile

theorem integral_up (a r : ℝ) : ∫ t in 0..r, a * t = a * r ^ 2 / 2 := by
  rw [integral_const_mul, integral_id]
  ring

theorem integral_down (a T l : ℝ) : ∫ t in l..T, a * (T - t) = a * (T - l) ^ 2 / 2 := by
  rw [integral_const_mul, integral_sub (by simp) (by simp), integral_id, integral_const,
    smul_eq_mul]
  ring

theorem Profile.distance_split (h : Profile d v a T u) (ha : 0 ≤ a) {l r : ℝ} (hl : 0 ≤ l)
    (hlr : l ≤ r) (hr : r ≤ T) :
    d = (∫ t in 0..l, u t) + (∫ t in l..r, u t) + ∫ t in r..T, u t := by
  rw [integral_add_adjacent_intervals (h.integrable ha le_rfl hl (hlr.trans hr))
    (h.integrable ha hl hlr hr), integral_add_adjacent_intervals
    (h.integrable ha le_rfl (hl.trans hlr) hr) (h.integrable ha (hl.trans hlr) hr le_rfl),
    h.distance]

/-- Speeding up half of the time and slowing down the other half gets the furthest. -/
theorem Profile.le_triangle (h : Profile d v a T u) (ha : 0 ≤ a) : d ≤ a * T ^ 2 / 4 := by
  have hT := h.nonneg
  have hhalf : T / 2 ≤ T := by linarith
  have hhalf0 : 0 ≤ T / 2 := by linarith
  -- before half time the ramp up bounds the speed, after it the ramp down
  have hup := h.part_le ha le_rfl hhalf0 hhalf (f := fun t => a * t) (by fun_prop)
    fun t ht => h.le_up ⟨ht.1, ht.2.trans hhalf⟩
  have hdown := h.part_le ha hhalf0 hhalf le_rfl (f := fun t => a * (T - t)) (by fun_prop)
    fun t ht => h.le_down ⟨hhalf0.trans ht.1, ht.2⟩
  have hsplit := h.distance_split ha hhalf0 le_rfl hhalf
  rw [integral_up] at hup
  rw [integral_down] at hdown
  rw [integral_same, add_zero] at hsplit
  nlinarith

/-- Between two full ramps it gets no further than at the highest speed. -/
theorem Profile.le_trapezoid (h : Profile d v a T u) (ha : 0 < a) (hv : 0 < v)
    (hT : 2 * (v / a) ≤ T) : d ≤ v * (T - v / a) := by
  have hr : 0 < v / a := div_pos hv ha
  have hl : v / a ≤ T - v / a := by linarith
  -- three parts: the ramp up, the greatest speed, the ramp down
  have hup := h.part_le ha.le le_rfl hr.le (hl.trans (by linarith)) (f := fun t => a * t)
    (by fun_prop) fun t ht => h.le_up ⟨ht.1, by linarith [ht.2]⟩
  have hmid := h.part_le ha.le hr.le hl (by linarith) (f := fun _ => v) (by fun_prop)
    fun t ht => h.le_speed ⟨by linarith [ht.1], by linarith [ht.2]⟩
  have hdown := h.part_le ha.le (hr.le.trans hl) (by linarith) le_rfl
    (f := fun t => a * (T - t)) (by fun_prop) fun t ht => h.le_down ⟨by linarith [ht.1], ht.2⟩
  have hsplit := h.distance_split ha.le hr.le hl (by linarith)
  rw [integral_up] at hup
  rw [integral_const, smul_eq_mul] at hmid
  rw [integral_down] at hdown
  have hramp : a * (v / a) ^ 2 = v * (v / a) := by
    field_simp
  have hramp' : a * (T - (T - v / a)) ^ 2 = v * (v / a) := by
    rw [sub_sub_cancel, hramp]
  rw [hramp] at hup
  rw [hramp'] at hdown
  linarith

/-- **No move beats the best trapezoid.** -/
theorem Profile.least_le (h : Profile d v a T u) (hd : 0 < d) (ha : 0 < a) (hv : 0 < v) {t : ℝ}
    (ht : IsLeast (time d a '' Ioc 0 v) t) : t ≤ T := by
  by_cases hlong : v * v / a < d
  · -- too long for two ramps alone
    have hT : 2 * (v / a) ≤ T := by
      by_contra hlt
      have htri := h.le_triangle ha.le
      have hT2 : T ^ 2 ≤ (2 * (v / a)) ^ 2 := by
        have := h.nonneg
        gcongr
        exact (not_le.mp hlt).le
      have hfull : a * (2 * (v / a)) ^ 2 / 4 = v * v / a := by
        field_simp
        ring
      have := mul_le_mul_of_nonneg_left hT2 ha.le
      linarith
    have htrap := h.le_trapezoid ha hv hT
    have htime : time d a v ≤ T := by
      unfold time
      have : d / v ≤ T - v / a := by
        rw [div_le_iff₀ hv]
        linarith
      linarith
    exact (ht.2 ⟨v, ⟨hv, le_rfl⟩, rfl⟩).trans htime
  · have htri := h.le_triangle ha.le
    have hle : 2 * √(d / a) ≤ T := by
      have hsq : d / a ≤ (T / 2) ^ 2 := by
        rw [div_le_iff₀ ha]
        nlinarith
      have := Real.sqrt_le_sqrt hsq
      rw [Real.sqrt_sq (by have := h.nonneg; linarith)] at this
      linarith
    exact (ht.2 (isLeast_of_short hd ha hv (not_lt.mp hlong)).1).trans hle

/-! ## The trapezoids are moves -/

/-- Full ramps with the speed `w` between them. -/
def trapezoid (a w T t : ℝ) : ℝ := min (a * t) (min w (a * (T - t)))

theorem continuous_trapezoid (a w T : ℝ) : Continuous (trapezoid a w T) := by
  unfold trapezoid
  fun_prop

theorem trapezoid_ramp (ha : 0 ≤ a) (s t : ℝ) :
    |trapezoid a w T s - trapezoid a w T t| ≤ a * |s - t| := by
  have hup : |a * s - a * t| ≤ a * |s - t| := by rw [← mul_sub, abs_mul, abs_of_nonneg ha]
  have hdown : |a * (T - s) - a * (T - t)| ≤ a * |s - t| := by
    rw [← mul_sub, sub_sub_sub_cancel_left, abs_mul, abs_of_nonneg ha, abs_sub_comm]
  have hflat : |w - w| ≤ a * |s - t| := by
    rw [sub_self, abs_zero]
    positivity
  exact (abs_min_sub_min_le_max _ _ _ _).trans
    (max_le hup ((abs_min_sub_min_le_max _ _ _ _).trans (max_le hflat hdown)))

/-- The three parts of a trapezoid with room for both ramps. -/
theorem trapezoid_parts (ha : 0 < a) (hT : 2 * (w / a) ≤ T) :
    (∀ t ∈ Icc 0 (w / a), trapezoid a w T t = a * t)
      ∧ (∀ t ∈ Icc (w / a) (T - w / a), trapezoid a w T t = w)
      ∧ ∀ t ∈ Icc (T - w / a) T, trapezoid a w T t = a * (T - t) := by
  have hw : a * (w / a) = w := mul_div_cancel₀ w ha.ne'
  refine ⟨fun t ht => ?_, fun t ht => ?_, fun t ht => ?_⟩
  · have h1 : a * t ≤ a * (w / a) := by gcongr; exact ht.2
    have h2 : a * t ≤ a * (T - t) := by gcongr; linarith [ht.2]
    exact min_eq_left (le_min (by linarith) h2)
  · have h1 : a * (w / a) ≤ a * t := by gcongr; exact ht.1
    have h2 : a * (w / a) ≤ a * (T - t) := by gcongr; linarith [ht.2]
    rw [trapezoid, min_eq_left (by linarith : w ≤ a * (T - t)), min_eq_right (by linarith)]
  · have h1 : a * (T - t) ≤ a * (w / a) := by gcongr; linarith [ht.1]
    have h2 : a * (T - t) ≤ a * t := by gcongr; linarith [ht.1]
    rw [trapezoid, min_eq_right (by linarith : a * (T - t) ≤ w), min_eq_right h2]

theorem integral_trapezoid (ha : 0 < a) (hw : 0 < w) (hT : 2 * (w / a) ≤ T) :
    ∫ t in 0..T, trapezoid a w T t = w * (T - w / a) := by
  obtain ⟨hup, hflat, hdown⟩ := trapezoid_parts ha hT
  have hr : 0 < w / a := div_pos hw ha
  have hint (l r : ℝ) : IntervalIntegrable (trapezoid a w T) volume l r :=
    (continuous_trapezoid a w T).intervalIntegrable l r
  -- the area of the three parts
  rw [← integral_add_adjacent_intervals (hint 0 (T - w / a)) (hint (T - w / a) T),
    ← integral_add_adjacent_intervals (hint 0 (w / a)) (hint (w / a) (T - w / a)),
    integral_congr (g := fun t => a * t) fun t ht => hup t (by rwa [uIcc_of_le hr.le] at ht),
    integral_congr (g := fun _ => w) fun t ht =>
      hflat t (by rwa [uIcc_of_le (by linarith)] at ht),
    integral_congr (g := fun t => a * (T - t)) fun t ht =>
      hdown t (by rwa [uIcc_of_le (by linarith)] at ht),
    integral_up, integral_const, integral_down, smul_eq_mul]
  field_simp
  ring

theorem profile_trapezoid (ha : 0 < a) (hw : 0 < w) (hwv : w ≤ v) (hroom : w * w ≤ a * d) :
    Profile d v a (time d a w) (trapezoid a w (time d a w)) := by
  have hr : 0 < w / a := div_pos hw ha
  -- there is room for both ramps
  have hT : 2 * (w / a) ≤ time d a w := by
    have : w / a ≤ d / w := by
      rw [div_le_div_iff₀ ha hw]
      linarith
    unfold time
    linarith
  have hT0 : 0 ≤ time d a w := by linarith
  obtain ⟨hup, -, hdown⟩ := trapezoid_parts ha hT
  refine ⟨hT0, ?_, ?_, fun t ht => ?_, fun s _ t _ => trapezoid_ramp ha.le s t, ?_⟩
  · rw [hup 0 ⟨le_rfl, hr.le⟩, mul_zero]
  · rw [hdown _ ⟨by linarith, le_rfl⟩, sub_self, mul_zero]
  · have hnonneg : 0 ≤ trapezoid a w (time d a w) t :=
      le_min (mul_nonneg ha.le ht.1) (le_min hw.le (mul_nonneg ha.le (sub_nonneg.mpr ht.2)))
    rw [abs_of_nonneg hnonneg]
    exact ((min_le_right _ _).trans (min_le_left _ _)).trans hwv
  · rw [integral_trapezoid ha hw hT]
    unfold time
    field_simp
    ring

/-- **The best trapezoid is the shortest move there is.** -/
theorem isLeast_feasible (hd : 0 < d) (ha : 0 < a) (hv : 0 < v) {t : ℝ}
    (ht : IsLeast (time d a '' Ioc 0 v) t) : IsLeast {T | Feasible d v a T} t := by
  refine ⟨?_, fun T ⟨u, hu⟩ => hu.least_le hd ha hv ht⟩
  by_cases hlong : v * v / a < d
  · have heq := ht.unique (isLeast_of_long ha hv hlong)
    rw [div_lt_iff₀ ha] at hlong
    exact ⟨_, heq ▸ profile_trapezoid ha hv le_rfl (by linarith)⟩
  · -- the peak that is reached half way
    have heq := ht.unique (isLeast_of_short hd ha hv (not_lt.mp hlong))
    rw [heq, ← time_sqrt hd ha]
    rw [not_lt, le_div_iff₀ ha] at hlong
    refine ⟨_, profile_trapezoid ha (by positivity) ?_ (Real.mul_self_sqrt (by positivity)).le⟩
    rw [Real.sqrt_le_left hv.le, sq]
    linarith

/-- No way to go takes no time. -/
theorem isLeast_feasible_zero (hv : 0 ≤ v) (ha : 0 ≤ a) :
    IsLeast {T | Feasible 0 v a T} 0 := by
  refine ⟨⟨fun _ => 0, ⟨le_rfl, rfl, rfl, ?_, ?_, ?_⟩⟩, fun T ⟨u, hu⟩ => hu.nonneg⟩
  · intro t _
    simpa using hv
  · intro s _ t _
    rw [sub_self, abs_zero]
    positivity
  · simp

end Trapezoid

end
