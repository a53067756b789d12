import UrRedisDriver.Proof.Durations

/-!
# A plan run slower throughout

Lowering the velocities to a share `r` and the accelerations to `r * r` is the same motion with
time running slower. A segment that the joints limit takes exactly `1 / r` as long. A straight
one that the ceiling on the tool speed limits may keep its speed, so it takes at most that.
-/

namespace UrRedisDriver.Proof

open UrRedisDriver

noncomputable section

variable {src : LimitSource} {request : PlanRequest} {traj traj' : PlannedTrajectory}
  {dh : DhParameters} {base : Limits ℝ} {dq fromQ toQ : Joints ℝ} {s s' : SegmentSpeed ℝ}
  {x : PlanScaling ℝ} {r sv sa ceiling : ℝ}

/-! ## One segment -/

/-- Time running slower, for whatever distance, velocity and acceleration. -/
theorem trapezoidDuration_stretched (hr : 0 < r) (d v a : ℝ) :
    trapezoidDuration d (r * v) (r * r * a) = trapezoidDuration d v a / r := by
  have hrr : 0 < r * r := mul_pos hr hr
  have hstill : (|d| ≤ 0 ∨ r * v ≤ 0 ∨ r * r * a ≤ 0) ↔ |d| ≤ 0 ∨ v ≤ 0 ∨ a ≤ 0 := by
    simp only [← not_lt, mul_pos_iff_of_pos_left hr, mul_pos_iff_of_pos_left hrr]
  unfold trapezoidDuration
  dsimp only
  by_cases h : |d| ≤ 0 ∨ v ≤ 0 ∨ a ≤ 0
  · rw [if_pos (hstill.mpr h), if_pos h, zero_div]
  · rw [if_neg (hstill.not.mpr h), if_neg h]
    simp only [not_or, not_le] at h
    obtain ⟨-, hv, ha⟩ := h
    -- the ramps cover the same distance
    have hramp : r * v * (r * v) / (r * r * a) = v * v / a := by
      field_simp
    rw [hramp]
    split
    · have hsqrt : √(|d| / (r * r * a)) = √(|d| / a) / r := by
        rw [show |d| / (r * r * a) = |d| / a / (r * r) by field_simp, Real.sqrt_div' _ hrr.le,
          Real.sqrt_mul_self hr.le]
      rw [hsqrt]
      ring
    · field_simp

/-- The scaling with time running slower. -/
def slowed (r : ℝ) (x : PlanScaling ℝ) : PlanScaling ℝ := ⟨r * x.velocity, r * r * x.acceleration⟩

/-- Both scalings are in range. -/
structure InRange (r : ℝ) (x : PlanScaling ℝ) : Prop where
  share : 0 < r ∧ r ≤ 1
  velocity : 0 < x.velocity ∧ x.velocity ≤ 1
  acceleration : 0 < x.acceleration ∧ x.acceleration ≤ 1

theorem InRange.square (h : InRange r x) : 0 < r * r ∧ r * r ≤ 1 :=
  ⟨mul_pos h.share.1 h.share.1, mul_le_one₀ h.share.2 h.share.1.le h.share.2⟩

theorem InRange.slowed_velocity (h : InRange r x) : 0 < r * x.velocity ∧ r * x.velocity ≤ 1 :=
  ⟨mul_pos h.share.1 h.velocity.1, mul_le_one₀ h.share.2 h.velocity.1.le h.velocity.2⟩

theorem InRange.slowed_acceleration (h : InRange r x) :
    0 < r * r * x.acceleration ∧ r * r * x.acceleration ≤ 1 :=
  ⟨mul_pos h.square.1 h.acceleration.1,
    mul_le_one₀ h.square.2 h.acceleration.1.le h.acceleration.2⟩

/-- The lower scaling is the slowed one. -/
theorem InRange.scaledDown (h : InRange r x) : ScaledDown (slowed r x) x where
  velocity := ⟨h.slowed_velocity.1, mul_le_of_le_one_left h.velocity.1.le h.share.2, h.velocity.2⟩
  acceleration := ⟨h.slowed_acceleration.1,
    mul_le_of_le_one_left h.acceleration.1.le h.square.2, h.acceleration.2⟩

/-- A joint segment keeps its share of both. -/
theorem jointSegmentSpeed_stretched (hx : InRange r x)
    (h : jointSegmentSpeed dq (base.scaled x) = some s)
    (h' : jointSegmentSpeed dq (base.scaled (slowed r x)) = some s') :
    s'.velocity = r * s.velocity ∧ s'.acceleration = r * r * s.acceleration := by
  obtain ⟨⟨i, hi, -⟩, -⟩ := (jointSegmentSpeed_least h).1
  obtain ⟨s0, hs0⟩ := jointSegmentSpeed_isSome (l := base) hi
  -- both are the unscaled speed, scaled
  obtain ⟨hv, ha⟩ := jointSegmentSpeed_scaled hx.velocity hx.acceleration hs0 h
  obtain ⟨hv', ha'⟩ := jointSegmentSpeed_scaled hx.slowed_velocity hx.slowed_acceleration hs0 h'
  constructor
  · rw [hv, hv', mul_assoc]
  · rw [ha, ha', mul_assoc]

/-- A straight segment keeps at least its share of the velocity. -/
theorem cap_stretched {rates : List (Joints ℝ)} (hx : InRange r x) (hc : 0 < ceiling) :
    r * (cartesianSpeedCap rates (base.scaled x) ceiling).velocity
      ≤ (cartesianSpeedCap rates (base.scaled (slowed r x)) ceiling).velocity := by
  have h := cartesianSpeedCap_least rates (base.scaled x) ceiling
  have h' := cartesianSpeedCap_least rates (base.scaled (slowed r x)) ceiling
  have hvx : (base.scaled x).velocityMax = fun i => base.velocityMax i * x.velocity := by
    rw [Limits.scaled, clampScale_of_mem hx.velocity]
  have hvy : (base.scaled (slowed r x)).velocityMax
      = fun i => base.velocityMax i * (r * x.velocity) := by
    unfold Limits.scaled slowed
    rw [clampScale_of_mem hx.slowed_velocity]
  rw [hvx, toolSpeeds_scaled] at h
  rw [hvy, toolSpeeds_scaled] at h'
  rcases h'.1 with hceil | ⟨z, hz, hz'⟩
  · -- the ceiling is not lowered
    have hle : (cartesianSpeedCap rates (base.scaled x) ceiling).velocity ≤ ceiling :=
      h.2 (.inl rfl)
    rw [hceil]
    exact (mul_le_mul_of_nonneg_left hle hx.share.1.le).trans
      (mul_le_of_le_one_left hc.le hx.share.2)
  · have hle := h.2 (.inr ⟨z, hz, rfl⟩)
    rw [← hz']
    dsimp only
    rw [mul_assoc]
    exact mul_le_mul_of_nonneg_left hle hx.share.1.le

/-- What a segment keeps of the one it is slowed from. -/
structure Stretched (r : ℝ) (s s' : SegmentSpeed ℝ) : Prop where
  velocity_pos : 0 < s.velocity
  acceleration_pos : 0 < s.acceleration
  velocity : r * s.velocity ≤ s'.velocity
  acceleration : r * r * s.acceleration ≤ s'.acceleration

theorem Stretched.duration_le {d : ℝ} (h : Stretched r s s') (hr : 0 < r) :
    trapezoidDuration d s'.velocity s'.acceleration
      ≤ trapezoidDuration d s.velocity s.acceleration / r := by
  rw [← trapezoidDuration_stretched hr]
  exact trapezoidDuration_anti (mul_pos hr h.velocity_pos)
    (mul_pos (mul_pos hr hr) h.acceleration_pos) h.velocity h.acceleration

theorem segmentSpeed_stretched {k : Nat} {interpolation : Interpolation} (hbase : Driven base)
    (hx : InRange r x) (hc : 0 < ceiling)
    (h : segmentSpeed dh (base.scaled x) ceiling k interpolation fromQ toQ = .ok s)
    (h' : segmentSpeed dh (base.scaled (slowed r x)) ceiling k interpolation fromQ toQ = .ok s') :
    Stretched r s s' ∧ (interpolation = .joint →
      s'.velocity = r * s.velocity ∧ s'.acceleration = r * r * s.acceleration) := by
  have hslower := segmentSpeed_slower hbase hx.scaledDown hc h' h
  have hpos : 0 < s.velocity := hslower.velocity_pos.trans_le hslower.velocity
  have hapos : 0 < s.acceleration := hslower.acceleration_pos.trans_le hslower.acceleration
  cases interpolation with
  | joint =>
      have heq := jointSegmentSpeed_stretched hx (Except.ofOption_eq_ok.mp h)
        (Except.ofOption_eq_ok.mp h')
      exact ⟨⟨hpos, hapos, heq.1.ge, heq.2.ge⟩, fun _ => heq⟩
  | linear =>
      refine ⟨?_, fun hjoint => Interpolation.noConfusion hjoint⟩
      obtain ⟨rates, hrates, heq⟩ := Except.bind_eq_ok.mp h
      obtain ⟨rates', hrates', heq'⟩ := Except.bind_eq_ok.mp h'
      cases heq
      cases heq'
      have hrates := Except.ofOption_eq_ok.mp hrates
      have hrates' := Except.ofOption_eq_ok.mp hrates'
      rw [sampleLinearSegment_scaled] at hrates hrates'
      rw [hrates] at hrates'
      cases hrates'
      have hcap : r * (cartesianSpeedCap rates (base.scaled x) ceiling).velocity
          ≤ (cartesianSpeedCap rates (base.scaled (slowed r x)) ceiling).velocity :=
        cap_stretched hx hc
      refine ⟨hpos, hapos, hcap, ?_⟩
      -- the acceleration follows the velocity, so it keeps more than the square
      rw [cartesianSpeedCap_acceleration, cartesianSpeedCap_acceleration, if_pos hc, if_pos hc,
        ← mul_div_assoc, div_le_div_iff_of_pos_right hc, mul_assoc]
      exact (mul_le_of_le_one_left (mul_nonneg hx.share.1.le hpos.le) hx.share.2).trans hcap

/-! ## A whole plan -/

theorem planSegments_stretched {i : Nat} {q : Joints ℝ} {pairs : List (PlanWaypoint × Joints ℝ)}
    {ss ss' : List Segment} (hbase : Driven base) (hx : InRange r x) (hc : 0 < ceiling)
    (h : planSegments dh (base.scaled x) ceiling i q pairs = .ok ss)
    (h' : planSegments dh (base.scaled (slowed r x)) ceiling i q pairs = .ok ss') :
    (ss'.map Segment.duration).sum ≤ (ss.map Segment.duration).sum / r
      ∧ ((∀ p ∈ pairs, p.1.interpolation = .joint) →
        (ss'.map Segment.duration).sum = (ss.map Segment.duration).sum / r) := by
  induction pairs generalizing i q ss ss' with
  | nil =>
      cases h
      cases h'
      simp
  | cons p ps ih =>
      obtain ⟨wp, toQ⟩ := p
      obtain ⟨t, ht, h⟩ := Except.bind_eq_ok.mp h
      obtain ⟨ts, hts, heq⟩ := Except.bind_eq_ok.mp h
      obtain ⟨t', ht', h'⟩ := Except.bind_eq_ok.mp h'
      obtain ⟨ts', hts', heq'⟩ := Except.bind_eq_ok.mp h'
      cases heq
      cases heq'
      obtain ⟨v, hv, heq⟩ := Except.bind_eq_ok.mp ht
      obtain ⟨v', hv', heq'⟩ := Except.bind_eq_ok.mp ht'
      cases heq
      cases heq'
      obtain ⟨hle, hjoint⟩ := segmentSpeed_stretched hbase hx hc hv hv'
      obtain ⟨hrest, hrestJoint⟩ := ih hts hts'
      simp only [List.map_cons, List.sum_cons, add_div]
      -- each segment takes at most its share longer, and exactly that where it is swept by joints
      refine ⟨add_le_add (hle.duration_le hx.share.1) hrest, ?_⟩
      intro hall
      obtain ⟨hvel, hacc⟩ := hjoint (hall _ List.mem_cons_self)
      rw [hrestJoint fun p hp => hall p (List.mem_cons_of_mem _ hp), hvel, hacc,
        trapezoidDuration_stretched hx.share.1]

/--
**A plan run slower throughout.** Lower the velocity scaling of a plan to a share `r` of it and
the acceleration scaling to `r * r`. The estimate gets no shorter and at most `1 / r` as long,
and if every waypoint is reached by a joint move it gets exactly that.
-/
theorem plan_stretched (hacc : ∀ a, request.accelerationMax = some a → ∀ i, 0 < a i)
    (hc : 0 < request.maxCartesianSpeed) (hr : 0 < r ∧ r ≤ 1) (hsv : 0 < sv ∧ sv ≤ 1)
    (hsa : 0 < sa ∧ sa ≤ 1) (h : plan src { request with scaling := ⟨sv, sa⟩ } = .ok traj)
    (h' : plan src { request with scaling := ⟨r * sv, r * r * sa⟩ } = .ok traj') :
    traj.durationEstimate ≤ traj'.durationEstimate
      ∧ traj'.durationEstimate ≤ traj.durationEstimate / r
      ∧ ((∀ wp ∈ request.waypoints, wp.interpolation = .joint) →
        traj'.durationEstimate = traj.durationEstimate / r) := by
  obtain ⟨dh, base, hroute, -⟩ := plan_route h
  have hx : InRange r ⟨sv, sa⟩ := ⟨hr, hsv, hsa⟩
  -- both requests take the same route
  have hroute' : Route src { request with scaling := slowed r ⟨sv, sa⟩ } dh base (configs traj) :=
    hroute.of_scaling.scaling _
  obtain ⟨startQ, rest, segments, hqs, hsegments, hsum⟩ := plan_duration h hroute
  obtain ⟨startQ', rest', segments', hqs', hsegments', hsum'⟩ := plan_duration h' hroute'
  rw [hqs] at hqs'
  cases hqs'
  rw [hsum, hsum']
  have hdriven : Driven base := hroute.driven hacc
  obtain ⟨hle, hjoint⟩ := planSegments_stretched hdriven hx hc hsegments hsegments'
  refine ⟨planSegments_slower hdriven hx.scaledDown hc hsegments' hsegments, hle, ?_⟩
  intro hall
  exact hjoint fun p hp => hall p.1 (List.of_mem_zip hp).1

/-- A sweep of the bench at half the speed takes twice as long. -/
theorem plan_stretched_trace : ∃ traj traj',
    plan bench.limits (sweepRequest ⟨1, 1⟩ none) = .ok traj
      ∧ plan bench.limits (sweepRequest ⟨1 / 2, 1 / 4⟩ none) = .ok traj'
      ∧ traj'.durationEstimate = traj.durationEstimate / (1 / 2) := by
  obtain ⟨traj, htraj, -⟩ := sweep_planned ⟨1, 1⟩ none
  obtain ⟨traj', htraj', -⟩ := sweep_planned ⟨1 / 2 * 1, 1 / 2 * (1 / 2) * 1⟩ none
  refine ⟨traj, traj', htraj, by norm_num at htraj' ⊢; exact htraj', ?_⟩
  refine (@plan_stretched bench.limits (sweepRequest ⟨1, 1⟩ none) _ _ (1 / 2) 1 1 ?_ ?_
    (by norm_num) (by norm_num) (by norm_num) htraj htraj').2.2 ?_
  · intro a ha
    cases ha
  · norm_num [sweepRequest, defaultMaxCartesianSpeed]
  · intro wp hwp
    obtain ⟨q, -, rfl⟩ := List.mem_map.mp hwp
    rfl

end

end UrRedisDriver.Proof
