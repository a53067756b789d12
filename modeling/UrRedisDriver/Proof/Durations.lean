import UrRedisDriver.Lib.Trapezoid
import UrRedisDriver.Proof.Tight

/-!
# Slower plans take longer

Scaling a plan down lowers the velocity and the acceleration of every segment, or leaves them
at the ceiling. The duration of a segment is the least over the speeds it may reach, so none
gets shorter.
-/

namespace UrRedisDriver.Proof

open UrRedisDriver
open scoped Literals

noncomputable section

variable {src : LimitSource} {request : PlanRequest} {traj traj' : PlannedTrajectory}
  {dh : DhParameters} {base limits : Limits ℝ} {dq fromQ toQ : Joints ℝ}
  {s s' : SegmentSpeed ℝ} {sv sv' sa sa' ceiling : ℝ}

/-! ## One segment -/

/-- The duration is the least over all speeds up to the commanded one. -/
theorem trapezoidDuration_least {d v a : ℝ} (hd : 0 < d) (hv : 0 < v) (ha : 0 < a) :
    IsLeast (Trapezoid.time d a '' Set.Ioc 0 v) (trapezoidDuration d v a) := by
  unfold trapezoidDuration
  dsimp only
  rw [abs_of_pos hd, if_neg (by simp [not_le.mpr hd, not_le.mpr hv, not_le.mpr ha])]
  -- either the way is too short to reach the speed, or it is reached and held
  by_cases h : v * v / a ≥ d
  · rw [if_pos h]
    exact Trapezoid.isLeast_of_short hd ha hv h
  · have htime : 2 * (v / a) + (d - v * v / a) / v = Trapezoid.time d a v := by
      unfold Trapezoid.time
      field_simp
      ring
    rw [if_neg h, htime]
    exact Trapezoid.isLeast_of_long ha hv (not_le.mp h)

/-- Neither a higher velocity nor a higher acceleration makes a segment longer. -/
theorem trapezoidDuration_anti {d v v' a a' : ℝ} (hv : 0 < v) (ha : 0 < a) (hvv : v ≤ v')
    (haa : a ≤ a') : trapezoidDuration d v' a' ≤ trapezoidDuration d v a := by
  have habs : ∀ v a : ℝ, trapezoidDuration d v a = trapezoidDuration |d| v a := by
    intro v a
    unfold trapezoidDuration
    rw [abs_abs]
  rw [habs v' a', habs v a]
  rcases (abs_nonneg d).eq_or_lt with h0 | hd
  · -- no way to go takes no time
    have hzero : ∀ v a : ℝ, trapezoidDuration |d| v a = 0 := by
      intro v a
      rw [← h0]
      unfold trapezoidDuration
      exact if_pos (.inl (by rw [abs_zero]))
    rw [hzero, hzero]
  · exact Trapezoid.least_anti ha haa hvv (trapezoidDuration_least hd hv ha)
      (trapezoidDuration_least hd (hv.trans_le hvv) (ha.trans_le haa))

theorem div_le_trapezoidDuration {d v a : ℝ} (hd : 0 < d) (hv : 0 < v) (ha : 0 < a) :
    d / v ≤ trapezoidDuration d v a :=
  Trapezoid.div_le_least hd.le ha (trapezoidDuration_least hd hv ha)

/-! ## Speeds under two scalings -/

/-- At most as fast, and moving. -/
structure Slower (s s' : SegmentSpeed ℝ) : Prop where
  velocity_pos : 0 < s.velocity
  acceleration_pos : 0 < s.acceleration
  velocity : s.velocity ≤ s'.velocity
  acceleration : s.acceleration ≤ s'.acceleration

/-- One scaling is at most the other, and both are in range. -/
structure ScaledDown (x y : PlanScaling ℝ) : Prop where
  velocity : 0 < x.velocity ∧ x.velocity ≤ y.velocity ∧ y.velocity ≤ 1
  acceleration : 0 < x.acceleration ∧ x.acceleration ≤ y.acceleration ∧ y.acceleration ≤ 1

variable {x y : PlanScaling ℝ}

theorem ScaledDown.low (h : ScaledDown x y) :
    (0 < x.velocity ∧ x.velocity ≤ 1) ∧ 0 < x.acceleration ∧ x.acceleration ≤ 1 :=
  ⟨⟨h.velocity.1, h.velocity.2.1.trans h.velocity.2.2⟩,
    h.acceleration.1, h.acceleration.2.1.trans h.acceleration.2.2⟩

theorem ScaledDown.high (h : ScaledDown x y) :
    (0 < y.velocity ∧ y.velocity ≤ 1) ∧ 0 < y.acceleration ∧ y.acceleration ≤ 1 :=
  ⟨⟨h.velocity.1.trans_le h.velocity.2.1, h.velocity.2.2⟩,
    h.acceleration.1.trans_le h.acceleration.2.1, h.acceleration.2.2⟩

/-- The limits of every joint are above zero. -/
def Driven (base : Limits ℝ) : Prop := ∀ i, 0 < base.velocityMax i ∧ 0 < base.accelerationMax i

theorem leadingSpeeds_pos {bound : Joints ℝ} (hb : ∀ i, 0 < bound i) :
    ∀ v ∈ leadingSpeeds dq bound, 0 < v := by
  have hone : (fun i => bound i * 1) = bound := funext fun i => mul_one _
  have hpos : ∀ v ∈ leadingSpeeds dq (fun i => bound i * 1), 0 < v :=
    (leadingSpeeds_pos_iff one_pos).mpr fun i _ => hb i
  rwa [hone] at hpos

theorem jointSegmentSpeed_slower (hbase : Driven base) (hxy : ScaledDown x y)
    (h : jointSegmentSpeed dq (base.scaled x) = some s)
    (h' : jointSegmentSpeed dq (base.scaled y) = some s') : Slower s s' := by
  obtain ⟨⟨i, hi, -⟩, -⟩ := (jointSegmentSpeed_least h).1
  obtain ⟨s0, hs0⟩ := jointSegmentSpeed_isSome (l := base) hi
  obtain ⟨hv0, ha0⟩ := jointSegmentSpeed_least hs0
  have hvpos : 0 < s0.velocity := hv0.pos_iff.mpr (leadingSpeeds_pos fun i => (hbase i).1)
  have hapos : 0 < s0.acceleration := ha0.pos_iff.mpr (leadingSpeeds_pos fun i => (hbase i).2)
  -- both are the unscaled speed, scaled
  obtain ⟨hv, ha⟩ := jointSegmentSpeed_scaled hxy.low.1 hxy.low.2 hs0 h
  obtain ⟨hv', ha'⟩ := jointSegmentSpeed_scaled hxy.high.1 hxy.high.2 hs0 h'
  constructor
  · rw [hv]
    exact mul_pos hxy.velocity.1 hvpos
  · rw [ha]
    exact mul_pos hxy.acceleration.1 hapos
  · rw [hv, hv']
    exact mul_le_mul_of_nonneg_right hxy.velocity.2.1 hvpos.le
  · rw [ha, ha']
    exact mul_le_mul_of_nonneg_right hxy.acceleration.2.1 hapos.le

/-- Under one ceiling, what is allowed at the lower scaling is the lower. -/
theorem least_scaled_mono {S : Set ℝ} {v v' : ℝ} (hS : ∀ z ∈ S, 0 < z) (hss : sv ≤ sv')
    (h : IsLeast ({ceiling} ∪ (fun z => sv * z) '' S) v)
    (h' : IsLeast ({ceiling} ∪ (fun z => sv' * z) '' S) v') : v ≤ v' := by
  rcases h'.1 with hceil | ⟨z, hz, rfl⟩
  · exact (h.2 (.inl rfl)).trans_eq hceil.symm
  · exact (h.2 (.inr ⟨z, hz, rfl⟩)).trans (mul_le_mul_of_nonneg_right hss (hS z hz).le)

theorem cartesianSpeedCap_slower {rates : List (Joints ℝ)} (hbase : Driven base)
    (hxy : ScaledDown x y) (hc : 0 < ceiling) :
    Slower (cartesianSpeedCap rates (base.scaled x) ceiling)
      (cartesianSpeedCap rates (base.scaled y) ceiling) := by
  have h := cartesianSpeedCap_least rates (base.scaled x) ceiling
  have h' := cartesianSpeedCap_least rates (base.scaled y) ceiling
  have hvx : (base.scaled x).velocityMax = fun i => base.velocityMax i * x.velocity := by
    rw [Limits.scaled, clampScale_of_mem hxy.low.1]
  have hvy : (base.scaled y).velocityMax = fun i => base.velocityMax i * y.velocity := by
    rw [Limits.scaled, clampScale_of_mem hxy.high.1]
  rw [hvx, toolSpeeds_scaled] at h
  rw [hvy, toolSpeeds_scaled] at h'
  have hpos : ∀ z ∈ toolSpeeds rates base.velocityMax, 0 < z :=
    fun z => toolSpeeds_pos fun i => (hbase i).1
  have hv : 0 < (cartesianSpeedCap rates (base.scaled x) ceiling).velocity := by
    refine h.pos_iff.mpr ?_
    rintro _ (rfl | ⟨z, hz, rfl⟩)
    · exact hc
    · exact mul_pos hxy.velocity.1 (hpos z hz)
  have hle := least_scaled_mono hpos hxy.velocity.2.1 h h'
  refine ⟨hv, ?_, hle, ?_⟩
  · rw [cartesianSpeedCap_acceleration, if_pos hc]
    exact div_pos hv hc
  · -- the acceleration follows the velocity, and no scaling of its own
    rw [cartesianSpeedCap_acceleration, cartesianSpeedCap_acceleration, if_pos hc, if_pos hc]
    exact div_le_div_of_nonneg_right hle hc.le

theorem segmentSpeed_slower {k : Nat} {interpolation : Interpolation} (hbase : Driven base)
    (hxy : ScaledDown x y) (hc : 0 < ceiling)
    (h : segmentSpeed dh (base.scaled x) ceiling k interpolation fromQ toQ = .ok s)
    (h' : segmentSpeed dh (base.scaled y) ceiling k interpolation fromQ toQ = .ok s') :
    Slower s s' := by
  cases interpolation with
  | joint =>
      exact jointSegmentSpeed_slower hbase hxy (Except.ofOption_eq_ok.mp h)
        (Except.ofOption_eq_ok.mp h')
  | linear =>
      obtain ⟨rates, hrates, heq⟩ := Except.bind_eq_ok.mp h
      obtain ⟨rates', hrates', heq'⟩ := Except.bind_eq_ok.mp h'
      cases heq
      cases heq'
      have hrates := Except.ofOption_eq_ok.mp hrates
      have hrates' := Except.ofOption_eq_ok.mp hrates'
      -- the samples do not depend on the scaling, so both trips have the same joint rates
      rw [sampleLinearSegment_scaled] at hrates hrates'
      rw [hrates] at hrates'
      cases hrates'
      exact cartesianSpeedCap_slower hbase hxy hc

/-! ## A whole plan -/

theorem planSegments_slower {i : Nat} {q : Joints ℝ} {pairs : List (PlanWaypoint × Joints ℝ)}
    {ss ss' : List Segment} (hbase : Driven base) (hxy : ScaledDown x y) (hc : 0 < ceiling)
    (h : planSegments dh (base.scaled x) ceiling i q pairs = .ok ss)
    (h' : planSegments dh (base.scaled y) ceiling i q pairs = .ok ss') :
    (ss'.map Segment.duration).sum ≤ (ss.map Segment.duration).sum := by
  induction pairs generalizing i q ss ss' with
  | nil =>
      cases h
      cases h'
      exact le_rfl
  | cons p ps ih =>
      obtain ⟨wp, toQ⟩ := p
      obtain ⟨t, ht, h⟩ := Except.bind_eq_ok.mp h
      obtain ⟨ts, hts, heq⟩ := Except.bind_eq_ok.mp h
      obtain ⟨t', ht', h'⟩ := Except.bind_eq_ok.mp h'
      obtain ⟨ts', hts', heq'⟩ := Except.bind_eq_ok.mp h'
      cases heq
      cases heq'
      obtain ⟨v, hv, heq⟩ := Except.bind_eq_ok.mp ht
      obtain ⟨v', hv', heq'⟩ := Except.bind_eq_ok.mp ht'
      cases heq
      cases heq'
      -- both trips cover the same way: only their speeds differ
      have hslower := segmentSpeed_slower hbase hxy hc hv hv'
      exact add_le_add (trapezoidDuration_anti hslower.velocity_pos hslower.acceleration_pos
        hslower.velocity hslower.acceleration) (ih hts hts')

/-! ## What the estimate adds up -/

/-- What a segment is emitted with. -/
structure Pace where
  toQ : Joints ℝ
  velocity : ℝ
  acceleration : ℝ

def paceOf (w : PlannedWaypoint) : Pace := ⟨w.jointPositions, w.velocity, w.acceleration⟩

/-- How long the way of a segment is: what the joint with the most to do moves, or the flange. -/
def wayLength (dh : DhParameters) (interpolation : Interpolation) (fromQ toQ : Joints ℝ) : ℝ :=
  match interpolation with
  | .joint => ⨆ i, |toQ i - fromQ i|
  | .linear => Vec3.norm (flangePoint dh toQ - flangePoint dh fromQ)

/-- The segments from `fromQ` on, each run from rest to rest at the pace it was emitted with. -/
def tripTime (dh : DhParameters) : (fromQ : Joints ℝ) → List (Interpolation × Pace) → ℝ
  | _, [] => 0
  | fromQ, (interpolation, p) :: rest =>
      trapezoidDuration (wayLength dh interpolation fromQ p.toQ) p.velocity p.acceleration
        + tripTime dh p.toQ rest

/-- The estimate of a plan is the time of its trapezoids, one after the other. -/
def SumsUp (request : PlanRequest) (traj : PlannedTrajectory) : Prop :=
  ∀ dh, DhParameters.forModel request.robotModel = some dh →
    traj.durationEstimate = tripTime dh traj.startJointPositions
      ((request.waypoints.map PlanWaypoint.interpolation).zip (traj.waypoints.map paceOf))

theorem segmentDistance_eq (dh : DhParameters) (interpolation : Interpolation)
    (fromQ toQ : Joints ℝ) :
    segmentDistance dh interpolation fromQ toQ = wayLength dh interpolation fromQ toQ := by
  cases interpolation with
  | joint => exact (largestMove_greatest (jointDelta fromQ toQ)).csSup_eq.symm
  | linear => rfl

theorem planSegments_tripTime {i : Nat} {q : Joints ℝ} {wps : List PlanWaypoint}
    {qs : List (Joints ℝ)} {segments : List Segment} (hlen : qs.length = wps.length)
    (h : planSegments dh limits ceiling i q (wps.zip qs) = .ok segments) :
    (segments.map Segment.duration).sum = tripTime dh q
      ((wps.map PlanWaypoint.interpolation).zip ((segments.map Segment.planned).map paceOf)) := by
  induction wps generalizing i q qs segments with
  | nil =>
      cases h
      rfl
  | cons wp wps ih =>
      cases qs with
      | nil => cases hlen
      | cons toQ qs =>
          obtain ⟨segment, hsegment, h⟩ := Except.bind_eq_ok.mp h
          obtain ⟨rest, hrest, h⟩ := Except.bind_eq_ok.mp h
          cases h
          obtain ⟨speed, -, h⟩ := Except.bind_eq_ok.mp hsegment
          cases h
          rw [List.map_cons, List.sum_cons, ih (Nat.succ_inj.mp hlen) hrest, segmentDistance_eq]
          rfl

/-- Blending the corners leaves the pace of every segment as it is. -/
theorem blendCorners_pace {deviation : ℝ} {wps : List PlanWaypoint} {ws : List PlannedWaypoint}
    {i : Nat} {p : Vec3} :
    (blendCorners dh deviation i p wps ws).1.map paceOf = ws.map paceOf := by
  induction wps generalizing i p ws with
  | nil => rfl
  | cons wp wps ih =>
      rcases ws with _ | ⟨w, _ | ⟨w', ws⟩⟩
      · rfl
      · rfl
      · have hrest := @ih (w' :: ws) (i + 1) (flangePoint dh w.jointPositions)
        unfold blendCorners
        dsimp only
        split <;> rw [List.map_cons, hrest] <;> rfl

/-- The segments a plan is made of, whose paces blending has left as they were. -/
theorem plan_segments (h : plan src request = .ok traj)
    (hdh : DhParameters.forModel request.robotModel = some dh) :
    ∃ qs segments, qs.length = request.waypoints.length
      ∧ planSegments dh traj.limits request.maxCartesianSpeed 0 traj.startJointPositions
          (request.waypoints.zip qs) = .ok segments
      ∧ traj.waypoints.map paceOf = (segments.map Segment.planned).map paceOf
      ∧ traj.durationEstimate = (segments.map Segment.duration).sum := by
  obtain ⟨dh', _, qs, segments, hdh', -, -, -, hqs, hsegments, hwaypoints, hsum⟩ := plan_stages h
  obtain rfl : dh' = dh := Option.some.inj (hdh'.symm.trans hdh)
  exact ⟨qs, segments, resolveWaypoints_length hqs, hsegments,
    by rw [hwaypoints, blendCorners_pace], hsum⟩

theorem plan_sumsUp (h : plan src request = .ok traj) : SumsUp request traj := by
  intro dh hdh
  obtain ⟨qs, segments, hlen, hsegments, hpaces, hsum⟩ := plan_segments h hdh
  rw [hsum, hpaces]
  exact planSegments_tripTime hlen hsegments

/-! ## Two plans of a request -/

/-- The estimate of a plan is the sum over the segments of its route. -/
theorem plan_duration {qs : List (Joints ℝ)} (h : plan src request = .ok traj)
    (hroute : Route src request dh base qs) :
    ∃ startQ rest segments, qs = startQ :: rest
      ∧ planSegments dh (base.scaled request.scaling) request.maxCartesianSpeed 0 startQ
        (request.waypoints.zip rest) = .ok segments
      ∧ traj.durationEstimate = (segments.map Segment.duration).sum := by
  obtain ⟨dh', modelled, rest, segments, hdh, hmodelled, hlimits, hstart, hrest, hsegments, -,
    hsum⟩ := plan_stages h
  rw [hlimits] at hstart hrest hsegments
  rw [resolveWaypoints_scaled] at hrest
  have hroute' : Route src request dh' _ (traj.startJointPositions :: rest) :=
    ⟨hdh, ⟨modelled, hmodelled, rfl⟩, _, rest, rfl, hstart, hrest⟩
  -- the scaling does not enter into the route, so the plan has taken this very one
  obtain ⟨rfl, rfl, heq⟩ := hroute.unique hroute'
  exact ⟨_, rest, segments, heq, hsegments, hsum⟩

/-- The limits of a request are above zero if the accelerations it gives are. -/
theorem Route.driven {qs : List (Joints ℝ)} (h : Route src request dh base qs)
    (hacc : ∀ a, request.accelerationMax = some a → ∀ i, 0 < a i) : Driven base := by
  intro i
  obtain ⟨modelled, hmodelled, rfl⟩ := h.limits
  have hpos := modelLimits_pos hmodelled i
  cases ha : request.accelerationMax with
  | none => exact hpos
  | some a => exact ⟨hpos.1, hacc a ha i⟩

/--
**Slower plans take longer.** Of two plans of a request, the one that is scaled down further
has no shorter estimate. Each estimate is what its segments take one after the other, and a
segment takes no longer with a higher velocity or acceleration, and no less than at its velocity
all the way.
-/
theorem plan_slower (hacc : ∀ a, request.accelerationMax = some a → ∀ i, 0 < a i)
    (hc : 0 < request.maxCartesianSpeed) (hsv : 0 < sv ∧ sv ≤ sv' ∧ sv' ≤ 1)
    (hsa : 0 < sa ∧ sa ≤ sa' ∧ sa' ≤ 1)
    (h : plan src { request with scaling := ⟨sv, sa⟩ } = .ok traj)
    (h' : plan src { request with scaling := ⟨sv', sa'⟩ } = .ok traj') :
    traj'.durationEstimate ≤ traj.durationEstimate
      ∧ SumsUp request traj ∧ SumsUp request traj'
      ∧ (∀ d v v' a a' : ℝ, 0 < d → 0 < v → 0 < a → v ≤ v' → a ≤ a' →
        trapezoidDuration d v' a' ≤ trapezoidDuration d v a)
      ∧ ∀ d v a : ℝ, 0 < d → 0 < v → 0 < a → d / v ≤ trapezoidDuration d v a := by
  have hsum : SumsUp { request with scaling := ⟨sv, sa⟩ } traj := plan_sumsUp h
  have hsum' : SumsUp { request with scaling := ⟨sv', sa'⟩ } traj' := plan_sumsUp h'
  refine ⟨?_, hsum, hsum', fun _ _ _ _ _ _ hv ha => trapezoidDuration_anti hv ha,
    fun _ _ _ => div_le_trapezoidDuration⟩
  obtain ⟨dh, base, hroute, -⟩ := plan_route h
  -- the second request resolves to the same configurations
  have hroute' : Route src { request with scaling := ⟨sv', sa'⟩ } dh base (configs traj) :=
    hroute.of_scaling.scaling _
  obtain ⟨startQ, rest, segments, hqs, hsegments, hduration⟩ := plan_duration h hroute
  obtain ⟨startQ', rest', segments', hqs', hsegments', hduration'⟩ := plan_duration h' hroute'
  rw [hqs] at hqs'
  cases hqs'
  rw [hduration, hduration']
  exact planSegments_slower (x := ⟨sv, sa⟩) (y := ⟨sv', sa'⟩) (hroute.driven hacc) ⟨hsv, hsa⟩ hc
    hsegments hsegments'

theorem plan_slower_trace : ∃ traj traj',
    plan bench.limits (sweepRequest ⟨1 / 2, 1 / 4⟩ none) = .ok traj
      ∧ plan bench.limits (sweepRequest ⟨1, 1⟩ none) = .ok traj'
      ∧ traj'.durationEstimate ≤ traj.durationEstimate
      ∧ SumsUp (sweepRequest ⟨1, 1⟩ none) traj ∧ SumsUp (sweepRequest ⟨1, 1⟩ none) traj' := by
  obtain ⟨traj, htraj, -⟩ := sweep_planned ⟨1 / 2, 1 / 4⟩ none
  obtain ⟨traj', htraj', -⟩ := sweep_planned ⟨1, 1⟩ none
  refine ⟨traj, traj', htraj, htraj', ?_⟩
  have hslower := @plan_slower bench.limits (sweepRequest ⟨1, 1⟩ none) _ _ _ _ _ _ ?_ ?_
    (by norm_num) (by norm_num) htraj htraj'
  · exact ⟨hslower.1, hslower.2.1, hslower.2.2.1⟩
  · intro a ha
    cases ha
  · norm_num [sweepRequest, defaultMaxCartesianSpeed]

end

end UrRedisDriver.Proof
