import UrRedisDriver.Lib.Profile
import UrRedisDriver.Proof.Durations
import UrRedisDriver.Proof.Tight

/-!
# The estimate is the least time

`duration_estimate` adds up closed forms. What they stand for: with a stop at every waypoint,
there is no shorter way to run the plan. A joint segment goes straight in joint space with no
joint past its own velocity or acceleration, a straight one with the tool at no more than what
was emitted for it.
-/

namespace UrRedisDriver.Proof

open UrRedisDriver
open Set intervalIntegral

noncomputable section

variable {src : LimitSource} {request : PlanRequest} {traj : PlannedTrajectory}
  {dh : DhParameters} {limits : Limits ℝ} {dq fromQ toQ : Joints ℝ} {s : SegmentSpeed ℝ}
  {T : ℝ}

/-! ## Joint segments -/

/-- A displacement swept from rest to rest: `u` is the share of the way covered per second, and
every joint that moves stays within its own limits. -/
structure Sweep (limits : Limits ℝ) (dq : Joints ℝ) (T : ℝ) (u : ℝ → ℝ) : Prop where
  nonneg : 0 ≤ T
  start : u 0 = 0
  stop : u T = 0
  velocity : ∀ i, motionlessJoint < |dq i| → ∀ t ∈ Icc 0 T, |u t * dq i| ≤ limits.velocityMax i
  acceleration : ∀ i, motionlessJoint < |dq i| → ∀ t ∈ Icc 0 T, ∀ t' ∈ Icc 0 T,
    |u t * dq i - u t' * dq i| ≤ limits.accelerationMax i * |t - t'|
  whole : ∫ t in 0..T, u t = 1

/-- What all moving joints allow is what the least of them allows the leading one. -/
theorem leading_iff {bound : Joints ℝ} {v x c : ℝ} (hD : 0 < largestMove dq)
    (h : IsLeast (leadingSpeeds dq bound) v) (hc : 0 ≤ c) :
    |largestMove dq * x| ≤ v * c
      ↔ ∀ i, motionlessJoint < |dq i| → |x * dq i| ≤ bound i * c := by
  -- per joint: the bound on the leading joint is its own bound seen along the sweep
  have habs (i : Fin 6) (hi : motionlessJoint < |dq i|) :
      |largestMove dq * x| ≤ bound i * (largestMove dq / |dq i|) * c
        ↔ |x * dq i| ≤ bound i * c := by
    have hdq : 0 < |dq i| := motionlessJoint_pos.trans hi
    have heq : bound i * (largestMove dq / |dq i|) * c
        = bound i * c * largestMove dq / |dq i| := by
      field_simp
    rw [abs_mul, abs_mul, abs_of_pos hD, heq, le_div_iff₀ hdq]
    constructor
    · intro hle
      refine le_of_mul_le_mul_right ?_ hD
      linarith
    · intro hle
      have := mul_le_mul_of_nonneg_right hle hD.le
      linarith
  constructor
  · intro hle i hi
    refine (habs i hi).mp (hle.trans ?_)
    exact mul_le_mul_of_nonneg_right (h.2 ⟨i, hi, rfl⟩) hc
  · intro hall
    -- the least bound is attained by a joint, whose own bound gives it back
    obtain ⟨i, hi, hv⟩ := h.1
    rw [hv]
    exact (habs i hi).mpr (hall i hi)

/-- A sweep is a move of the leading joint at the commanded velocity and acceleration. -/
theorem sweep_iff (h : jointSegmentSpeed dq limits = some s) {u : ℝ → ℝ} :
    Sweep limits dq T u ↔ Trapezoid.Profile (largestMove dq) s.velocity s.acceleration T
      fun t => largestMove dq * u t := by
  obtain ⟨hv, ha⟩ := jointSegmentSpeed_least h
  have hD : 0 < largestMove dq := by
    obtain ⟨i, hi, -⟩ := hv.1
    exact (motionlessJoint_pos.trans hi).trans_le (le_largestMove dq i)
  have hzero (x : ℝ) : largestMove dq * x = 0 ↔ x = 0 := by simp [hD.ne']
  constructor
  · -- scaled by the largest move, a sweep of all joints is a ramp of the leading one
    intro hu
    refine ⟨hu.nonneg, (hzero _).mpr hu.start, (hzero _).mpr hu.stop, fun t ht => ?_,
      fun t ht t' ht' => ?_, ?_⟩
    · have := (leading_iff (x := u t) hD hv zero_le_one).mpr fun i hi => by
        rw [mul_one]
        exact hu.velocity i hi t ht
      rwa [mul_one] at this
    · rw [← mul_sub]
      refine (leading_iff hD ha (abs_nonneg _)).mpr fun i hi => ?_
      rw [sub_mul]
      exact hu.acceleration i hi t ht t' ht'
    · rw [integral_const_mul, hu.whole, mul_one]
  · intro hu
    refine ⟨hu.nonneg, (hzero _).mp hu.start, (hzero _).mp hu.stop, fun i hi t ht => ?_,
      fun i hi t ht t' ht' => ?_, ?_⟩
    · have := (leading_iff (x := u t) hD hv zero_le_one).mp (by
        rw [mul_one]
        exact hu.speed t ht) i hi
      rwa [mul_one] at this
    · have := hu.ramp t ht t' ht'
      rw [← mul_sub] at this
      rw [← sub_mul]
      exact (leading_iff hD ha (abs_nonneg _)).mp this i hi
    · have := hu.distance
      rw [integral_const_mul] at this
      exact (mul_eq_left₀ hD.ne').mp this

theorem sweep_least (h : jointSegmentSpeed dq limits = some s) (hv : 0 < s.velocity)
    (ha : 0 < s.acceleration) : IsLeast {T | ∃ u, Sweep limits dq T u}
      (trapezoidDuration (largestMove dq) s.velocity s.acceleration) := by
  have hD : 0 < largestMove dq := by
    obtain ⟨⟨i, hi, -⟩, -⟩ := (jointSegmentSpeed_least h).1
    exact (motionlessJoint_pos.trans hi).trans_le (le_largestMove dq i)
  -- the sweeps are the profiles of the leading joint, whose least time is known
  have hset : {T | ∃ u, Sweep limits dq T u}
      = {T | Trapezoid.Feasible (largestMove dq) s.velocity s.acceleration T} := by
    ext T
    constructor
    · rintro ⟨u, hu⟩
      exact ⟨_, (sweep_iff h).mp hu⟩
    · rintro ⟨u, hu⟩
      refine ⟨fun t => u t / largestMove dq, (sweep_iff h).mpr ?_⟩
      have hu' : (fun t => largestMove dq * (u t / largestMove dq)) = u :=
        funext fun t => mul_div_cancel₀ (u t) hD.ne'
      rwa [hu']
  rw [hset]
  exact Trapezoid.isLeast_feasible hD ha hv (trapezoidDuration_least hD hv ha)

/-! ## A whole plan -/

/-- A segment can be run from rest to rest in the time `T`. -/
def RunsIn (dh : DhParameters) (limits : Limits ℝ) (interpolation : Interpolation)
    (fromQ : Joints ℝ) (p : Pace) (T : ℝ) : Prop :=
  match interpolation with
  | .joint => ∃ u, Sweep limits (jointDelta fromQ p.toQ) T u
  | .linear => Trapezoid.Feasible (chord dh fromQ p.toQ) p.velocity p.acceleration T

/-- Segments can be run one after the other in the time `T` in all, with a stop after each. -/
inductive StopsAtEach (dh : DhParameters) (limits : Limits ℝ) :
    Joints ℝ → List (Interpolation × Pace) → ℝ → Prop
  | nil (q : Joints ℝ) : StopsAtEach dh limits q [] 0
  | cons {q : Joints ℝ} {interpolation : Interpolation} {p : Pace}
      {rest : List (Interpolation × Pace)} {T T' : ℝ} : RunsIn dh limits interpolation q p T →
      StopsAtEach dh limits p.toQ rest T' →
      StopsAtEach dh limits q ((interpolation, p) :: rest) (T + T')

theorem stopsAtEach_least {q : Joints ℝ} {interpolation : Interpolation} {p : Pace}
    {rest : List (Interpolation × Pace)} {T' : ℝ}
    (h : IsLeast {T | RunsIn dh limits interpolation q p T} T)
    (hrest : IsLeast {T | StopsAtEach dh limits p.toQ rest T} T') :
    IsLeast {T | StopsAtEach dh limits q ((interpolation, p) :: rest) T} (T + T') := by
  refine ⟨.cons h.1 hrest.1, ?_⟩
  intro x hx
  cases hx with
  | cons hrun hstops => exact add_le_add (h.2 hrun) (hrest.2 hstops)

theorem scaled_driven (hbase : Driven limits) (x : PlanScaling ℝ) : Driven (limits.scaled x) :=
  fun i => ⟨mul_pos (hbase i).1 (clampScale_pos _), mul_pos (hbase i).2 (clampScale_pos _)⟩

/-- What a segment is run at is above zero. -/
theorem segmentSpeed_driven {k : Nat} {interpolation : Interpolation} {ceiling : ℝ}
    (hlimits : Driven limits) (hc : 0 < ceiling)
    (h : segmentSpeed dh limits ceiling k interpolation fromQ toQ = .ok s) :
    0 < s.velocity ∧ 0 < s.acceleration := by
  rw [← scaled_one limits] at h
  have hone : ScaledDown (⟨1, 1⟩ : PlanScaling ℝ) ⟨1, 1⟩ :=
    ⟨⟨one_pos, le_rfl, le_rfl⟩, one_pos, le_rfl, le_rfl⟩
  have hs := segmentSpeed_slower hlimits hone hc h h
  exact ⟨hs.velocity_pos, hs.acceleration_pos⟩

/-- The duration of a segment is the least it can be run in. -/
theorem segment_least {k : Nat} {wp : PlanWaypoint} {ceiling : ℝ} {segment : Segment}
    (hlimits : Driven limits) (hc : 0 < ceiling)
    (h : planSegment dh limits ceiling k wp fromQ toQ = .ok segment) :
    segment.planned.jointPositions = toQ
      ∧ IsLeast {T | RunsIn dh limits wp.interpolation fromQ (paceOf segment.planned) T}
        segment.duration := by
  obtain ⟨s, hs, h⟩ := Except.bind_eq_ok.mp h
  cases h
  refine ⟨rfl, ?_⟩
  obtain ⟨hv, ha⟩ := segmentSpeed_driven hlimits hc hs
  cases hi : wp.interpolation with
  | joint =>
      rw [hi] at hs
      exact sweep_least (Except.ofOption_eq_ok.mp hs) hv ha
  | linear =>
      show IsLeast {T | Trapezoid.Feasible (chord dh fromQ toQ) s.velocity s.acceleration T}
        (trapezoidDuration (chord dh fromQ toQ) s.velocity s.acceleration)
      rcases (Vec3.norm_nonneg (flangePoint dh toQ - flangePoint dh fromQ)).eq_or_lt with h0 | hd
      · -- the tool only turns
        have h0 : chord dh fromQ toQ = 0 := h0.symm
        have hzero : trapezoidDuration 0 s.velocity s.acceleration = 0 :=
          if_pos (.inl (by rw [abs_zero]))
        rw [h0, hzero]
        exact Trapezoid.isLeast_feasible_zero hv.le ha.le
      · exact Trapezoid.isLeast_feasible hd ha hv (trapezoidDuration_least hd hv ha)

theorem segments_least {i : Nat} {q : Joints ℝ} {ceiling : ℝ} {wps : List PlanWaypoint}
    {qs : List (Joints ℝ)} {segments : List Segment} (hlimits : Driven limits) (hc : 0 < ceiling)
    (hlen : qs.length = wps.length)
    (h : planSegments dh limits ceiling i q (wps.zip qs) = .ok segments) :
    IsLeast {T | StopsAtEach dh limits q ((wps.map PlanWaypoint.interpolation).zip
      ((segments.map Segment.planned).map paceOf)) T} (segments.map Segment.duration).sum := by
  induction wps generalizing i q qs segments with
  | nil =>
      cases h
      exact ⟨.nil q, fun T hT => by cases hT; exact le_rfl⟩
  | cons wp wps ih =>
      cases qs with
      | nil => cases hlen
      | cons toQ qs =>
          obtain ⟨segment, hsegment, h⟩ := Except.bind_eq_ok.mp h
          obtain ⟨rest, hrest, h⟩ := Except.bind_eq_ok.mp h
          cases h
          obtain ⟨hto, hleast⟩ := segment_least hlimits hc hsegment
          have hih := ih (Nat.succ_inj.mp hlen) hrest
          -- the next segment sets out from where this one has ended
          rw [← hto] at hih
          exact stopsAtEach_least hleast hih

/--
**The estimate is the least time.** With a stop at every waypoint, the plan can be run in
`duration_estimate` and in no less: its joint segments within every joint's own scaled limits,
its straight segments at no more than the velocity and acceleration they were emitted with.
-/
theorem plan_least_time (hacc : ∀ a, request.accelerationMax = some a → ∀ i, 0 < a i)
    (hc : 0 < request.maxCartesianSpeed) (h : plan src request = .ok traj)
    (hdh : DhParameters.forModel request.robotModel = some dh) :
    IsLeast {T | StopsAtEach dh traj.limits traj.startJointPositions
      ((request.waypoints.map PlanWaypoint.interpolation).zip (traj.waypoints.map paceOf)) T}
      traj.durationEstimate := by
  have hdriven : Driven traj.limits := by
    obtain ⟨dh', base, hroute, -⟩ := plan_route h
    rw [plan_limits h hroute]
    exact scaled_driven (hroute.driven hacc) _
  -- blending changes neither the speeds nor the ends of the segments
  obtain ⟨qs, segments, hlen, hsegments, hpaces, hsum⟩ := plan_segments h hdh
  rw [hsum, hpaces]
  exact segments_least hdriven hc hlen hsegments

/-- A sweep over the bench, at the full limits. -/
theorem plan_least_time_trace : ∃ traj T,
    plan bench.limits (sweepRequest ⟨1, 1⟩ none) = .ok traj ∧ traj.durationEstimate = T
      ∧ StopsAtEach ur20 traj.limits traj.startJointPositions
        (((sweepRequest ⟨1, 1⟩ none).waypoints.map PlanWaypoint.interpolation).zip
          (traj.waypoints.map paceOf)) T := by
  obtain ⟨traj, htraj, -⟩ := sweep_planned ⟨1, 1⟩ none
  refine ⟨traj, _, htraj, rfl, (plan_least_time ?_ ?_ htraj rfl).1⟩
  · intro a ha
    cases ha
  · norm_num [sweepRequest, defaultMaxCartesianSpeed]

end

end UrRedisDriver.Proof
