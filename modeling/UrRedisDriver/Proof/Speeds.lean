import UrRedisDriver.Lib.Least
import UrRedisDriver.Proof.Blends
import UrRedisDriver.Proof.Line

/-!
# Speeds and accelerations

What a joint segment is run at is the least of what its moving joints allow, and a straight
one the least of what they allow at any sample and of the ceiling. Scaling makes every joint
slower; it does not touch the ceiling, nor the acceleration of the tool.
-/

namespace UrRedisDriver.Proof

open UrRedisDriver
open scoped Literals

noncomputable section

variable {src : LimitSource} {request : PlanRequest} {traj : PlannedTrajectory}
  {dh : DhParameters} {base limits : Limits ℝ} {dq fromQ toQ : Joints ℝ} {s : SegmentSpeed ℝ}

/-! ## Joint segments -/

/-- What joint `i` allows the leading one, given a bound on each joint: nothing is asked of a
joint that does not move. -/
def allowed (dq bound : Joints ℝ) (i : Fin 6) : Set ℝ :=
  {v | motionlessJoint < |dq i| ∧ v = bound i * (largestMove dq / |dq i|)}

/-- What they allow it together. -/
def leadingSpeeds (dq bound : Joints ℝ) : Set ℝ := {v | ∃ i, v ∈ allowed dq bound i}

theorem motionlessJoint_pos : (0 : ℝ) < motionlessJoint := by norm_num [motionlessJoint]

theorem allowed_still {bound : Joints ℝ} {i : Fin 6} (h : |dq i| ≤ motionlessJoint) :
    allowed dq bound i = ∅ := by
  ext v
  simp [allowed, not_lt.mpr h]

theorem allowed_moving {bound : Joints ℝ} {i : Fin 6} (h : ¬ |dq i| ≤ motionlessJoint) :
    allowed dq bound i = {bound i * (largestMove dq / |dq i|)} := by
  ext v
  simp [allowed, not_le.mp h]

/-- A joint bounds the velocity by what it allows. -/
theorem boundByJoint_velocity (dq : Joints ℝ) (limits : Limits ℝ)
    (acc : WithTop ℝ × WithTop ℝ × Nat) (i : Fin 6) (T : Set (WithTop ℝ))
    (h : IsLeast T acc.1) :
    IsLeast (T ∪ WithTop.some '' allowed dq limits.velocityMax i)
      (boundByJoint dq limits (largestMove dq) acc i).1 := by
  unfold boundByJoint
  dsimp only
  by_cases hm : |dq i| ≤ motionlessJoint
  · -- a joint at rest allows any speed
    rw [if_pos hm, allowed_still hm, Set.image_empty, Set.union_empty]
    exact h
  · rw [if_neg hm, allowed_moving hm, Set.image_singleton]
    have hmin := h.union (isLeast_singleton
      (a := WithTop.some (limits.velocityMax i * (largestMove dq / |dq i|))))
    by_cases hv : WithTop.some (limits.velocityMax i * (largestMove dq / |dq i|)) < acc.1
    · rw [min_eq_right hv.le] at hmin
      rw [if_pos hv]
      exact hmin
    · rw [min_eq_left (not_lt.mp hv)] at hmin
      rw [if_neg hv]
      exact hmin

/-- And the acceleration. -/
theorem boundByJoint_acceleration (dq : Joints ℝ) (limits : Limits ℝ)
    (acc : WithTop ℝ × WithTop ℝ × Nat) (i : Fin 6) (T : Set (WithTop ℝ))
    (h : IsLeast T acc.2.1) :
    IsLeast (T ∪ WithTop.some '' allowed dq limits.accelerationMax i)
      (boundByJoint dq limits (largestMove dq) acc i).2.1 := by
  unfold boundByJoint
  dsimp only
  by_cases hm : |dq i| ≤ motionlessJoint
  · rw [if_pos hm, allowed_still hm, Set.image_empty, Set.union_empty]
    exact h
  · rw [if_neg hm, allowed_moving hm, Set.image_singleton]
    exact h.union isLeast_singleton

theorem image_leadingSpeeds (dq bound : Joints ℝ) :
    {x | ∃ i ∈ List.finRange 6, x ∈ WithTop.some '' allowed dq bound i}
      = WithTop.some '' leadingSpeeds dq bound := by
  ext x
  constructor
  · rintro ⟨i, -, v, hv, rfl⟩
    exact ⟨v, ⟨i, hv⟩, rfl⟩
  · rintro ⟨v, ⟨i, hv⟩, rfl⟩
    exact ⟨i, List.mem_finRange i, v, hv, rfl⟩

/-- The velocity and the acceleration of a joint segment are the least of what is allowed. -/
theorem jointSegmentSpeed_least (h : jointSegmentSpeed dq limits = some s) :
    IsLeast (leadingSpeeds dq limits.velocityMax) s.velocity
      ∧ IsLeast (leadingSpeeds dq limits.accelerationMax) s.acceleration := by
  have hv := IsLeast.foldl (boundByJoint_velocity dq limits) (List.finRange 6)
    (⊤, ⊤, 0) isLeast_singleton
  have ha := IsLeast.foldl (boundByJoint_acceleration dq limits) (List.finRange 6)
    (⊤, ⊤, 0) isLeast_singleton
  rw [image_leadingSpeeds] at hv ha
  unfold jointSegmentSpeed at h
  dsimp only at h
  -- no joint moves, and there is no speed to give
  split at h
  · cases h
  · split at h
    · rename_i velocity acceleration joint heq
      cases h
      rw [heq] at hv ha
      exact ⟨hv.of_top, ha.of_top⟩
    · cases h

/-! ## Straight segments -/

/-- The tool speeds at which some joint is at its bound at some sample of a line. -/
def toolSpeeds (rates : List (Joints ℝ)) (bound : Joints ℝ) : Set ℝ :=
  {v | ∃ r ∈ rates, ∃ i, motionlessJoint < |r i| ∧ v = bound i / |r i|}

theorem capByRate_least (limits : Limits ℝ) (r : Joints ℝ) (acc : ℝ × Nat) (i : Fin 6)
    (T : Set ℝ) (h : IsLeast T acc.1) :
    IsLeast (T ∪ {v | motionlessJoint < |r i| ∧ v = limits.velocityMax i / |r i|})
      (capByRate r limits acc i).1 := by
  unfold capByRate
  dsimp only
  by_cases hm : |r i| ≤ motionlessJoint
  · have hnone : {v | motionlessJoint < |r i| ∧ v = limits.velocityMax i / |r i|} = ∅ := by
      ext v
      simp [not_lt.mpr hm]
    rw [if_pos hm, hnone, Set.union_empty]
    exact h
  · -- a joint that moves allows one speed at this sample: its limit over its rate
    have hone : {v | motionlessJoint < |r i| ∧ v = limits.velocityMax i / |r i|}
        = {limits.velocityMax i / |r i|} := by
      ext v
      simp [not_le.mp hm]
    rw [if_neg hm, hone]
    have hmin := h.union (isLeast_singleton (a := limits.velocityMax i / |r i|))
    by_cases hv : limits.velocityMax i / |r i| < acc.1
    · rw [min_eq_right hv.le] at hmin
      rw [if_pos hv]
      exact hmin
    · rw [min_eq_left (not_lt.mp hv)] at hmin
      rw [if_neg hv]
      exact hmin

/-- The velocity of a straight segment is the least of what is allowed and the ceiling. -/
theorem cartesianSpeedCap_least (rates : List (Joints ℝ)) (limits : Limits ℝ) (ceiling : ℝ) :
    IsLeast ({ceiling} ∪ toolSpeeds rates limits.velocityMax)
      (cartesianSpeedCap rates limits ceiling).velocity := by
  have hsample : ∀ (acc : ℝ × Nat) (r : Joints ℝ) (T : Set ℝ), IsLeast T acc.1 →
      IsLeast (T ∪ {v | ∃ i ∈ List.finRange 6, motionlessJoint < |r i|
        ∧ v = limits.velocityMax i / |r i|})
          ((List.finRange 6).foldl (capByRate r limits) acc).1 :=
    fun acc r T h => IsLeast.foldl (capByRate_least limits r) (List.finRange 6) acc h
  have hall := IsLeast.foldl hsample rates (ceiling, 0) isLeast_singleton
  have hset : {v | ∃ r ∈ rates, v ∈ {v | ∃ i ∈ List.finRange 6, motionlessJoint < |r i|
      ∧ v = limits.velocityMax i / |r i|}} = toolSpeeds rates limits.velocityMax := by
    ext v
    simp [toolSpeeds]
  rw [hset] at hall
  exact hall

/-- Its acceleration is slowed with it, where there is a ceiling to be slowed from. -/
theorem cartesianSpeedCap_acceleration (rates : List (Joints ℝ)) (limits : Limits ℝ)
    (ceiling : ℝ) :
    (cartesianSpeedCap rates limits ceiling).acceleration
      = if ceiling > 0 then (cartesianSpeedCap rates limits ceiling).velocity / ceiling else 1 := by
  have hone : (defaultCartesianAcceleration : ℝ) = 1 := by
    norm_num [defaultCartesianAcceleration, defaultMaxCartesianSpeed, rampTimeS]
  unfold cartesianSpeedCap
  dsimp only
  rw [hone, one_mul]

/-! ## Scaling -/

section Scaling

variable {sv sa ceiling : ℝ} {bound : Joints ℝ} {rates : List (Joints ℝ)}

theorem clampScale_of_mem {x : ℝ} (h : 0 < x ∧ x ≤ 1) : clampScale x = x := if_pos h

theorem scaled_one (l : Limits ℝ) : l.scaled ⟨1, 1⟩ = l := by
  have hone : clampScale (1 : ℝ) = 1 := clampScale_of_mem ⟨one_pos, le_rfl⟩
  unfold Limits.scaled
  simp only [hone, mul_one]

/-- Slower joints allow the leading one less in proportion. -/
theorem leadingSpeeds_scaled (dq bound : Joints ℝ) (x : ℝ) :
    leadingSpeeds dq (fun i => bound i * x) = (fun v => x * v) '' leadingSpeeds dq bound := by
  ext v
  constructor
  · rintro ⟨i, hi, rfl⟩
    exact ⟨_, ⟨i, hi, rfl⟩, by ring⟩
  · rintro ⟨_, ⟨i, hi, rfl⟩, rfl⟩
    exact ⟨i, hi, by ring⟩

theorem toolSpeeds_scaled (rates : List (Joints ℝ)) (bound : Joints ℝ) (x : ℝ) :
    toolSpeeds rates (fun i => bound i * x) = (fun v => x * v) '' toolSpeeds rates bound := by
  ext v
  constructor
  · rintro ⟨r, hr, i, hi, rfl⟩
    exact ⟨_, ⟨r, hr, i, hi, rfl⟩, by ring⟩
  · rintro ⟨_, ⟨r, hr, i, hi, rfl⟩, rfl⟩
    exact ⟨r, hr, i, hi, by ring⟩

theorem toolSpeeds_pos (hb : ∀ i, 0 < bound i) {v : ℝ} (hv : v ∈ toolSpeeds rates bound) :
    0 < v := by
  obtain ⟨r, -, i, hi, rfl⟩ := hv
  exact div_pos (hb i) (motionlessJoint_pos.trans hi)

/-- A joint segment is scaled once. -/
theorem jointSegmentSpeed_scaled {s' : SegmentSpeed ℝ} (hsv : 0 < sv ∧ sv ≤ 1)
    (hsa : 0 < sa ∧ sa ≤ 1) (h : jointSegmentSpeed dq limits = some s)
    (h' : jointSegmentSpeed dq (limits.scaled ⟨sv, sa⟩) = some s') :
    s'.velocity = sv * s.velocity ∧ s'.acceleration = sa * s.acceleration := by
  obtain ⟨hv, ha⟩ := jointSegmentSpeed_least h
  obtain ⟨hv', ha'⟩ := jointSegmentSpeed_least h'
  have hvmax : (limits.scaled ⟨sv, sa⟩).velocityMax = fun i => limits.velocityMax i * sv := by
    rw [Limits.scaled, clampScale_of_mem hsv]
  have hamax : (limits.scaled ⟨sv, sa⟩).accelerationMax
      = fun i => limits.accelerationMax i * sa := by
    rw [Limits.scaled, clampScale_of_mem hsa]
  rw [hvmax, leadingSpeeds_scaled] at hv'
  rw [hamax, leadingSpeeds_scaled] at ha'
  exact ⟨hv'.unique (hv.const_mul hsv.1), ha'.unique (ha.const_mul hsa.1)⟩

/-- Where the ceiling is met by some joint, it decides nothing. -/
theorem least_of_bound {S : Set ℝ} {v x : ℝ} (h : IsLeast ({ceiling} ∪ S) v) (hx : x ∈ S)
    (hle : x ≤ ceiling) : IsLeast S v := by
  refine ⟨?_, fun y hy => h.2 (.inr hy)⟩
  rcases h.1 with hv | hv
  · have hxv : x = v := le_antisymm (hle.trans_eq hv.symm) (h.2 (.inr hx))
    rwa [← hxv]
  · exact hv

/-- A speed capped at a positive ceiling is scaled exactly if no scaling was asked for or a
joint, rather than the ceiling, sets it. -/
theorem least_scaled_iff {S : Set ℝ} {v v' : ℝ} (hsv : 0 < sv ∧ sv ≤ 1) (hc : 0 < ceiling)
    (h : IsLeast ({ceiling} ∪ S) v) (h' : IsLeast ({ceiling} ∪ (fun x => sv * x) '' S) v') :
    v' = sv * v ↔ sv = 1 ∨ ∃ x ∈ S, x ≤ ceiling := by
  constructor
  · intro heq
    by_cases hone : sv = 1
    · exact .inl hone
    · have hlt : sv < 1 := lt_of_le_of_ne hsv.2 hone
      have hv : v ≤ ceiling := h.2 (.inl rfl)
      rcases h'.1 with hceil | ⟨x, hx, hxv⟩
      · -- the ceiling itself cannot be the scaled speed
        have hceil : v' = ceiling := hceil
        nlinarith
      · have hvx : x = v := mul_left_cancel₀ hsv.1.ne' (hxv.trans heq)
        exact .inr ⟨x, hx, hvx.le.trans hv⟩
  · intro hor
    by_cases hone : sv = 1
    · subst hone
      have hid : (fun x : ℝ => 1 * x) '' S = S := by simp
      rw [hid] at h'
      rw [one_mul]
      exact h'.unique h
    · obtain ⟨x, hx, hle⟩ := hor.resolve_left hone
      have hleast := (least_of_bound h hx hle).const_mul hsv.1
      have hleast' := least_of_bound h' (x := sv * x) ⟨x, hx, rfl⟩ (by nlinarith)
      exact hleast'.unique hleast

/-- Under a ceiling that is not positive, a straight segment has the ceiling for its speed. -/
theorem least_of_nonpos {S : Set ℝ} {v : ℝ} (hc : ceiling ≤ 0) (hS : ∀ x ∈ S, 0 < x)
    (h : IsLeast ({ceiling} ∪ S) v) : v = ceiling := by
  rcases h.1 with hv | hv
  · exact hv
  · exact absurd (h.2 (.inl rfl)) (not_le.mpr (hc.trans_lt (hS v hv)))

/-- When a straight segment comes out scaled, given the speeds at which its joints are at
their unscaled bounds. -/
def ToolScales (S : Set ℝ) (ceiling sv sa : ℝ) : Prop :=
  if 0 < ceiling then sa = sv ∧ (sv = 1 ∨ ∃ v ∈ S, v ≤ ceiling)
  else sa = 1 ∧ (sv = 1 ∨ ceiling = 0)

theorem cartesianSpeedCap_scaled_iff (hb : ∀ i, 0 < limits.velocityMax i)
    (hsv : 0 < sv ∧ sv ≤ 1) :
    ((cartesianSpeedCap rates (limits.scaled ⟨sv, sa⟩) ceiling).velocity
          = sv * (cartesianSpeedCap rates limits ceiling).velocity
        ∧ (cartesianSpeedCap rates (limits.scaled ⟨sv, sa⟩) ceiling).acceleration
          = sa * (cartesianSpeedCap rates limits ceiling).acceleration)
      ↔ ToolScales (toolSpeeds rates limits.velocityMax) ceiling sv sa := by
  have h := cartesianSpeedCap_least rates limits ceiling
  have h' := cartesianSpeedCap_least rates (limits.scaled ⟨sv, sa⟩) ceiling
  rw [cartesianSpeedCap_acceleration, cartesianSpeedCap_acceleration]
  have hvmax : (limits.scaled ⟨sv, sa⟩).velocityMax = fun i => limits.velocityMax i * sv := by
    rw [Limits.scaled, clampScale_of_mem hsv]
  rw [hvmax, toolSpeeds_scaled] at h'
  generalize (cartesianSpeedCap rates limits ceiling).velocity = v at *
  generalize (cartesianSpeedCap rates (limits.scaled ⟨sv, sa⟩) ceiling).velocity = v' at *
  have hpos : ∀ x ∈ toolSpeeds rates limits.velocityMax, 0 < x := fun x => toolSpeeds_pos hb
  unfold ToolScales
  -- the acceleration is a quotient by the ceiling, which the source makes only for a positive one
  by_cases hc : 0 < ceiling
  · have hv : 0 < v := by
      rcases h.1 with hv | hv
      · exact hc.trans_eq hv.symm
      · exact hpos v hv
    simp only [gt_iff_lt, if_pos hc]
    rw [← least_scaled_iff hsv hc h h']
    constructor
    · rintro ⟨heq, hacc⟩
      rw [heq, ← mul_div_assoc] at hacc
      -- the tool acceleration carries the velocity scaling, so the two have to agree
      have hmul : sv * v = sa * v := (div_left_inj' hc.ne').mp hacc
      exact ⟨(mul_right_cancel₀ hv.ne' hmul).symm, heq⟩
    · rintro ⟨rfl, heq⟩
      refine ⟨heq, ?_⟩
      rw [heq, mul_div_assoc]
  · have hc' := not_lt.mp hc
    have hpos' : ∀ x ∈ (fun x => sv * x) '' toolSpeeds rates limits.velocityMax, 0 < x := by
      rintro _ ⟨x, hx, rfl⟩
      exact mul_pos hsv.1 (hpos x hx)
    -- a ceiling of zero or less is the least of all and is not scaled
    have hv := least_of_nonpos hc' hpos h
    have hv' := least_of_nonpos hc' hpos' h'
    simp only [gt_iff_lt, if_neg hc]
    rw [hv, hv']
    constructor
    · rintro ⟨heq, hacc⟩
      refine ⟨by linarith, ?_⟩
      have hfactor : (sv - 1) * ceiling = 0 := by linarith
      rcases mul_eq_zero.mp hfactor with hone | hzero
      · exact .inl (by linarith)
      · exact .inr hzero
    · rintro ⟨rfl, hone | hzero⟩
      · exact ⟨by rw [hone, one_mul], by norm_num⟩
      · exact ⟨by rw [hzero, mul_zero], by norm_num⟩

end Scaling

/-! ## Scaled plans -/

section Plan

variable {sv sa : ℝ} {traj' : PlannedTrajectory} {leg : Leg} {w w' : PlannedWaypoint}

/-- The same waypoint, run at the scaled velocity and acceleration. -/
structure ScaledBy (sv sa : ℝ) (w w' : PlannedWaypoint) : Prop where
  positions : w'.jointPositions = w.jointPositions
  linear : w'.useLinearMotion = w.useLinearMotion
  blend : w'.blendRadius = w.blendRadius
  velocity : w'.velocity = sv * w.velocity
  acceleration : w'.acceleration = sa * w.acceleration

/-- A leg that scales: one that is not straight, or one whose line does. -/
def LegScales (dh : DhParameters) (base : Limits ℝ) (ceiling sv sa : ℝ) (leg : Leg) : Prop :=
  leg.wp.interpolation = .linear → ∀ rates, sampleLinearSegment dh base leg.fromQ
    (forwardKinematics dh leg.toQ) linearSampleStep maxLinearSamples = some rates →
      ToolScales (toolSpeeds rates base.velocityMax) ceiling sv sa

/-- The speed of a segment is scaled exactly if it is no straight one, or one that scales. -/
theorem segmentSpeed_scaled_iff {ceiling : ℝ} {s s' : SegmentSpeed ℝ}
    (hb : ∀ i, 0 < base.velocityMax i) (hsv : 0 < sv ∧ sv ≤ 1) (hsa : 0 < sa ∧ sa ≤ 1)
    (h : segmentSpeed dh base ceiling leg.index leg.wp.interpolation leg.fromQ leg.toQ = .ok s)
    (h' : segmentSpeed dh (base.scaled ⟨sv, sa⟩) ceiling leg.index leg.wp.interpolation leg.fromQ
      leg.toQ = .ok s') :
    (s'.velocity = sv * s.velocity ∧ s'.acceleration = sa * s.acceleration)
      ↔ LegScales dh base ceiling sv sa leg := by
  unfold LegScales
  cases hi : leg.wp.interpolation with
  | joint =>
      rw [hi] at h h'
      have hscaled := jointSegmentSpeed_scaled hsv hsa (Except.ofOption_eq_ok.mp h)
        (Except.ofOption_eq_ok.mp h')
      exact iff_of_true hscaled fun hlinear => Interpolation.noConfusion hlinear
  | linear =>
      rw [hi] at h h'
      obtain ⟨rates, hrates, heq⟩ := Except.bind_eq_ok.mp h
      obtain ⟨rates', hrates', heq'⟩ := Except.bind_eq_ok.mp h'
      cases heq
      cases heq'
      have hrates := Except.ofOption_eq_ok.mp hrates
      have hrates' := Except.ofOption_eq_ok.mp hrates'
      -- both runs meet the same joint rates
      rw [sampleLinearSegment_scaled, hrates] at hrates'
      cases hrates'
      rw [cartesianSpeedCap_scaled_iff hb hsv]
      constructor
      · intro hscales _ rates' hrates'
        rw [hrates] at hrates'
        cases hrates'
        exact hscales
      · intro hscales
        exact hscales rfl rates hrates

theorem emitted_scaled_iff (hb : ∀ i, 0 < base.velocityMax i) (hsv : 0 < sv ∧ sv ≤ 1)
    (hsa : 0 < sa ∧ sa ≤ 1) (h : Emitted dh base request leg w)
    (h' : Emitted dh (base.scaled ⟨sv, sa⟩) request leg w') :
    ScaledBy sv sa w w' ↔ LegScales dh base request.maxCartesianSpeed sv sa leg := by
  obtain ⟨s, hs, hv, ha⟩ := h.speed
  obtain ⟨s', hs', hv', ha'⟩ := h'.speed
  rw [← segmentSpeed_scaled_iff hb hsv hsa hs hs', ← hv, ← ha, ← hv', ← ha']
  constructor
  · intro hscaled
    exact ⟨hscaled.velocity, hscaled.acceleration⟩
  · intro hscaled
    exact ⟨h'.positions.trans h.positions.symm, h'.linear.trans h.linear.symm,
      h'.blend.trans h.blend.symm, hscaled.1, hscaled.2⟩

/-- The waypoints that the two plans emit for one leg. -/
theorem plan_leg_scaled (hsv : 0 < sv ∧ sv ≤ 1) (hsa : 0 < sa ∧ sa ≤ 1)
    (h : plan src { request with scaling := ⟨1, 1⟩ } = .ok traj)
    (h' : plan src { request with scaling := ⟨sv, sa⟩ } = .ok traj')
    (hleg : OnRoute src request dh base leg) :
    ∃ w w', traj.waypoints[leg.index]? = some w ∧ traj'.waypoints[leg.index]? = some w'
      ∧ (ScaledBy sv sa w w' ↔ LegScales dh base request.maxCartesianSpeed sv sa leg) := by
  obtain ⟨w, hw, he⟩ := plan_leg h (hleg.scaling _)
  obtain ⟨w', hw', he'⟩ := plan_leg h' (hleg.scaling _)
  rw [scaled_one] at he
  have hone : Emitted dh base request leg w := ⟨he.positions, he.linear, he.blend, he.speed⟩
  have hscaled : Emitted dh (base.scaled ⟨sv, sa⟩) request leg w' :=
    ⟨he'.positions, he'.linear, he'.blend, he'.speed⟩
  exact ⟨w, w', hw, hw', emitted_scaled_iff hleg.velocity_pos hsv hsa hone hscaled⟩

/--
**Scaled once.** A plan with scaling is the plan without it, every velocity and acceleration
scaled, exactly if every straight leg of the route scales.
-/
theorem plan_scaled_iff (hsv : 0 < sv ∧ sv ≤ 1) (hsa : 0 < sa ∧ sa ≤ 1)
    (h : plan src { request with scaling := ⟨1, 1⟩ } = .ok traj)
    (h' : plan src { request with scaling := ⟨sv, sa⟩ } = .ok traj') :
    List.Forall₂ (ScaledBy sv sa) traj.waypoints traj'.waypoints
      ↔ ∀ dh base leg, OnRoute src request dh base leg →
        LegScales dh base request.maxCartesianSpeed sv sa leg := by
  rw [List.forall₂_iff_get]
  constructor
  · intro hall dh base leg hleg
    obtain ⟨w, w', hw, hw', hiff⟩ := plan_leg_scaled hsv hsa h h' hleg
    obtain ⟨hk, hget⟩ := List.getElem?_eq_some_iff.mp hw
    obtain ⟨hk', hget'⟩ := List.getElem?_eq_some_iff.mp hw'
    have hscaled := hall.2 leg.index hk hk'
    rw [List.get_eq_getElem, List.get_eq_getElem, hget, hget'] at hscaled
    exact hiff.mp hscaled
  · intro hall
    obtain ⟨_, _, -, hlen⟩ := plan_route h
    obtain ⟨_, _, -, hlen'⟩ := plan_route h'
    refine ⟨hlen.trans hlen'.symm, ?_⟩
    intro k hk hk'
    obtain ⟨dh, base, leg, hleg, rfl, -⟩ := plan_waypoint h (List.getElem?_eq_getElem hk)
    obtain ⟨w, w', hw, hw', hiff⟩ := plan_leg_scaled hsv hsa h h' hleg.of_scaling
    rw [List.getElem?_eq_getElem hk] at hw
    rw [List.getElem?_eq_getElem hk'] at hw'
    cases hw
    cases hw'
    exact hiff.mpr (hall dh base leg hleg.of_scaling)

/-- Whether a segment has a speed does not depend on scaling. -/
theorem segmentSpeed_scaling {x y : PlanScaling ℝ} {ceiling : ℝ} {k : Nat}
    {interpolation : Interpolation}
    (h : segmentSpeed dh (base.scaled x) ceiling k interpolation fromQ toQ = .ok s) :
    ∃ s', segmentSpeed dh (base.scaled y) ceiling k interpolation fromQ toQ = .ok s' := by
  cases interpolation with
  | joint =>
      -- a joint that moves is all that is needed
      obtain ⟨⟨i, hi, -⟩, -⟩ := (jointSegmentSpeed_least (Except.ofOption_eq_ok.mp h)).1
      obtain ⟨s', hs'⟩ := jointSegmentSpeed_isSome (l := base.scaled y) hi
      exact ⟨s', Except.ofOption_eq_ok.mpr hs'⟩
  | linear =>
      obtain ⟨rates, hrates, -⟩ := Except.bind_eq_ok.mp h
      have hrates := Except.ofOption_eq_ok.mp hrates
      rw [sampleLinearSegment_scaled, ← sampleLinearSegment_scaled y] at hrates
      exact Except.exists_bind (Except.ofOption_eq_ok.mpr hrates) ⟨_, rfl⟩

theorem planSegments_scaling {x y : PlanScaling ℝ} {ceiling : ℝ} {i : Nat} {q : Joints ℝ}
    {pairs : List (PlanWaypoint × Joints ℝ)} {ss : List Segment}
    (h : planSegments dh (base.scaled x) ceiling i q pairs = .ok ss) :
    ∃ ss', planSegments dh (base.scaled y) ceiling i q pairs = .ok ss' := by
  induction pairs generalizing i q ss with
  | nil => exact ⟨[], rfl⟩
  | cons p ps ih =>
      obtain ⟨wp, q'⟩ := p
      obtain ⟨s, hs, h⟩ := Except.bind_eq_ok.mp h
      obtain ⟨ss', hss, -⟩ := Except.bind_eq_ok.mp h
      obtain ⟨v, hv, -⟩ := Except.bind_eq_ok.mp hs
      obtain ⟨v', hv'⟩ := segmentSpeed_scaling (y := y) hv
      obtain ⟨ss'', hss''⟩ := ih hss
      exact Except.exists_bind (Except.bind_eq_ok.mpr ⟨v', hv', rfl⟩)
        (Except.exists_bind hss'' ⟨_, rfl⟩)

/-- A request that is planned is planned at any scaling. -/
theorem plan_scaling (h : plan src request = .ok traj) (x : PlanScaling ℝ) :
    ∃ traj', plan src { request with scaling := x } = .ok traj'
      ∧ configs traj' = configs traj := by
  obtain ⟨_, _, hroute, -⟩ := plan_route h
  obtain ⟨dh, hdh, h⟩ := Except.bind_eq_ok.mp h
  obtain ⟨_, hne, h⟩ := Except.bind_eq_ok.mp h
  obtain ⟨_, hlen, h⟩ := Except.bind_eq_ok.mp h
  obtain ⟨modelled, hmodelled, h⟩ := Except.bind_eq_ok.mp h
  obtain ⟨startQ, hstart, h⟩ := Except.bind_eq_ok.mp h
  obtain ⟨rest, hrest, h⟩ := Except.bind_eq_ok.mp h
  obtain ⟨segments, hsegments, -⟩ := Except.bind_eq_ok.mp h
  -- the scaling has no part in the route, so the same configurations are planned
  rw [resolveWaypoints_scaled] at hrest
  obtain ⟨segments', hsegments'⟩ := planSegments_scaling (y := x) hsegments
  obtain ⟨traj', htraj', -⟩ := plan_isOk { request with scaling := x }
    (Except.ofOption_eq_ok.mp hdh) (Except.require_eq_ok.mp hne) (Except.require_eq_ok.mp hlen)
    hmodelled rfl hstart (by rw [resolveWaypoints_scaled]; exact hrest) hsegments'
  obtain ⟨_, _, hroute', -⟩ := plan_route htraj'
  exact ⟨traj', htraj', (hroute.unique hroute'.of_scaling).2.2.symm⟩

end Plan

theorem plan_scaled_trace : ∃ traj traj',
    plan bench.limits (sweepRequest ⟨1, 1⟩ none) = .ok traj
      ∧ plan bench.limits (sweepRequest ⟨1 / 2, 1 / 4⟩ none) = .ok traj'
      ∧ List.Forall₂ (ScaledBy (1 / 2) (1 / 4)) traj.waypoints traj'.waypoints := by
  obtain ⟨traj, htraj, -⟩ := sweep_planned ⟨1, 1⟩ none
  obtain ⟨traj', htraj', -⟩ := sweep_planned ⟨1 / 2, 1 / 4⟩ none
  refine ⟨traj, traj', htraj, htraj', ?_⟩
  refine (@plan_scaled_iff bench.limits (sweepRequest ⟨1, 1⟩ none) _ _ _ _ (by norm_num)
    (by norm_num) htraj htraj').mpr ?_
  -- no leg of the path is straight
  intro dh base leg hleg hlinear
  have hmem := List.mem_of_getElem? hleg.asked
  obtain ⟨q, -, hq⟩ := List.mem_map.mp hmem
  rw [← hq] at hlinear
  cases hlinear

/-! ## A straight move that does not travel -/

theorem followLine_rates {a b : Pose} {count todo k : Nat} {q : Joints ℝ}
    {samples : List (Joints ℝ × Joints ℝ)}
    (h : followLine dh limits a b count todo k q = some samples) :
    ∀ p ∈ samples, ∃ inv : Matrix (Fin 6) (Fin 6) ℝ, p.2 = inv.mulVec (unitTwist a b) := by
  induction todo generalizing k q samples with
  | zero =>
      cases h
      intro p hp
      cases hp
  | succ todo ih =>
      obtain ⟨q', -, h⟩ := Option.bind_eq_some_iff.mp h
      split at h
      · cases h
      · obtain ⟨inv, -, h⟩ := Option.bind_eq_some_iff.mp h
        obtain ⟨rest, hrest, rfl⟩ := Option.map_eq_some_iff.mp h
        intro p hp
        -- the rates of a sample are the unit twist through the inverse Jacobian there
        rcases List.mem_cons.mp hp with rfl | hp
        · exact ⟨inv, rfl⟩
        · exact ih hrest p hp

theorem unitTwist_still {a b : Pose} (h : Vec3.norm (b.trans - a.trans) ≤ 1e-12) :
    unitTwist a b = 0 := by
  unfold unitTwist
  dsimp only
  rw [if_neg (not_lt.mpr h), if_neg (not_lt.mpr h)]
  funext i
  fin_cases i <;> rfl

/-- Along a line without length no joint sets the speed. -/
theorem toolSpeeds_still {rates : List (Joints ℝ)} {step : ℝ} {maxSamples : Nat} {toPose : Pose}
    (h : sampleLinearSegment dh limits fromQ toPose step maxSamples = some rates)
    (hstill : Vec3.norm (toPose.trans - (forwardKinematics dh fromQ).trans) ≤ 1e-12)
    (bound : Joints ℝ) : toolSpeeds rates bound = ∅ := by
  obtain ⟨samples, hsamples, rfl⟩ := Option.map_eq_some_iff.mp h
  ext v
  constructor
  · rintro ⟨r, hr, i, hi, -⟩
    obtain ⟨p, hp, rfl⟩ := List.mem_map.mp hr
    obtain ⟨inv, hinv⟩ := followLine_rates hsamples p hp
    rw [hinv, unitTwist_still hstill, Matrix.mulVec_zero] at hi
    norm_num [motionlessJoint] at hi
  · intro hv
    cases hv

/-- It is run at the ceiling, whatever the scaling. -/
theorem turn_speed (scaling : PlanScaling ℝ) {k : Nat} {s : SegmentSpeed ℝ}
    (h : segmentSpeed ur20 (benchLimits.scaled scaling) defaultMaxCartesianSpeed k .linear
      turnFrom turnTo = .ok s) : s.velocity = 1 / 2 := by
  obtain ⟨rates, hrates, heq⟩ := Except.bind_eq_ok.mp h
  cases heq
  have hstill : Vec3.norm ((forwardKinematics ur20 turnTo).trans
      - (forwardKinematics ur20 turnFrom).trans) ≤ 1e-12 := by
    rw [(Motion.same_iff.mp turn_same).2, sub_self, Vec3.norm_zero]
    norm_num
  have hleast := cartesianSpeedCap_least rates (benchLimits.scaled scaling)
    defaultMaxCartesianSpeed
  rw [toolSpeeds_still (Except.ofOption_eq_ok.mp hrates) hstill, Set.union_empty] at hleast
  rw [hleast.unique isLeast_singleton, defaultMaxCartesianSpeed]

theorem turn_velocity (scaling : PlanScaling ℝ)
    (h : plan bench.limits { turnRequest with scaling := scaling } = .ok traj)
    (hconfigs : configs traj = [turnFrom, turnTo]) :
    ∃ w, traj.waypoints = [w] ∧ w.velocity = 1 / 2 := by
  obtain ⟨_, _, -, hlen⟩ := plan_route h
  obtain ⟨w, hw⟩ := List.length_eq_one_iff.mp hlen
  obtain ⟨dh, base, leg, hleg, hindex, hfrom, hto, -, he⟩ := plan_waypoint h (k := 0) (w := w)
    (by rw [hw]; rfl)
  obtain ⟨k, wp, fromQ, toQ, after⟩ := leg
  obtain rfl : k = 0 := hindex
  obtain ⟨⟨qs, hroute, -⟩, hwp⟩ := hleg
  have hmodel : some ur20 = some dh := forModel_ur20.symm.trans hroute.model
  obtain ⟨modelled, hmodelled, hbase⟩ := hroute.limits
  have hlimits : Except.ok benchLimits = .ok modelled := bench_limits.symm.trans hmodelled
  rw [hconfigs] at hfrom hto
  cases hmodel
  cases hlimits
  cases hbase
  cases hwp
  cases hfrom
  cases hto
  obtain ⟨v, hv, hvelocity, -⟩ := he.speed
  exact ⟨w, hw, hvelocity.trans (turn_speed scaling hv)⟩

/-- Scaled to a half, the move keeps its velocity. -/
theorem not_plan_scaled : ∃ traj traj',
    plan bench.limits { turnRequest with scaling := ⟨1, 1⟩ } = .ok traj
      ∧ plan bench.limits { turnRequest with scaling := ⟨1 / 2, 1 / 2⟩ } = .ok traj'
      ∧ ¬ List.Forall₂ (ScaledBy (1 / 2) (1 / 2)) traj.waypoints traj'.waypoints := by
  obtain ⟨traj, htraj, -, hconfigs⟩ := turn_planned
  obtain ⟨traj', htraj', hconfigs'⟩ := plan_scaling htraj ⟨1 / 2, 1 / 2⟩
  obtain ⟨w, hw, hv⟩ := turn_velocity ⟨1, 1⟩ htraj hconfigs
  obtain ⟨w', hw', hv'⟩ := turn_velocity ⟨1 / 2, 1 / 2⟩ htraj' (hconfigs'.trans hconfigs)
  refine ⟨traj, traj', htraj, htraj', ?_⟩
  rw [hw, hw']
  intro hall
  -- the ceiling of one half is reached in both plans
  have hscaled := (List.forall₂_cons.mp hall).1.velocity
  rw [hv, hv'] at hscaled
  norm_num at hscaled

section Plan

variable {sv sa : ℝ} {traj' : PlannedTrajectory} {leg : Leg} {w w' : PlannedWaypoint}

/-! ## What the controller honours -/

theorem clampScale_pos (x : ℝ) : 0 < clampScale x := by
  unfold clampScale
  split
  · rename_i h
    exact h.1
  · exact one_pos

/-- What is allowed is positive if the bounds of the joints that move are. -/
theorem leadingSpeeds_pos_iff {bound : Joints ℝ} {x : ℝ} (hx : 0 < x) :
    (∀ v ∈ leadingSpeeds dq fun i => bound i * x, 0 < v)
      ↔ ∀ i, motionlessJoint < |dq i| → 0 < bound i := by
  -- the share of a joint in the sweep is positive, so the sign is that of its bound
  have hratio : ∀ i, motionlessJoint < |dq i| → 0 < x * (largestMove dq / |dq i|) := by
    intro i hi
    have hpos : 0 < |dq i| := motionlessJoint_pos.trans hi
    exact mul_pos hx (div_pos (hpos.trans_le (le_largestMove dq i)) hpos)
  constructor
  · intro h i hi
    have hv := h _ ⟨i, hi, rfl⟩
    rw [mul_assoc] at hv
    exact pos_of_mul_pos_left hv (hratio i hi).le
  · rintro h _ ⟨i, hi, rfl⟩
    rw [mul_assoc]
    exact mul_pos (h i hi) (hratio i hi)

/-- What a leg needs for the controller to take its velocity and acceleration. -/
structure LegCommandable (request : PlanRequest) (leg : Leg) : Prop where
  linear : leg.wp.interpolation = .linear → 0 < request.maxCartesianSpeed
  joint : leg.wp.interpolation = .joint → ∀ a, request.accelerationMax = some a →
    ∀ i, motionlessJoint < |jointDelta leg.fromQ leg.toQ i| → 0 < a i

/-- The accelerations of the model are positive; given ones are what they are. -/
theorem OnRoute.acceleration_pos_iff (h : OnRoute src request dh base leg) (i : Fin 6) :
    0 < base.accelerationMax i ↔ ∀ a, request.accelerationMax = some a → 0 < a i := by
  obtain ⟨⟨qs, hroute, -⟩, -⟩ := h
  obtain ⟨modelled, hmodelled, rfl⟩ := hroute.limits
  cases request.accelerationMax with
  | none =>
      -- the limits of the model are positive, so only the request can spoil them
      refine iff_of_true (modelLimits_pos hmodelled i).2 ?_
      intro a ha
      cases ha
  | some a =>
      constructor
      · intro hpos a' ha'
        cases ha'
        exact hpos
      · intro hpos
        exact hpos a rfl

theorem segmentSpeed_pos_iff (hleg : OnRoute src request dh base leg)
    (h : segmentSpeed dh (base.scaled request.scaling) request.maxCartesianSpeed leg.index
      leg.wp.interpolation leg.fromQ leg.toQ = .ok s) :
    (0 < s.velocity ∧ 0 < s.acceleration) ↔ LegCommandable request leg := by
  have hvmax := fun i => mul_pos (hleg.velocity_pos i) (clampScale_pos request.scaling.velocity)
  cases hi : leg.wp.interpolation with
  | joint =>
      -- along a joint segment the accelerations of the joints that move decide
      rw [hi] at h
      obtain ⟨hv, ha⟩ := jointSegmentSpeed_least (Except.ofOption_eq_ok.mp h)
      have hvelocity : 0 < s.velocity :=
        hv.pos_iff.mpr ((leadingSpeeds_pos_iff (clampScale_pos _)).mpr
          fun i _ => hleg.velocity_pos i)
      have hacceleration : 0 < s.acceleration ↔ ∀ i,
          motionlessJoint < |jointDelta leg.fromQ leg.toQ i| → 0 < base.accelerationMax i :=
        ha.pos_iff.trans (leadingSpeeds_pos_iff (clampScale_pos _))
      constructor
      · intro hpos
        refine ⟨fun hl => ?_, fun _ a ha i hm => ?_⟩
        · rw [hi] at hl
          cases hl
        · exact (hleg.acceleration_pos_iff i).mp (hacceleration.mp hpos.2 i hm) a ha
      · intro hc
        refine ⟨hvelocity, hacceleration.mpr fun i hm => ?_⟩
        exact (hleg.acceleration_pos_iff i).mpr fun a ha => hc.joint hi a ha i hm
  | linear =>
      -- along a line the ceiling decides, for velocity and acceleration at once
      rw [hi] at h
      obtain ⟨rates, -, heq⟩ := Except.bind_eq_ok.mp h
      cases heq
      have hv := cartesianSpeedCap_least rates (base.scaled request.scaling)
        request.maxCartesianSpeed
      have ha := cartesianSpeedCap_acceleration rates (base.scaled request.scaling)
        request.maxCartesianSpeed
      constructor
      · intro hpos
        refine ⟨fun _ => hpos.1.trans_le (hv.2 (.inl rfl)), fun hj => ?_⟩
        rw [hi] at hj
        cases hj
      · intro hc
        have hceil := hc.linear hi
        have hvelocity : 0 < (cartesianSpeedCap rates (base.scaled request.scaling)
            request.maxCartesianSpeed).velocity := by
          refine hv.pos_iff.mpr fun x hx => ?_
          rcases hx with rfl | hx
          · exact hceil
          · exact toolSpeeds_pos hvmax hx
        rw [ha, if_pos hceil]
        exact ⟨hvelocity, div_pos hvelocity hceil⟩

/-- A waypoint the controller honours. -/
def Commandable (w : PlannedWaypoint) : Prop :=
  0 < w.velocity ∧ 0 < w.acceleration ∧ 0 ≤ w.blendRadius

theorem emitted_commandable_iff (hleg : OnRoute src request dh base leg)
    (h : Emitted dh (base.scaled request.scaling) request leg w) :
    Commandable w ↔ LegCommandable request leg := by
  obtain ⟨s, hs, hv, ha⟩ := h.speed
  have hblend : 0 ≤ w.blendRadius := by
    rw [h.blend]
    exact radiusBefore_nonneg
  rw [← segmentSpeed_pos_iff hleg hs, Commandable, hv, ha]
  constructor
  · intro hc
    exact ⟨hc.1, hc.2.1⟩
  · intro hc
    exact ⟨hc.1, hc.2, hblend⟩

/--
**Commandable.** Every waypoint of a plan can be commanded exactly if the ceiling is positive
where there is a straight leg, and given accelerations are where a joint moves.
-/
theorem plan_commandable_iff (h : plan src request = .ok traj) :
    (∀ w ∈ traj.waypoints, Commandable w)
      ↔ ∀ dh base leg, OnRoute src request dh base leg → LegCommandable request leg := by
  constructor
  · intro hall dh base leg hleg
    obtain ⟨w, hw, he⟩ := plan_leg h hleg
    exact (emitted_commandable_iff hleg he).mp (hall w (List.mem_of_getElem? hw))
  · intro hall w hw
    obtain ⟨k, hk⟩ := List.getElem?_of_mem hw
    obtain ⟨dh, base, leg, hleg, -, -, -, -, he⟩ := plan_waypoint h hk
    exact (emitted_commandable_iff hleg he).mpr (hall dh base leg hleg)

end Plan

theorem plan_commandable_trace : ∃ traj, plan bench.limits (sweepRequest ⟨1, 1⟩ none) = .ok traj
    ∧ ∀ w ∈ traj.waypoints, Commandable w := by
  obtain ⟨traj, htraj, -⟩ := sweep_planned ⟨1, 1⟩ none
  refine ⟨traj, htraj, (plan_commandable_iff htraj).mpr ?_⟩
  intro dh base leg hleg
  have hmem := List.mem_of_getElem? hleg.asked
  obtain ⟨q, -, hq⟩ := List.mem_map.mp hmem
  refine ⟨fun hlinear => ?_, fun _ a ha => ?_⟩
  · rw [← hq] at hlinear
    cases hlinear
  · cases ha

/-- Given accelerations of zero, the first waypoint is emitted with one of zero. -/
theorem not_plan_commandable :
    ∃ traj, plan bench.limits (sweepRequest ⟨1, 1⟩ (some 0)) = .ok traj
      ∧ ¬ ∀ w ∈ traj.waypoints, Commandable w := by
  obtain ⟨traj, htraj, hconfigs⟩ := sweep_planned ⟨1, 1⟩ (some 0)
  refine ⟨traj, htraj, ?_⟩
  intro hall
  obtain ⟨w, hw⟩ : ∃ w, traj.waypoints[0]? = some w := by
    obtain ⟨_, _, -, hlen⟩ := plan_route htraj
    exact ⟨_, List.getElem?_eq_getElem (by rw [hlen]; exact Nat.zero_lt_two)⟩
  obtain ⟨dh, base, leg, hleg, hindex, hfrom, hto, -, he⟩ := plan_waypoint htraj hw
  have hcommandable := (emitted_commandable_iff hleg he).mp
    (hall w (List.mem_of_getElem? hw))
  have hwp := hleg.asked
  rw [hindex] at hwp
  have hjoint : leg.wp.interpolation = .joint := by
    rw [← Option.some.inj hwp]
    rfl
  rw [hconfigs] at hfrom hto
  -- joint 1 moves with an acceleration limit of zero
  have hmoves : motionlessJoint < |jointDelta leg.fromQ leg.toQ 0| := by
    rw [← Option.some.inj hfrom, ← Option.some.inj hto]
    norm_num [jointDelta, motionlessJoint, sweepStart, sweepPath]
  exact lt_irrefl _ (hcommandable.joint hjoint 0 rfl 0 hmoves)

end

end UrRedisDriver.Proof
