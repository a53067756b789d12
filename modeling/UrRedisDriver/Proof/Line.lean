import UrRedisDriver.Lib.NearestWalk
import UrRedisDriver.Proof.Branches
import UrRedisDriver.Proof.Segments
import UrRedisDriver.Proof.Squared
import UrRedisDriver.Proof.Tool

/-!
# Where a straight segment is left

The planner follows a straight segment from one configuration to the next and times it by
what it meets on the way. It never asks whether it got to the configuration it emits. Where the
arm itself can be moved along the line, with its other configurations clear of that motion, it
is the motion that is followed. So the two agree if the motion ends where the request says.
-/

namespace UrRedisDriver.Proof

open UrRedisDriver NearestWalk
open Real (sin cos pi)
open scoped Literals

noncomputable section

variable {dh : DhParameters} {limits : Limits ℝ} {fromQ toQ q : Joints ℝ} {a b : Pose}

/-! ## Following a line -/

/-- The `k`-th sample of a line. -/
def linePose (a b : Pose) (count k : Nat) : Pose :=
  lerpSlerp a b ((k : ℝ) / ((count - 1 : Nat) : ℝ))

/-- The solutions there. -/
def lineSolutions (dh : DhParameters) (limits : Limits ℝ) (a b : Pose) (count k : Nat) :
    List (Joints ℝ) :=
  inverseKinematicsFiltered dh (linePose a b count k) limits.positionMin limits.positionMax

/-- A line that can be followed is walked from solution to nearest solution. -/
theorem followLine_walk {count todo k : Nat} {seed : Joints ℝ}
    {samples : List (Joints ℝ × Joints ℝ)}
    (h : followLine dh limits a b count todo k seed = some samples) :
    walk configurationDistance (lineSolutions dh limits a b count) todo k seed
      = some (samples.map Prod.fst) := by
  induction todo generalizing k seed samples with
  | zero =>
      cases h
      rfl
  | succ todo ih =>
      obtain ⟨q, hq, h⟩ := Option.bind_eq_some_iff.mp h
      -- a flip ends the walk; short of that every step is to the nearest solution
      split at h
      · cases h
      · obtain ⟨inv, -, h⟩ := Option.bind_eq_some_iff.mp h
        obtain ⟨rest, hrest, rfl⟩ := Option.map_eq_some_iff.mp h
        exact walk_succ.mpr ⟨q, _, nearest_eq_some.mp hq, ih hrest, rfl⟩

/-- The samples of the segment from a configuration to a pose. -/
def segmentSamples (dh : DhParameters) (fromQ : Joints ℝ) (toPose : Pose) : Nat :=
  sampleCount (Vec3.norm (toPose.trans - (forwardKinematics dh fromQ).trans)) linearSampleStep
    maxLinearSamples

/-- The configuration selected at the last of them. -/
def lastSelected (dh : DhParameters) (limits : Limits ℝ) (fromQ : Joints ℝ) (toPose : Pose) :
    Option (Joints ℝ) :=
  let count := segmentSamples dh fromQ toPose
  (followLine dh limits (forwardKinematics dh fromQ) toPose count count 0 fromQ).bind
    fun samples => (samples.map Prod.fst).getLast?

theorem segmentSamples_pos (dh : DhParameters) (fromQ : Joints ℝ) (toPose : Pose) :
    0 < segmentSamples dh fromQ toPose := by
  unfold segmentSamples sampleCount
  split
  · exact Nat.zero_lt_two
  · exact lt_min (Nat.succ_pos _) (by decide)

/-- A motion of the arm along a segment, a configuration for every sample. The flange is on
the line, the joints are within their limits and within a turn either way, and the wrist is
not straight. The motion is clear: whatever else could be chosen at a sample is more than
twice as far from it as the step that led there. -/
structure ClearMotion (dh : DhParameters) (limits : Limits ℝ) (fromQ : Joints ℝ) (toPose : Pose)
    (c : Nat → Joints ℝ) : Prop where
  start : c 0 = fromQ
  onLine : ∀ k < segmentSamples dh fromQ toPose,
    At dh (linePose (forwardKinematics dh fromQ) toPose (segmentSamples dh fromQ toPose) k) (c k)
  inside : ∀ k < segmentSamples dh fromQ toPose, Inside limits (c k)
  turns : ∀ k < segmentSamples dh fromQ toPose, ∀ i, -(2 * pi) ≤ c k i ∧ c k i ≤ 2 * pi
  wrist : ∀ k < segmentSamples dh fromQ toPose, WristFound (c k)
  clear : ∀ k, k + 1 < segmentSamples dh fromQ toPose →
    ∀ q ∈ lineSolutions dh limits (forwardKinematics dh fromQ) toPose
      (segmentSamples dh fromQ toPose) (k + 1), q ≠ c (k + 1) →
      2 * configurationDistance (c (k + 1)) (c k) < configurationDistance q (c (k + 1))

variable {toPose : Pose} {c : Nat → Joints ℝ}

/-- No solution is nearer to the motion so far than its next configuration. -/
theorem ClearMotion.steps (h : ClearMotion dh limits fromQ toPose c) (hdh : Proper dh) :
    StepsNearest configurationDistance
      (lineSolutions dh limits (forwardKinematics dh fromQ) toPose (segmentSamples dh fromQ toPose))
      (segmentSamples dh fromQ toPose) 0 fun j => c (j - 1) := by
  have hclear : KeepsClear configurationDistance
      (lineSolutions dh limits (forwardKinematics dh fromQ) toPose (segmentSamples dh fromQ toPose))
      (segmentSamples dh fromQ toPose) 0 fun j => c (j - 1) := by
    intro j hj
    rw [Nat.zero_add]
    dsimp only
    rw [Nat.add_sub_cancel]
    refine ⟨(h.onLine j hj).mem_filtered hdh (h.wrist j hj) (h.turns j hj) (h.inside j hj), ?_⟩
    intro q hq hne
    rw [← two_mul]
    cases j with
    | zero =>
        -- at the first sample the arm has not moved
        rw [configurationDistance_self, mul_zero]
        exact not_le.mp fun hle => hne (eq_of_configurationDistance hle)
    | succ j => exact h.clear j hj q hq hne
  exact hclear.stepsNearest configurationDistance_comm configurationDistance_triangle

/-- The motion is the one followed. -/
theorem ClearMotion.lastSelected (h : ClearMotion dh limits fromQ toPose c) (hdh : Proper dh)
    {rates : List (Joints ℝ)}
    (hrates : sampleLinearSegment dh limits fromQ toPose linearSampleStep maxLinearSamples
      = some rates) :
    lastSelected dh limits fromQ toPose = some (c (segmentSamples dh fromQ toPose - 1)) := by
  obtain ⟨samples, hsamples, -⟩ := Option.map_eq_some_iff.mp hrates
  have hwalk := followLine_walk hsamples
  obtain ⟨n, hn⟩ : ∃ n, segmentSamples dh fromQ toPose = n + 1 :=
    ⟨_, (Nat.succ_pred_eq_of_pos (segmentSamples_pos ..)).symm⟩
  have hsteps := h.steps hdh
  rw [hn] at hsteps
  -- the walk has nowhere else to go: at each sample the motion is nearest by a margin
  have hlast := hsteps.last
  have hcount : sampleCount (Vec3.norm (toPose.trans - (forwardKinematics dh fromQ).trans))
      linearSampleStep maxLinearSamples = n + 1 := hn
  rw [hcount] at hsamples hwalk
  unfold UrRedisDriver.Proof.lastSelected
  rw [hn]
  dsimp only at hlast ⊢
  rw [hsamples, Option.bind_some]
  rw [show c (0 - 1) = fromQ from h.start, hwalk, Option.bind_some] at hlast
  exact hlast

/-- A motion whose steps are small, past no singularity of the whole arm, can be followed. -/
theorem ClearMotion.followed (h : ClearMotion dh limits fromQ toPose c) (hdh : Proper dh)
    (hflip : ∀ k, configurationDistance (c (k + 1)) (c k) ≤ pi)
    (hdet : ∀ k, (jacobian dh (c k)).det ≠ 0) :
    ∃ rates, sampleLinearSegment dh limits fromQ toPose linearSampleStep maxLinearSamples
      = some rates := by
  let count := segmentSamples dh fromQ toPose
  -- from every sample on, with the configuration of the sample before as the seed
  suffices hfollow : ∀ todo k, k + todo = count → ∃ samples, followLine dh limits
      (forwardKinematics dh fromQ) toPose count todo k (c (k - 1)) = some samples by
    obtain ⟨samples, hsamples⟩ := hfollow count 0 (Nat.zero_add _)
    rw [show c (0 - 1) = fromQ from h.start] at hsamples
    exact ⟨_, Option.map_eq_some_iff.mpr ⟨samples, hsamples, rfl⟩⟩
  intro todo
  induction todo with
  | zero => exact fun _ _ => ⟨[], rfl⟩
  | succ todo ih =>
      intro k hk
      have hnear := h.steps hdh k (by omega)
      rw [Nat.zero_add] at hnear
      obtain ⟨rest, hrest⟩ := ih (k + 1) (by omega)
      -- the flip test of the source is not made at the first sample
      have hstep : ¬ (k > 0 ∧ configurationDistance (c k) (c (k - 1)) > pi) := by
        rintro ⟨hpos, hgt⟩
        obtain ⟨j, rfl⟩ : ∃ j, k = j + 1 := ⟨k - 1, by omega⟩
        exact absurd (hflip j) (not_le.mpr hgt)
      let rates := (jacobian dh (c k))⁻¹.mulVec (unitTwist (forwardKinematics dh fromQ) toPose)
      refine ⟨(c k, rates) :: rest,
        Option.bind_eq_some_iff.mpr ⟨c k, nearest_eq_some.mpr hnear, ?_⟩⟩
      -- no flip, and the Jacobian can be inverted
      rw [if_neg hstep, tryInverse, if_neg (hdet k), Option.bind_some]
      exact Option.map_eq_some_iff.mpr ⟨rest, hrest, rfl⟩

/-! ## The segments of a plan -/

/-- A straight segment of a plan can be followed. -/
theorem plan_linear {src : LimitSource} {request : PlanRequest} {traj : PlannedTrajectory}
    (h : plan src request = .ok traj) {i : Nat} {wp : PlanWaypoint}
    (hi : request.waypoints[i]? = some wp) (hlinear : wp.interpolation = .linear) :
    ∃ dh fromQ toQ rates, DhParameters.forModel request.robotModel = some dh
      ∧ (configs traj)[i]? = some fromQ ∧ (configs traj)[i + 1]? = some toQ
      ∧ sampleLinearSegment dh traj.limits fromQ (forwardKinematics dh toQ) linearSampleStep
          maxLinearSamples = some rates := by
  obtain ⟨dh, modelled, qs, segments, hdh, -, -, -, hconfigs, hsegments, hwaypoints,
    -⟩ := plan_stages h
  have hpos : traj.waypoints.map PlannedWaypoint.jointPositions = qs := by
    rw [hwaypoints, blendCorners_positions]
    exact segments_positions (resolveWaypoints_length hconfigs) hsegments
  obtain ⟨toQ, seed, index, hto, -⟩ := resolveWaypoints_get hconfigs hi
  have hpair : (request.waypoints.zip qs)[i]? = some (wp, toQ) := by
    rw [List.getElem?_zip_eq_some]
    exact ⟨hi, hto⟩
  obtain ⟨fromQ, index', s, hfrom, hs⟩ := planSegments_get hsegments hpair
  -- a segment starts at the configuration emitted before it
  rw [List.map_snd_zip (resolveWaypoints_length hconfigs).le] at hfrom
  obtain ⟨speed, hspeed, -⟩ := Except.bind_eq_ok.mp hs
  unfold segmentSpeed at hspeed
  rw [hlinear] at hspeed
  obtain ⟨rates, hrates, -⟩ := Except.bind_eq_ok.mp hspeed
  refine ⟨dh, fromQ, toQ, rates, hdh, ?_, ?_, Except.ofOption_eq_ok.mp hrates⟩
  · rw [configs, hpos]
    exact hfrom
  · rw [configs, hpos]
    exact hto

/--
Where the arm can be moved along a straight segment of a plan, clear of its other
configurations, the segment is left in the configuration emitted for its end exactly if that
is where the motion ends.
-/
theorem plan_continuous_iff {src : LimitSource} {request : PlanRequest}
    {traj : PlannedTrajectory} (h : plan src request = .ok traj) {i : Nat} {wp : PlanWaypoint}
    (hi : request.waypoints[i]? = some wp) (hlinear : wp.interpolation = .linear) :
    ∃ dh fromQ toQ, DhParameters.forModel request.robotModel = some dh
      ∧ (configs traj)[i]? = some fromQ ∧ (configs traj)[i + 1]? = some toQ
      ∧ ∀ c, ClearMotion dh traj.limits fromQ (forwardKinematics dh toQ) c →
        (lastSelected dh traj.limits fromQ (forwardKinematics dh toQ) = some toQ
          ↔ c (segmentSamples dh fromQ (forwardKinematics dh toQ) - 1) = toQ) := by
  obtain ⟨dh, fromQ, toQ, rates, hdh, hfrom, hto, hrates⟩ := plan_linear h hi hlinear
  refine ⟨dh, fromQ, toQ, hdh, hfrom, hto, fun c hc => ?_⟩
  rw [hc.lastSelected (forModel_proper hdh) hrates, Option.some_inj]

/-! ## The last joint alone -/

theorem lerpSlerp_zero (a b : Pose) : Motion.Same (lerpSlerp a b 0) a := by
  apply same_of_matrix
  · exact UnitQuaternion.matrix_slerp_zero a.rot b.rot
  · simp [lerpSlerp]

theorem lerpSlerp_one (a b : Pose) : Motion.Same (lerpSlerp a b 1) b := by
  apply same_of_matrix
  · exact UnitQuaternion.matrix_slerp_one a.rot b.rot
  · simp [lerpSlerp]

/-- The samples of a line of two. -/
theorem linePose_two (a b : Pose) :
    Motion.Same (linePose a b 2 0) a ∧ Motion.Same (linePose a b 2 1) b := by
  unfold linePose
  rw [Nat.cast_zero, zero_div, Nat.cast_one, div_one]
  exact ⟨lerpSlerp_zero a b, lerpSlerp_one a b⟩

/-- The request: a straight move that has the last joint turned and nothing else. -/
def wristWaypoint (turn : ℝ) : PlanWaypoint := ⟨.joints (squared turn), none, none, .linear⟩

def wristRequest (turn turn' : ℝ) : PlanRequest where
  robotModel := "ur20"
  start := .joints (squared turn)
  waypoints := [wristWaypoint turn']
  scaling := ⟨1, 1⟩
  accelerationMax := none
  maxCartesianSpeed := defaultMaxCartesianSpeed
  maxPathDeviation := defaultMaxPathDeviation
  frameConfig := .default

def turnLimits : Limits ℝ := benchLimits.scaled ⟨1, 1⟩

variable {turn turn' : ℝ}

theorem squared_inside (hlo : -6 ≤ turn) (hhi : turn ≤ 6) : Inside turnLimits (squared turn) := by
  intro i
  have hmin : turnLimits.positionMin i = -benchReach i := rfl
  have hmax : turnLimits.positionMax i = benchReach i := rfl
  have hpi := Real.pi_pos
  have h315 : pi < 3.15 := Real.pi_lt_d2
  rw [hmin, hmax]
  fin_cases i <;> refine ⟨?_, ?_⟩ <;> norm_num [squared, benchReach] <;> linarith

theorem squared_turns (hlo : -6 ≤ turn) (hhi : turn ≤ 6) (i : Fin 6) :
    -(2 * pi) ≤ squared turn i ∧ squared turn i ≤ 2 * pi := by
  have hpi := Real.pi_gt_three
  fin_cases i <;> refine ⟨?_, ?_⟩ <;> norm_num [squared] <;> linarith

theorem squared_bent (turn : ℝ) : singularEps ≤ |sin (squared turn 4)| := by
  have h4 : squared turn 4 = pi / 2 := rfl
  rw [h4, Real.sin_pi_div_two, abs_one, singularEps]
  norm_num

theorem squared_dist (turn turn' : ℝ) :
    configurationDistance (squared turn) (squared turn') ≤ |turn - turn'| := by
  refine configurationDistance_le fun i => ?_
  fin_cases i <;> simp [squared, branchWeights]

/-- The flange has nowhere to go. -/
theorem wrist_samples (turn turn' : ℝ) :
    segmentSamples ur20 (squared turn) (forwardKinematics ur20 (squared turn')) = 2 := by
  obtain ⟨-, -, -, -, -, hto⟩ := squared_frames ur20 turn'
  obtain ⟨-, -, -, -, -, hfrom⟩ := squared_frames ur20 turn
  have htrans : (forwardKinematics ur20 (squared turn')).trans
      = (forwardKinematics ur20 (squared turn)).trans := hto.trans hfrom.symm
  unfold segmentSamples sampleCount
  rw [htrans, sub_self, Vec3.norm_zero, if_pos]
  norm_num [linearSampleStep]

/-- The limits allow it, so there is a plan, as long as the line can be followed. -/
theorem wrist_planned (hlo : -6 ≤ turn) (hhi : turn ≤ 6) (hlo' : -6 ≤ turn') (hhi' : turn' ≤ 6)
    (h : ∃ rates, sampleLinearSegment ur20 turnLimits (squared turn)
      (forwardKinematics ur20 (squared turn')) linearSampleStep maxLinearSamples = some rates) :
    ∃ traj, plan bench.limits (wristRequest turn turn') = .ok traj
      ∧ traj.limits = turnLimits ∧ configs traj = [squared turn, squared turn'] := by
  have hfrom : resolve (.joints (squared turn)) none ur20 turnLimits .default 0 0
      = .ok (squared turn) :=
    Except.bind_eq_ok.mpr ⟨(), Except.mapError_eq_ok.mpr
      (checkConfiguration_ok (squared_inside hlo hhi)), rfl⟩
  have hto : resolve (.joints (squared turn')) none ur20 turnLimits .default (squared turn) 1
      = .ok (squared turn') :=
    Except.bind_eq_ok.mpr ⟨(), Except.mapError_eq_ok.mpr
      (checkConfiguration_ok (squared_inside hlo' hhi')), rfl⟩
  obtain ⟨rates, hrates⟩ := h
  -- the line can be followed, so its segment is planned
  obtain ⟨s, hs⟩ : ∃ s, planSegment ur20 turnLimits (wristRequest turn turn').maxCartesianSpeed 0
      (wristWaypoint turn') (squared turn) (squared turn') = .ok s :=
    Except.exists_bind (Except.bind_eq_ok.mpr ⟨_, Except.ofOption_eq_ok.mpr hrates, rfl⟩) ⟨_, rfl⟩
  obtain ⟨traj, htraj, hlimits, hstart, hpos⟩ := plan_single (wristRequest turn turn')
    forModel_ur20 rfl bench_limits rfl hfrom hto hs
  refine ⟨traj, htraj, hlimits, ?_⟩
  rw [configs, hstart, hpos]

/-! ### A little way -/

/-- The shoulder has one way round to the wrist, and another that is far off. -/
theorem shoulder_alone {θ : ℝ} (hθ : |θ| ≤ 1 / 4)
    (h : ur20.a3 * sin θ + ur20.d4 * cos θ = ur20.d4) : θ = 0 := by
  have hbound := abs_le.mp hθ
  have hpi := Real.pi_gt_three
  have hsin : sin θ = 2 * sin (θ / 2) * cos (θ / 2) := by
    rw [← Real.sin_two_mul, mul_div_cancel₀ _ two_ne_zero]
  have hcos : cos θ = 1 - 2 * sin (θ / 2) ^ 2 := by
    rw [← Real.cos_two_mul_eq_one_sub, mul_div_cancel₀ _ two_ne_zero]
  -- half angles: one factor vanishes at zero only, the other does not vanish on this range
  have hfactor : sin (θ / 2) * (ur20.a3 * cos (θ / 2) - ur20.d4 * sin (θ / 2)) = 0 := by
    rw [hsin, hcos] at h
    linarith
  have hne : ur20.a3 * cos (θ / 2) - ur20.d4 * sin (θ / 2) ≠ 0 := by
    have hlarge : 1 - (θ / 2) ^ 2 / 2 ≤ cos (θ / 2) := Real.one_sub_sq_div_two_le_cos
    have hsmall : -1 ≤ sin (θ / 2) := Real.neg_one_le_sin _
    have ha : ur20.a3 = -0.7287 := rfl
    have hd : ur20.d4 = 0.201 := rfl
    rw [ha, hd]
    nlinarith
  have hzero := (mul_eq_zero.mp hfactor).resolve_right hne
  have := (Real.sin_eq_zero_iff_of_lt_of_lt (by linarith) (by linarith)).mp hzero
  linarith

theorem eq_of_coe {a b : ℝ} (h : (a : Real.Angle) = b) (hlt : |a - b| < 2 * pi) : a = b := by
  obtain ⟨k, hk⟩ := turn_of_coe h
  rw [hk, sub_add_cancel_left, abs_neg, abs_mul, abs_of_pos Real.two_pi_pos] at hlt
  have hone : |(k : ℝ)| < 1 := by
    by_contra hge
    nlinarith [Real.two_pi_pos]
  have hk0 : k = 0 := Int.abs_lt_one_iff.mp (by exact_mod_cast hone)
  rw [hk, hk0, Int.cast_zero, zero_mul, add_zero]

/-- What is listed for the arm at right angles, and near it, is the arm as it is. -/
theorem squared_alone {T : Pose} {limits : Limits ℝ} (h : At ur20 T (squared turn))
    (hq : q ∈ inverseKinematicsFiltered ur20 T limits.positionMin limits.positionMax)
    (hnear : configurationDistance q (squared turn) ≤ 1) : q = squared turn := by
  obtain ⟨sol, hsol, hexpand⟩ := List.mem_flatMap.mp hq
  have hturns := turnsApart_of_expandTurns hexpand
  have hjoint : ∀ i, branchWeights i * |q i - squared turn i| ≤ 1 := fun i =>
    (le_configurationDistance q (squared turn) i).trans hnear
  have hpi := Real.pi_gt_three
  have h0 : |q 0| ≤ 1 / 4 := by
    have := hjoint 0
    simp [branchWeights, squared] at this
    linarith
  have h2 : |q 2 - pi / 2| ≤ 1 / 3 := by
    have := hjoint 2
    simp [branchWeights, squared] at this
    linarith
  have h4 : |q 4 - pi / 2| ≤ 1 := by
    have := hjoint 4
    simpa [branchWeights, squared] using this
  have hzero : q 0 = 0 := by
    obtain ⟨θ1, θ5, θ3, hby⟩ := exists_listedBy hsol
    have hcoe : (θ1 : Real.Angle) = q 0 :=
      (coe_of_turn (hby.turnsApart 0)).trans (coe_of_turn (hturns 0))
    obtain ⟨-, -, -, -, -, hshift⟩ := squared_frames ur20 turn
    obtain ⟨hrot, htrans⟩ := Motion.same_iff.mp h
    have happroach := squared_approach ur20 turn
    rw [← UnitQuaternion.smul_eq_iff.mp hrot] at happroach
    have hside := h.wristSolved.approach
    simp [along, squared] at hside
    -- the wrist centre is at the end of the forearm
    have hcentre := theta1_centre hby.theta1
    rw [htrans, show (forwardKinematics ur20 (squared turn)).trans = _ from hshift, happroach, hside,
      sin_eq_of_coe hcoe, cos_eq_of_coe hcoe] at hcentre
    refine shoulder_alone h0 ?_
    simp at hcentre
    linarith
  have hcoe := h.coe_of_listed (forModel_proper forModel_ur20) (squared_bent turn) hsol hturns
    (congrArg _ hzero) ?_ ?_
  · funext i
    refine eq_of_coe (hcoe i) ?_
    have hweight : 1 ≤ branchWeights i := by
      fin_cases i <;> norm_num [branchWeights]
    have := hjoint i
    nlinarith [abs_nonneg (q i - squared turn i)]
  · rw [show squared turn 4 = pi / 2 from rfl, Real.sin_pi_div_two, mul_one]
    rw [abs_le] at h4
    exact Real.sin_pos_of_pos_of_lt_pi (by linarith) (by linarith)
  · rw [show squared turn 2 = pi / 2 from rfl, Real.sin_pi_div_two, mul_one]
    rw [abs_le] at h2
    exact Real.sin_pos_of_pos_of_lt_pi (by linarith) (by linarith)

/-- The arm as it starts, and how it stands from then on. -/
def wristMotion (turn turn' : ℝ) : Nat → Joints ℝ
  | 0 => squared turn
  | _ + 1 => squared turn'

/-- A little turn of the last joint is clear of everything else, whatever the request calls the
configuration it leads to. -/
theorem wrist_clear {mid : ℝ} (hlo : -6 ≤ turn) (hhi : turn ≤ 6) (hlo' : -6 ≤ mid)
    (hhi' : mid ≤ 6) (hsmall : |mid - turn| ≤ 1 / 2)
    (hsame : Motion.Same (forwardKinematics ur20 (squared turn'))
      (forwardKinematics ur20 (squared mid))) :
    ClearMotion ur20 turnLimits (squared turn) (forwardKinematics ur20 (squared turn'))
      (wristMotion turn mid) := by
  have hends := linePose_two (forwardKinematics ur20 (squared turn))
    (forwardKinematics ur20 (squared turn'))
  have hmid : At ur20 (linePose (forwardKinematics ur20 (squared turn))
      (forwardKinematics ur20 (squared turn')) 2 1) (squared mid) := hends.2.trans hsame
  -- two samples: the start and the end of a line that has no length
  refine ⟨rfl, ?_, ?_, ?_, ?_, ?_⟩ <;> rw [wrist_samples]
  · intro k hk
    obtain rfl | rfl : k = 0 ∨ k = 1 := by omega
    · exact hends.1
    · exact hmid
  · intro k _
    cases k with
    | zero => exact squared_inside hlo hhi
    | succ k => exact squared_inside hlo' hhi'
  · intro k _
    cases k with
    | zero => exact squared_turns hlo hhi
    | succ k => exact squared_turns hlo' hhi'
  · intro k _
    cases k <;> exact .inl (squared_bent _)
  · intro k hk q hq hne
    obtain rfl : k = 0 := by omega
    have hstep := squared_dist mid turn
    -- any other solution is more than a radian away, the one of the motion at most half a radian
    have hfar : 1 < configurationDistance q (squared mid) :=
      not_le.mp fun hle => hne (squared_alone hmid hq hle)
    show 2 * configurationDistance (squared mid) (squared turn)
      < configurationDistance q (squared mid)
    linarith

/-- It can be followed, and is. -/
theorem wrist_followed {mid : ℝ} (h : ClearMotion ur20 turnLimits (squared turn)
      (forwardKinematics ur20 (squared turn')) (wristMotion turn mid))
    (hsmall : |mid - turn| ≤ 1 / 2) : ∃ rates, sampleLinearSegment ur20 turnLimits (squared turn)
      (forwardKinematics ur20 (squared turn')) linearSampleStep maxLinearSamples = some rates := by
  refine h.followed (forModel_proper forModel_ur20) (fun k => ?_) fun k => ?_
  · cases k with
    | zero =>
        have hstep := squared_dist mid turn
        exact hstep.trans (by linarith [Real.pi_gt_three])
    | succ k =>
        show configurationDistance (squared mid) (squared mid) ≤ pi
        rw [configurationDistance_self]
        exact Real.pi_pos.le
  · cases k <;> exact det_jacobian_squared ur20 _ (by norm_num [ur20]) (by norm_num [ur20])

/-- Half a radian of the last joint: the segment is left where the request has it end. -/
theorem plan_continuous_wrist : ∃ traj, plan bench.limits (wristRequest 0 (1 / 2)) = .ok traj
    ∧ (configs traj)[0]? = some (squared 0) ∧ (configs traj)[1]? = some (squared (1 / 2))
    ∧ ClearMotion ur20 traj.limits (squared 0) (forwardKinematics ur20 (squared (1 / 2)))
      (wristMotion 0 (1 / 2))
    ∧ lastSelected ur20 traj.limits (squared 0) (forwardKinematics ur20 (squared (1 / 2)))
      = some (squared (1 / 2)) := by
  have hsmall : |(1 / 2 : ℝ) - 0| ≤ 1 / 2 := by norm_num
  have hclear : ClearMotion ur20 turnLimits (squared 0) (forwardKinematics ur20 (squared (1 / 2)))
      (wristMotion 0 (1 / 2)) :=
    wrist_clear (by norm_num) (by norm_num) (by norm_num) (by norm_num) hsmall (Motion.Same.refl _)
  obtain ⟨traj, htraj, hlimits, hconfigs⟩ := wrist_planned (by norm_num) (by norm_num)
    (by norm_num) (by norm_num) (wrist_followed hclear hsmall)
  have hwaypoint : (wristRequest 0 (1 / 2)).waypoints[0]? = some (wristWaypoint (1 / 2)) := rfl
  obtain ⟨dh, fromQ, toQ, hdh, hfrom, hto, hiff⟩ := plan_continuous_iff htraj hwaypoint rfl
  have hfrom' : (configs traj)[0]? = some (squared 0) := by rw [hconfigs]; rfl
  have hto' : (configs traj)[1]? = some (squared (1 / 2)) := by rw [hconfigs]; rfl
  obtain rfl : ur20 = dh := Option.some.inj (forModel_ur20.symm.trans hdh)
  obtain rfl : squared 0 = fromQ := Option.some.inj (hfrom'.symm.trans hfrom)
  obtain rfl : squared (1 / 2) = toQ := Option.some.inj (hto'.symm.trans hto)
  rw [← hlimits] at hclear
  refine ⟨traj, htraj, hfrom', hto', hclear, (hiff _ hclear).mpr ?_⟩
  rw [wrist_samples]
  rfl

/-! ### A whole turn away -/

def turnFrom : Joints ℝ := squared (-(pi / 2))

def turnTo : Joints ℝ := squared (3 * (pi / 2))

theorem turn_same :
    Motion.Same (forwardKinematics ur20 turnTo) (forwardKinematics ur20 turnFrom) := by
  refine forwardKinematics_turns fun i => ?_
  fin_cases i
  · exact ⟨0, by simp [turnTo, turnFrom, squared]⟩
  · exact ⟨0, by simp [turnTo, turnFrom, squared]⟩
  · exact ⟨0, by simp [turnTo, turnFrom, squared]⟩
  · exact ⟨0, by simp [turnTo, turnFrom, squared]⟩
  · exact ⟨0, by simp [turnTo, turnFrom, squared]⟩
  · refine ⟨1, ?_⟩
    simp [turnTo, turnFrom, squared]
    ring

theorem turn_ne : turnFrom ≠ turnTo := by
  intro h
  have h5 : -(pi / 2) = 3 * (pi / 2) := congrFun h 5
  linarith [Real.pi_pos]

/-- The request: a straight move between them. -/
def turnRequest : PlanRequest := wristRequest (-(pi / 2)) (3 * (pi / 2))

def turnWaypoint : PlanWaypoint := wristWaypoint (3 * (pi / 2))

/-- To stay as it is is the clear motion. -/
theorem turn_clear : ClearMotion ur20 turnLimits turnFrom (forwardKinematics ur20 turnTo)
    (wristMotion (-(pi / 2)) (-(pi / 2))) := by
  have hpi := Real.pi_pos
  have h315 : pi < 3.15 := Real.pi_lt_d2
  exact wrist_clear (by linarith) (by linarith) (by linarith) (by linarith) (by norm_num) turn_same

theorem turn_followed : ∃ rates, sampleLinearSegment ur20 turnLimits turnFrom
    (forwardKinematics ur20 turnTo) linearSampleStep maxLinearSamples = some rates :=
  wrist_followed turn_clear (by norm_num)

theorem turn_planned : ∃ traj, plan bench.limits turnRequest = .ok traj
    ∧ traj.limits = turnLimits ∧ configs traj = [turnFrom, turnTo] := by
  have hpi := Real.pi_pos
  have h315 : pi < 3.15 := Real.pi_lt_d2
  exact wrist_planned (by linarith) (by linarith) (by linarith) (by linarith) turn_followed

/-- The segment is left a turn of the last joint before the configuration emitted for its end. -/
theorem not_plan_continuous : ∃ traj, plan bench.limits turnRequest = .ok traj
    ∧ turnRequest.waypoints[0]? = some turnWaypoint ∧ turnWaypoint.interpolation = .linear
    ∧ (configs traj)[0]? = some turnFrom ∧ (configs traj)[1]? = some turnTo
    ∧ lastSelected ur20 traj.limits turnFrom (forwardKinematics ur20 turnTo) ≠ some turnTo := by
  obtain ⟨traj, htraj, hlimits, hconfigs⟩ := turn_planned
  obtain ⟨rates, hrates⟩ := turn_followed
  refine ⟨traj, htraj, rfl, rfl, ?_, ?_, ?_⟩
  · rw [hconfigs]
    rfl
  · rw [hconfigs]
    rfl
  · -- the walk stays on the side it came from and ends a whole turn short of the target
    have hcount : segmentSamples ur20 turnFrom (forwardKinematics ur20 turnTo) = 2 :=
      wrist_samples ..
    rw [hlimits, turn_clear.lastSelected (forModel_proper forModel_ur20) hrates, hcount]
    exact fun h => turn_ne (Option.some.inj h)

end

end UrRedisDriver.Proof
