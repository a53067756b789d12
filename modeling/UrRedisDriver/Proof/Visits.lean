import UrRedisDriver.Proof.Segments

/-!
# A plan visits what was asked for

One waypoint for each that was asked for, in its place, with the joints that were given or
the flange at the pose that was: whatever cannot be resolved fails the plan as a whole.
-/

namespace UrRedisDriver.Proof

open UrRedisDriver

noncomputable section

variable {src : LimitSource} {request : PlanRequest} {traj : PlannedTrajectory}
  {dh : DhParameters} {base limits : Limits ℝ} {q seed : Joints ℝ} {index : Nat}

/-! ## One target -/

/--
A pose of a request in the base frame of the controller. What was looked up against
`base_link` is there as it stands if the tree's `base_link` is that frame, else half a turn
about the third axis away.
-/
def urBasePose (frames : FrameConfig) (values : Joints ℝ) : PoseFrame → Pose
  | .urBase => poseFromArray values
  | .urdfBaseLink =>
      if frames.baseLinkIsUrBase then poseFromArray values else rzPi * poseFromArray values

theorem inside_of_checkConfiguration (h : checkConfiguration limits q index = .ok ()) :
    Inside limits q := by
  unfold checkConfiguration at h
  cases hfirst : limits.firstViolation q with
  | none =>
      -- no violation found is none there: the search goes over all six joints
      intro i
      have hnone := List.find?_eq_none.mp (Option.map_eq_none_iff.mp hfirst) i
        (List.mem_finRange i)
      simp only [Bool.or_eq_true, decide_eq_true_eq, not_or, not_lt, gt_iff_lt] at hnone
      exact hnone
  | some v =>
      rw [hfirst] at h
      cases h

/-- Joints are taken as they are. -/
theorem resolve_joints_ok {frames : FrameConfig} {preferred : Option (Joints ℝ)} {q' : Joints ℝ}
    (h : resolve (.joints q') preferred dh limits frames seed index = .ok q) :
    q = q' ∧ Inside limits q' := by
  obtain ⟨_, hcheck, heq⟩ := Except.bind_eq_ok.mp h
  cases heq
  exact ⟨rfl, inside_of_checkConfiguration (Except.mapError_eq_ok.mp hcheck)⟩

/-- A pose is resolved to a branch of the pose in the base frame. -/
theorem resolve_pose_branch {frames : FrameConfig} {preferred : Option (Joints ℝ)}
    {values : Joints ℝ} {frame : PoseFrame}
    (h : resolve (.pose values frame) preferred dh limits frames seed index = .ok q) :
    Inside limits q ∧ ∃ sol ∈ inverseKinematics dh (urBasePose frames values frame),
      TurnsApart sol q := by
  have hpose : resolvePose dh limits (urBasePose frames values frame) (preferred.getD seed) index
      = .ok q := by
    cases frame <;> exact Except.mapError_eq_ok.mp h
  obtain ⟨sol, hsol, hturns, hexp⟩ := resolvePose_ok hpose
  exact ⟨fun i => (mem_expandTurns.mp hexp i).2, sol, hsol, hturns⟩

theorem resolve_inside {target : WaypointTarget} {frames : FrameConfig}
    {preferred : Option (Joints ℝ)}
    (h : resolve target preferred dh limits frames seed index = .ok q) : Inside limits q := by
  cases target with
  | joints q' =>
      obtain ⟨rfl, hinside⟩ := resolve_joints_ok h
      exact hinside
  | pose values frame => exact (resolve_pose_branch h).1

/-! ## The whole plan -/

/-- Each configuration of a route is that of its target. -/
theorem OnRoute.resolved {leg : Leg} (h : OnRoute src request dh base leg) :
    ∃ seed index, resolve leg.wp.target leg.wp.preferredJointConfig dh base request.frameConfig
      seed index = .ok leg.toQ := by
  obtain ⟨⟨qs, hroute, -, hto, -⟩, hwp⟩ := h
  obtain ⟨startQ, rest, rfl, -, hrest⟩ := hroute.resolved
  obtain ⟨q, seed, index, hq, hres⟩ := resolveWaypoints_get hrest hwp
  rw [List.getElem?_cons_succ, hq] at hto
  cases hto
  exact ⟨seed, index, hres⟩

/-- Neither given accelerations nor scaling were what let a configuration in. -/
theorem Route.inside {qs : List (Joints ℝ)} {modelled : Limits ℝ}
    (h : Route src request dh base qs)
    (hmodelled : modelLimits src request.robotModel = .ok modelled) (hq : Inside base q) :
    Inside modelled q := by
  obtain ⟨modelled', hmodelled', rfl⟩ := h.limits
  rw [hmodelled] at hmodelled'
  cases hmodelled'
  cases ha : request.accelerationMax with
  | none =>
      rw [ha] at hq
      exact hq
  | some a =>
      rw [ha] at hq
      exact hq

/-- What the waypoint for a target has to be. -/
structure VisitsTarget (dh : DhParameters) (request : PlanRequest) (target : WaypointTarget)
    (q : Joints ℝ) : Prop where
  joints : ∀ q', target = .joints q' → q = q'
  pose : ∀ values frame, target = .pose values frame →
    let T := urBasePose request.frameConfig values frame
    (∀ sol ∈ inverseKinematics dh T, Motion.Same (forwardKinematics dh sol) T) →
      Motion.Same (forwardKinematics dh q) T

theorem visitsTarget_of_resolve {target : WaypointTarget} {preferred : Option (Joints ℝ)}
    (h : resolve target preferred dh limits request.frameConfig seed index = .ok q) :
    VisitsTarget dh request target q := by
  constructor
  · rintro q' rfl
    exact (resolve_joints_ok h).1
  · rintro values frame rfl T hik
    obtain ⟨-, sol, hsol, hturns⟩ := resolve_pose_branch h
    exact (forwardKinematics_turns hturns).trans (hik sol hsol)

/-- As many waypoints as were asked for, in their order, all of them inside the limits of the
model and each at its target. -/
structure Visits (src : LimitSource) (request : PlanRequest) (dh : DhParameters)
    (traj : PlannedTrajectory) : Prop where
  count : traj.waypoints.length = request.waypoints.length
  some_waypoint : 1 ≤ traj.waypoints.length
  not_too_many : traj.waypoints.length ≤ maxWaypoints
  inside : ∃ modelled, modelLimits src request.robotModel = .ok modelled
    ∧ Inside modelled traj.startJointPositions
    ∧ ∀ w ∈ traj.waypoints, Inside modelled w.jointPositions
  start : VisitsTarget dh request request.start traj.startJointPositions
  targets : ∀ (k : Nat) (wp : PlanWaypoint) (w : PlannedWaypoint),
    request.waypoints[k]? = some wp → traj.waypoints[k]? = some w →
      VisitsTarget dh request wp.target w.jointPositions

theorem plan_count (h : plan src request = .ok traj) :
    request.waypoints ≠ [] ∧ request.waypoints.length ≤ maxWaypoints := by
  obtain ⟨dh, -, h⟩ := Except.bind_eq_ok.mp h
  obtain ⟨_, hne, h⟩ := Except.bind_eq_ok.mp h
  obtain ⟨_, hlen, -⟩ := Except.bind_eq_ok.mp h
  exact ⟨Except.require_eq_ok.mp hne, Except.require_eq_ok.mp hlen⟩

/--
**A plan visits what was asked for**, given for each pose that the branches found for it are
right.
-/
theorem plan_visits (h : plan src request = .ok traj) :
    ∃ dh, DhParameters.forModel request.robotModel = some dh ∧ Visits src request dh traj := by
  obtain ⟨dh, base, hroute, hlen⟩ := plan_route h
  obtain ⟨hne, hmax⟩ := plan_count h
  obtain ⟨modelled, hmodelled, -⟩ := hroute.limits
  obtain ⟨startQ, rest, hqs, hstart, -⟩ := hroute.resolved
  cases hqs
  -- a planned waypoint is what the waypoint asked for at that index was resolved to
  have hleg : ∀ {k : Nat} {w : PlannedWaypoint}, traj.waypoints[k]? = some w →
      ∃ wp seed index, request.waypoints[k]? = some wp ∧ resolve wp.target
        wp.preferredJointConfig dh base request.frameConfig seed index = .ok w.jointPositions := by
    intro k w hw
    obtain ⟨dh', base', leg, hleg, rfl, -, -, -, he⟩ := plan_waypoint h hw
    obtain ⟨⟨qs', hroute', -⟩, hwp⟩ := id hleg
    obtain ⟨rfl, rfl, -⟩ := hroute.unique hroute'
    obtain ⟨seed, index, hres⟩ := hleg.resolved
    rw [← he.positions] at hres
    exact ⟨leg.wp, seed, index, hwp, hres⟩
  refine ⟨dh, hroute.model, hlen, ?_, hlen.trans_le hmax, ⟨modelled, hmodelled, ?_, ?_⟩, ?_, ?_⟩
  · rw [hlen]
    exact List.length_pos_iff.mpr hne
  · exact hroute.inside hmodelled (resolve_inside hstart)
  · intro w hw
    obtain ⟨k, hk⟩ := List.getElem?_of_mem hw
    obtain ⟨wp, seed, index, -, hres⟩ := hleg hk
    exact hroute.inside hmodelled (resolve_inside hres)
  · exact visitsTarget_of_resolve hstart
  · intro k wp w hwp hw
    obtain ⟨wp', seed, index, hwp', hres⟩ := hleg hw
    rw [hwp] at hwp'
    cases hwp'
    exact visitsTarget_of_resolve hres

/-! ## A tree turned around -/

/-- The place in front of the arm, looked up in a tree whose `base_link` faces the other way. -/
def behindPose : Joints ℝ := ![0, 0.201, 1.5906, 0, 0, -Real.pi]

/-- Half a turn about the third axis, either way. -/
theorem fromScaledAxis_halfTurn {s : ℝ} (h : s ^ 2 = 1) :
    UnitQuaternion.fromScaledAxis ![0, 0, s * Real.pi]
      = UnitQuaternion.ofParts 0 0 0 s (by linarith) := by
  have hpi := Real.pi_pos
  -- half a turn: half of the angle is a right one, so the scalar vanishes
  have hnorm : Vec3.norm ((1 / 2 : ℝ) • ![0, 0, s * Real.pi]) = Real.pi / 2 := by
    have hsq : ((1 / 2 : ℝ) • ![0, 0, s * Real.pi]) ⬝ᵥ ((1 / 2 : ℝ) • ![0, 0, s * Real.pi])
        = (Real.pi / 2) ^ 2 := by
      simp [dotProduct, Fin.sum_univ_three]
      linear_combination (Real.pi / 2) ^ 2 * h
    rw [Vec3.norm, hsq, Real.sqrt_sq (by positivity)]
  unfold UnitQuaternion.fromScaledAxis
  simp only [hnorm, Real.cos_pi_div_two, Real.sin_pi_div_two]
  apply UnitQuaternion.ext_parts
  · rfl
  · simp
  · simp
  · simp
    field_simp

/-- It is in front of the arm all the same. -/
theorem urBasePose_behind :
    urBasePose ⟨false⟩ behindPose .urdfBaseLink = poseFromArray frontPose := by
  have hforth : rzPi.rot = UnitQuaternion.ofParts 0 0 0 1 (by norm_num) := by
    have h := fromScaledAxis_halfTurn (one_pow 2)
    rwa [one_mul] at h
  have hback : (poseFromArray behindPose).rot
      = UnitQuaternion.ofParts 0 0 0 (-1) (by norm_num) := by
    have h := fromScaledAxis_halfTurn (s := -1) (by norm_num)
    rw [neg_one_mul] at h
    exact h
  have hone : (poseFromArray frontPose).rot = 1 := front_ahead.rot
  apply Motion.ext
  · -- the two half turns undo each other
    show rzPi.rot * (poseFromArray behindPose).rot = (poseFromArray frontPose).rot
    rw [hforth, hback, hone]
    apply UnitQuaternion.ext_parts <;> simp <;> rfl
  · show rzPi.rot • (poseFromArray behindPose).trans + rzPi.trans
      = (poseFromArray frontPose).trans
    rw [hforth, UnitQuaternion.smul_def, front_ahead.trans]
    ext i
    fin_cases i <;> simp [UnitQuaternion.matrix, UnitQuaternion.rotMatrix, poseFromArray,
      behindPose, rzPi, ur20]

/-- To that place, and back to where the arm stood. -/
def behindRequest : PlanRequest :=
  { frontRequest "" with
    waypoints :=
      [⟨.pose behindPose .urdfBaseLink, none, none, .joint⟩,
        ⟨.joints benchStart, none, none, .joint⟩]
    frameConfig := ⟨false⟩ }

theorem behind_plan : ∃ traj, plan bench.limits behindRequest = .ok traj := by
  obtain ⟨sol, hsol, hpi, helbow⟩ := front_ahead.reached front_elbow.1 front_elbow.2
  let limits := benchLimits.scaled behindRequest.scaling
  obtain ⟨q, hq⟩ := resolvePose_isOk benchStart 1 hsol
    (mem_expandTurns_bench behindRequest.scaling hpi helbow)
  have hthere : resolve (.pose behindPose .urdfBaseLink) none ur20 limits ⟨false⟩ benchStart 1
      = .ok q := by
    have hpose : resolvePose ur20 limits (urBasePose ⟨false⟩ behindPose .urdfBaseLink) benchStart 1
        = .ok q := urBasePose_behind ▸ hq
    exact Except.mapError_eq_ok.mpr hpose
  have hstand : ∀ seed index, resolve (.joints benchStart) none ur20 limits ⟨false⟩ seed index
      = .ok benchStart := fun _ _ =>
    Except.bind_eq_ok.mpr ⟨(), Except.mapError_eq_ok.mpr (bench_check _), rfl⟩
  -- joint 1 turns on the way there, and by as much on the way back
  have hmoves := front_moves hq
  obtain ⟨there, hthereSpeed⟩ := jointSegmentSpeed_isSome (l := limits) hmoves
  have hback : motionlessJoint < |jointDelta q benchStart 0| := by
    rwa [jointDelta, abs_sub_comm]
  obtain ⟨back, hbackSpeed⟩ := jointSegmentSpeed_isSome (l := limits) hback
  have hconfigs : resolveWaypoints ur20 limits ⟨false⟩ 0 benchStart behindRequest.waypoints
      = .ok [q, benchStart] :=
    Except.bind_eq_ok.mpr ⟨q, hthere, Except.bind_eq_ok.mpr ⟨[benchStart],
      Except.bind_eq_ok.mpr ⟨benchStart, hstand _ _, rfl⟩, rfl⟩⟩
  obtain ⟨s, hs⟩ : ∃ s, planSegment ur20 limits behindRequest.maxCartesianSpeed 0
      ⟨.pose behindPose .urdfBaseLink, none, none, .joint⟩ benchStart q = .ok s :=
    Except.exists_bind (Except.ofOption_eq_ok.mpr hthereSpeed) ⟨_, rfl⟩
  obtain ⟨s', hs'⟩ : ∃ s', planSegment ur20 limits behindRequest.maxCartesianSpeed 1
      ⟨.joints benchStart, none, none, .joint⟩ q benchStart = .ok s' :=
    Except.exists_bind (Except.ofOption_eq_ok.mpr hbackSpeed) ⟨_, rfl⟩
  have hsegments : planSegments ur20 limits behindRequest.maxCartesianSpeed 0 benchStart
      (behindRequest.waypoints.zip [q, benchStart]) = .ok [s, s'] :=
    Except.bind_eq_ok.mpr ⟨s, hs, Except.bind_eq_ok.mpr ⟨[s'],
      Except.bind_eq_ok.mpr ⟨s', hs', rfl⟩, rfl⟩⟩
  obtain ⟨traj, htraj, -⟩ := plan_isOk behindRequest forModel_ur20 (List.cons_ne_nil _ _)
    (by decide) bench_limits rfl (hstand _ _) hconfigs hsegments
  exact ⟨traj, htraj⟩

/-- The flange is half a turn away from the pose that was asked for, and the arm comes back. -/
theorem plan_visits_behind : ∃ traj there back, plan bench.limits behindRequest = .ok traj
    ∧ traj.waypoints = [there, back]
    ∧ Motion.Same (forwardKinematics ur20 there.jointPositions)
      (rzPi * poseFromArray ![0, 0.201, 1.5906, 0, 0, -Real.pi])
    ∧ flangePoint ur20 there.jointPositions = ![0, -0.201, 1.5906]
    ∧ back.jointPositions = benchStart := by
  obtain ⟨traj, htraj⟩ := behind_plan
  obtain ⟨dh, hdh, hvisits⟩ := plan_visits htraj
  have hmodel : some ur20 = some dh := forModel_ur20.symm.trans hdh
  cases hmodel
  obtain ⟨there, back, hw⟩ := List.length_eq_two.mp hvisits.count
  have hthere := hvisits.targets 0 ⟨.pose behindPose .urdfBaseLink, none, none, .joint⟩ there rfl
    (by rw [hw]; rfl)
  have hback := hvisits.targets 1 ⟨.joints benchStart, none, none, .joint⟩ back rfl
    (by rw [hw]; rfl)
  have hsame := hthere.pose behindPose .urdfBaseLink rfl
  have hbranches : ∀ sol ∈ inverseKinematics ur20 (urBasePose ⟨false⟩ behindPose .urdfBaseLink),
      Motion.Same (forwardKinematics ur20 sol)
        (urBasePose ⟨false⟩ behindPose .urdfBaseLink) := by
    rw [urBasePose_behind]
    exact front_same
  have hflange := hsame hbranches
  -- with the base turned round, the pose asked for is the one in front
  have hfront : Motion.Same (forwardKinematics ur20 there.jointPositions)
      (poseFromArray frontPose) := urBasePose_behind ▸ hflange
  refine ⟨traj, there, back, htraj, hw, hflange, ?_, hback.joints benchStart rfl⟩
  rw [flangePoint, (Motion.same_iff.mp hfront).2]
  rfl

end

end UrRedisDriver.Proof
