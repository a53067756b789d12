import UrRedisDriver.Proof.InverseKinematics
import UrRedisDriver.Trajectory.Online

/-!
# What a plan is made of

A plan that succeeds has one configuration for each waypoint asked for, in order, and emits
it: timing and blending leave the configurations alone. A pose's configuration is one of the
branches of the inverse kinematics, up to whole turns.
-/

namespace UrRedisDriver.Proof

open UrRedisDriver

noncomputable section

variable {dh : DhParameters} {limits : Limits ℝ} {frames : FrameConfig}

/-! ## One target -/

/-- A configuration inside the limits may be asked for. -/
theorem checkConfiguration_ok {q : Joints ℝ} {index : Nat}
    (h : ∀ i, limits.positionMin i ≤ q i ∧ q i ≤ limits.positionMax i) :
    checkConfiguration limits q index = .ok () := by
  have hnone : limits.firstViolation q = none := by
    unfold Limits.firstViolation
    rw [Option.map_eq_none_iff, List.find?_eq_none]
    intro i _
    simp [not_lt.mpr (h i).1, not_lt.mpr (h i).2]
  unfold checkConfiguration
  rw [hnone]

/-- A pose is resolved to a branch, up to whole turns, inside the limits. -/
theorem resolvePose_ok {T : Pose} {seed q : Joints ℝ} {index : Nat}
    (h : resolvePose dh limits T seed index = .ok q) :
    ∃ sol ∈ inverseKinematics dh T, TurnsApart sol q
      ∧ q ∈ expandTurns sol limits.positionMin limits.positionMax := by
  unfold resolvePose at h
  dsimp only at h
  by_cases hraw : inverseKinematics dh T = []
  · rw [if_pos hraw] at h
    cases h
  · rw [if_neg hraw] at h
    -- the nearest of the filtered list is in that list, and each entry there stems from a solution
    have hmem := List.argmin_mem (Except.ofOption_eq_ok.mp h)
    obtain ⟨sol, hsol, hq⟩ := List.mem_flatMap.mp hmem
    exact ⟨sol, hsol, turnsApart_of_expandTurns hq, hq⟩

/-- A pose looked up against `base_link` is resolved as it stands. -/
theorem resolve_pose_ok {values q seed : Joints ℝ} {preferred : Option (Joints ℝ)} {index : Nat}
    (h : resolve (.pose values .urdfBaseLink) preferred dh limits .default seed index = .ok q) :
    ∃ sol ∈ inverseKinematics dh (poseFromArray values), TurnsApart sol q := by
  have hp := Except.mapError_eq_ok.mp h
  obtain ⟨sol, hsol, hq, -⟩ := resolvePose_ok hp
  exact ⟨sol, hsol, hq⟩

/-- A pose with a configuration inside the limits is resolved. -/
theorem resolvePose_isOk {T : Pose} {sol q : Joints ℝ} (seed : Joints ℝ) (index : Nat)
    (hsol : sol ∈ inverseKinematics dh T)
    (hq : q ∈ expandTurns sol limits.positionMin limits.positionMax) :
    ∃ q', resolvePose dh limits T seed index = .ok q' := by
  have hmem : q ∈ inverseKinematicsFiltered dh T limits.positionMin limits.positionMax :=
    List.mem_flatMap.mpr ⟨sol, hsol, hq⟩
  unfold resolvePose
  dsimp only
  rw [if_neg (List.ne_nil_of_mem hsol)]
  cases hn : selectNearest (inverseKinematicsFiltered dh T limits.positionMin
      limits.positionMax) seed with
  | none =>
      -- with a solution that has a turn in range the list is not empty, so a nearest one exists
      have hnil := List.argmin_eq_none.mp hn
      rw [hnil] at hmem
      cases hmem
  | some q' => exact ⟨q', rfl⟩

/-! ## One segment -/

theorem le_foldl_max {K : Type} [LinearOrder K] {xs : List K} {a x : K} (h : x = a ∨ x ∈ xs) :
    x ≤ xs.foldl max a := by
  induction xs generalizing a x with
  | nil =>
      rcases h with rfl | h
      · exact le_rfl
      · cases h
  | cons y ys ih =>
      have hmax : max a y ≤ ys.foldl max (max a y) := ih (.inl rfl)
      rcases h with rfl | h
      · exact (le_max_left x y).trans hmax
      · rcases List.mem_cons.mp h with rfl | h
        · exact (le_max_right a x).trans hmax
        · exact ih (.inr h)

section Speed

variable {K : Type} [Field K] [LinearOrder K] {dq : Joints K} {l : Limits K} {dmax : K}

/-- Bounded velocity and acceleration. -/
def Bounded (acc : WithTop K × WithTop K × Nat) : Prop := acc.1 ≠ ⊤ ∧ acc.2.1 ≠ ⊤

/-- A joint that moves bounds both. -/
theorem boundByJoint_bounded {acc : WithTop K × WithTop K × Nat} {i : Fin 6}
    (h : Bounded acc ∨ motionlessJoint < |dq i|) : Bounded (boundByJoint dq l dmax acc i) := by
  unfold boundByJoint
  dsimp only
  by_cases hm : |dq i| ≤ motionlessJoint
  · -- a joint at rest leaves the bounds as they were
    rw [if_pos hm]
    exact h.resolve_right (not_lt.mpr hm)
  · rw [if_neg hm]
    have hmin : min acc.2.1 ((l.accelerationMax i * (dmax / |dq i|) : K) : WithTop K) ≠ ⊤ := by
      intro htop
      exact WithTop.coe_ne_top (min_eq_top.mp htop).2
    by_cases hv : ((l.velocityMax i * (dmax / |dq i|) : K) : WithTop K) < acc.1
    · rw [if_pos hv]
      exact ⟨WithTop.coe_ne_top, hmin⟩
    · rw [if_neg hv]
      -- the velocity bound is kept here, so it is finite by what it was compared with
      refine ⟨?_, hmin⟩
      intro htop
      rw [htop] at hv
      exact hv (WithTop.coe_lt_top _)

theorem foldl_bounded {is : List (Fin 6)} {acc : WithTop K × WithTop K × Nat}
    (h : Bounded acc ∨ ∃ i ∈ is, motionlessJoint < |dq i|) :
    Bounded (is.foldl (boundByJoint dq l dmax) acc) := by
  -- either something has bounded the segment already or a joint that moves is still to come
  induction is generalizing acc with
  | nil =>
      rcases h with h | h
      · exact h
      · obtain ⟨i, hi, -⟩ := h
        cases hi
  | cons i is ih =>
      apply ih
      rcases h with h | h
      · exact .inl (boundByJoint_bounded (.inl h))
      · obtain ⟨j, hj, hm⟩ := h
        rcases List.mem_cons.mp hj with rfl | hj
        · exact .inl (boundByJoint_bounded (.inr hm))
        · exact .inr ⟨j, hj, hm⟩

/-- No joint moves further than the largest move. -/
theorem le_largestMove (dq : Joints K) (i : Fin 6) : |dq i| ≤ largestMove dq :=
  le_foldl_max (.inr (List.mem_ofFn.mpr ⟨i, rfl⟩))

/-- A displacement in which a joint moves has a speed. -/
theorem jointSegmentSpeed_isSome {i : Fin 6} (h : motionlessJoint < |dq i|) :
    ∃ s, jointSegmentSpeed dq l = some s := by
  have hmax : ¬ largestMove dq ≤ motionlessJoint := not_le.mpr (h.trans_le (le_largestMove dq i))
  -- finite bounds are what the last match of the source asks for
  have hb : Bounded ((List.finRange 6).foldl (boundByJoint dq l (largestMove dq)) (⊤, ⊤, 0)) :=
    foldl_bounded (.inr ⟨i, List.mem_finRange i, h⟩)
  unfold jointSegmentSpeed
  dsimp only
  rw [if_neg hmax]
  obtain ⟨v, hv⟩ := WithTop.ne_top_iff_exists.mp hb.1
  obtain ⟨a, ha⟩ := WithTop.ne_top_iff_exists.mp hb.2
  generalize (List.finRange 6).foldl (boundByJoint dq l (largestMove dq)) (⊤, ⊤, 0) = r at hv ha
  obtain ⟨r1, r2, j⟩ := r
  dsimp only at hv ha
  subst hv ha
  exact ⟨⟨v, a, j⟩, rfl⟩

end Speed

/-! ## Every waypoint -/

/-- Each waypoint has its own configuration. -/
theorem resolveWaypoints_get {wps : List PlanWaypoint} {i : Nat} {prev : Joints ℝ}
    {qs : List (Joints ℝ)} (h : resolveWaypoints dh limits frames i prev wps = .ok qs)
    {k : Nat} {wp : PlanWaypoint} (hk : wps[k]? = some wp) :
    ∃ q seed index, qs[k]? = some q
      ∧ resolve wp.target wp.preferredJointConfig dh limits frames seed index = .ok q := by
  induction wps generalizing i prev qs k with
  | nil => cases hk
  | cons p ps ih =>
      obtain ⟨q, hq, h'⟩ := Except.bind_eq_ok.mp h
      obtain ⟨qs', hqs, heq⟩ := Except.bind_eq_ok.mp h'
      cases heq
      cases k with
      | zero =>
          cases hk
          exact ⟨q, _, _, rfl, hq⟩
      -- the waypoint before is the seed of the next one, which the statement leaves open
      | succ k => exact ih hqs hk

theorem resolveWaypoints_length {wps : List PlanWaypoint} {i : Nat} {prev : Joints ℝ}
    {qs : List (Joints ℝ)} (h : resolveWaypoints dh limits frames i prev wps = .ok qs) :
    qs.length = wps.length := by
  induction wps generalizing i prev qs with
  | nil => cases h; rfl
  | cons p ps ih =>
      obtain ⟨q, -, h'⟩ := Except.bind_eq_ok.mp h
      obtain ⟨qs', hqs, heq⟩ := Except.bind_eq_ok.mp h'
      cases heq
      rw [List.length_cons, List.length_cons, ih hqs]

/-- Timing a segment leaves its end alone. -/
theorem planSegment_positions {speed : ℝ} {i : Nat} {wp : PlanWaypoint} {fromQ toQ : Joints ℝ}
    {s : Segment} (h : planSegment dh limits speed i wp fromQ toQ = .ok s) :
    s.planned.jointPositions = toQ := by
  obtain ⟨v, -, heq⟩ := Except.bind_eq_ok.mp h
  cases heq
  rfl

theorem planSegments_positions {speed : ℝ} {pairs : List (PlanWaypoint × Joints ℝ)} {i : Nat}
    {fromQ : Joints ℝ} {ss : List Segment}
    (h : planSegments dh limits speed i fromQ pairs = .ok ss) :
    ss.map (fun s => s.planned.jointPositions) = pairs.map Prod.snd := by
  induction pairs generalizing i fromQ ss with
  | nil => cases h; rfl
  | cons p ps ih =>
      obtain ⟨wp, toQ⟩ := p
      obtain ⟨s, hs, h'⟩ := Except.bind_eq_ok.mp h
      obtain ⟨ss', hss, heq⟩ := Except.bind_eq_ok.mp h'
      cases heq
      rw [List.map_cons, List.map_cons, planSegment_positions hs, ih hss]

/-- Each segment is planned from the configuration before it. -/
theorem planSegments_get {speed : ℝ} {pairs : List (PlanWaypoint × Joints ℝ)} {i : Nat}
    {fromQ : Joints ℝ} {ss : List Segment}
    (h : planSegments dh limits speed i fromQ pairs = .ok ss) {k : Nat} {wp : PlanWaypoint}
    {toQ : Joints ℝ} (hk : pairs[k]? = some (wp, toQ)) :
    ∃ q index s, (fromQ :: pairs.map Prod.snd)[k]? = some q
      ∧ planSegment dh limits speed index wp q toQ = .ok s := by
  induction pairs generalizing i fromQ ss k with
  | nil => cases hk
  | cons p ps ih =>
      obtain ⟨wp', q⟩ := p
      obtain ⟨s, hs, h'⟩ := Except.bind_eq_ok.mp h
      obtain ⟨ss', hss, -⟩ := Except.bind_eq_ok.mp h'
      cases k with
      | zero =>
          -- the first segment starts where the route does, each later one where the last has ended
          cases hk
          exact ⟨fromQ, i, s, rfl, hs⟩
      | succ k => exact ih hss hk

/-- Blending the corners leaves the waypoints where they are. -/
theorem blendCorners_positions {deviation : ℝ} {wps : List PlanWaypoint}
    {ws : List PlannedWaypoint} {i : Nat} {p : Vec3} :
    (blendCorners dh deviation i p wps ws).1.map PlannedWaypoint.jointPositions
      = ws.map PlannedWaypoint.jointPositions := by
  induction wps generalizing i p ws with
  | nil => rfl
  | cons wp wps ih =>
      cases ws with
      | nil => rfl
      | cons w ws =>
          cases ws with
          | nil => rfl
          | cons w' ws =>
              have hrest := @ih (w' :: ws) (i + 1) (flangePoint dh w.jointPositions)
              unfold blendCorners
              dsimp only
              -- both branches of the corner change the blend radius alone
              split
              · rw [List.map_cons, hrest]
                rfl
              · rw [List.map_cons, hrest]
                rfl

/-! ## The whole plan -/

/-- The stages of a plan. -/
theorem plan_stages {src : LimitSource} {request : PlanRequest} {traj : PlannedTrajectory}
    (h : plan src request = .ok traj) :
    ∃ dh modelled configs segments, DhParameters.forModel request.robotModel = some dh
      ∧ modelLimits src request.robotModel = .ok modelled
      ∧ traj.limits = (request.accelerationMax.elim modelled modelled.withAcceleration).scaled
          request.scaling
      ∧ resolve request.start none dh traj.limits request.frameConfig 0 0
          = .ok traj.startJointPositions
      ∧ resolveWaypoints dh traj.limits request.frameConfig 0 traj.startJointPositions
          request.waypoints = .ok configs
      ∧ planSegments dh traj.limits request.maxCartesianSpeed 0 traj.startJointPositions
          (request.waypoints.zip configs) = .ok segments
      ∧ traj.waypoints = (blendCorners dh request.maxPathDeviation 0
          (flangePoint dh traj.startJointPositions) request.waypoints
          (segments.map Segment.planned)).1
      ∧ traj.durationEstimate = (segments.map Segment.duration).sum := by
  obtain ⟨dh, hdh, h⟩ := Except.bind_eq_ok.mp h
  obtain ⟨_, -, h⟩ := Except.bind_eq_ok.mp h
  obtain ⟨_, -, h⟩ := Except.bind_eq_ok.mp h
  obtain ⟨modelled, hmodelled, h⟩ := Except.bind_eq_ok.mp h
  obtain ⟨startQ, hstart, h⟩ := Except.bind_eq_ok.mp h
  obtain ⟨configs, hconfigs, h⟩ := Except.bind_eq_ok.mp h
  obtain ⟨segments, hsegments, h⟩ := Except.bind_eq_ok.mp h
  cases h
  exact ⟨dh, modelled, configs, segments, Except.ofOption_eq_ok.mp hdh, hmodelled, rfl, hstart,
    hconfigs, hsegments, rfl, rfl⟩

/-- The segments of a path end where its waypoints are. -/
theorem segments_positions {speed : ℝ} {startQ : Joints ℝ} {wps : List PlanWaypoint}
    {configs : List (Joints ℝ)} {segments : List Segment} (hlen : configs.length = wps.length)
    (hsegments : planSegments dh limits speed 0 startQ (wps.zip configs) = .ok segments) :
    (segments.map Segment.planned).map PlannedWaypoint.jointPositions = configs := by
  rw [List.map_map]
  exact (planSegments_positions hsegments).trans (List.map_snd_zip hlen.le)

/-- The waypoints of a plan are the configurations its targets were resolved to. -/
theorem plan_ok {src : LimitSource} {request : PlanRequest} {traj : PlannedTrajectory}
    (h : plan src request = .ok traj) :
    ∃ dh limits startQ configs, DhParameters.forModel request.robotModel = some dh
      ∧ resolveWaypoints dh limits request.frameConfig 0 startQ request.waypoints = .ok configs
      ∧ traj.waypoints.map PlannedWaypoint.jointPositions = configs := by
  obtain ⟨dh, modelled, configs, segments, hdh, -, -, -, hconfigs, hsegments, hwaypoints, -⟩ :=
    plan_stages h
  refine ⟨dh, _, _, configs, hdh, hconfigs, ?_⟩
  rw [hwaypoints, blendCorners_positions]
  exact segments_positions (resolveWaypoints_length hconfigs) hsegments

/-- A request is planned if every stage of its planning succeeds. -/
theorem plan_isOk {src : LimitSource} (request : PlanRequest) {modelled : Limits ℝ}
    {startQ : Joints ℝ} {configs : List (Joints ℝ)} {segments : List Segment}
    (hdh : DhParameters.forModel request.robotModel = some dh)
    (hne : request.waypoints ≠ []) (hlen : request.waypoints.length ≤ maxWaypoints)
    (hmodel : modelLimits src request.robotModel = .ok modelled)
    (hlimits : limits
      = (request.accelerationMax.elim modelled modelled.withAcceleration).scaled request.scaling)
    (hstart : resolve request.start none dh limits request.frameConfig 0 0 = .ok startQ)
    (hconfigs : resolveWaypoints dh limits request.frameConfig 0 startQ request.waypoints
      = .ok configs)
    (hsegments : planSegments dh limits request.maxCartesianSpeed 0 startQ
      (request.waypoints.zip configs) = .ok segments) :
    ∃ traj, plan src request = .ok traj ∧ traj.limits = limits
      ∧ traj.startJointPositions = startQ
      ∧ traj.waypoints.map PlannedWaypoint.jointPositions = configs := by
  subst hlimits
  let base := request.accelerationMax.elim modelled modelled.withAcceleration
  let blended := blendCorners dh request.maxPathDeviation 0 (flangePoint dh startQ)
    request.waypoints (segments.map Segment.planned)
  let traj : PlannedTrajectory :=
    { robotModel := request.robotModel
      startJointPositions := startQ
      waypoints := blended.1
      durationEstimate := (segments.map Segment.duration).sum
      limits := base.scaled request.scaling
      warnings := segments.flatMap Segment.warnings ++ blended.2 }
  -- the checks and stages of `plan`, one by one in its order
  refine ⟨traj, Except.bind_eq_ok.mpr ⟨dh, Except.ofOption_eq_ok.mpr hdh, ?_⟩, rfl, rfl, ?_⟩
  · refine Except.bind_eq_ok.mpr ⟨(), Except.require_eq_ok.mpr hne, ?_⟩
    refine Except.bind_eq_ok.mpr ⟨(), Except.require_eq_ok.mpr hlen, ?_⟩
    refine Except.bind_eq_ok.mpr ⟨modelled, hmodel, ?_⟩
    refine Except.bind_eq_ok.mpr ⟨startQ, hstart, ?_⟩
    refine Except.bind_eq_ok.mpr ⟨configs, hconfigs, ?_⟩
    exact Except.bind_eq_ok.mpr ⟨segments, hsegments, rfl⟩
  · show blended.1.map PlannedWaypoint.jointPositions = configs
    rw [blendCorners_positions]
    exact segments_positions (resolveWaypoints_length hconfigs) hsegments

/-- A request for one waypoint. -/
theorem plan_single {src : LimitSource} (request : PlanRequest) {modelled : Limits ℝ}
    {wp : PlanWaypoint} {fromQ toQ : Joints ℝ} {s : Segment}
    (hdh : DhParameters.forModel request.robotModel = some dh)
    (hwp : request.waypoints = [wp])
    (hmodel : modelLimits src request.robotModel = .ok modelled)
    (hlimits : limits
      = (request.accelerationMax.elim modelled modelled.withAcceleration).scaled request.scaling)
    (hfrom : resolve request.start none dh limits request.frameConfig 0 0 = .ok fromQ)
    (hto : resolve wp.target wp.preferredJointConfig dh limits request.frameConfig
      (wp.preferredJointConfig.getD fromQ) 1 = .ok toQ)
    (hsegment : planSegment dh limits request.maxCartesianSpeed 0 wp fromQ toQ = .ok s) :
    ∃ traj, plan src request = .ok traj ∧ traj.limits = limits
      ∧ traj.startJointPositions = fromQ
      ∧ traj.waypoints.map PlannedWaypoint.jointPositions = [toQ] := by
  have hconfigs : resolveWaypoints dh limits request.frameConfig 0 fromQ request.waypoints
      = .ok [toQ] := by
    rw [hwp]
    exact Except.bind_eq_ok.mpr ⟨toQ, hto, rfl⟩
  have hsegments : planSegments dh limits request.maxCartesianSpeed 0 fromQ
      (request.waypoints.zip [toQ]) = .ok [s] := by
    rw [hwp]
    exact Except.bind_eq_ok.mpr ⟨s, hsegment, rfl⟩
  have hlen : request.waypoints.length ≤ maxWaypoints := by
    rw [hwp]
    show 1 ≤ 400
    decide
  exact plan_isOk request hdh (by rw [hwp]; exact List.cons_ne_nil _ _) hlen hmodel hlimits hfrom
    hconfigs hsegments

/-! ## The waypoints of a request -/

/-- Each waypoint of a request becomes a waypoint of the planning problem. -/
theorem planWaypoints_get {env : PlannerEnv} {wps : List (Waypoint ℝ)} {index : Nat}
    {ps : List PlanWaypoint} (h : env.planWaypoints index wps = .ok ps)
    {k : Nat} {wp : Waypoint ℝ} (hk : wps[k]? = some wp) :
    ∃ p j, ps[k]? = some p ∧ env.planWaypoint j wp = .ok p := by
  induction wps generalizing index ps k with
  | nil => cases hk
  | cons w ws ih =>
      obtain ⟨p, hp, h'⟩ := Except.bind_eq_ok.mp h
      obtain ⟨ps', hps, heq⟩ := Except.bind_eq_ok.mp h'
      cases heq
      cases k with
      | zero =>
          -- the index counts along, so which one this waypoint was prepared under is not said
          cases hk
          exact ⟨p, index, rfl, hp⟩
      | succ k => exact ih hps hk

/-- A waypoint given as a pose is a target looked up against `base_link`. -/
theorem planWaypoint_pose {env : PlannerEnv} {index : Nat} {wp : Waypoint ℝ} {p : PlanWaypoint}
    {v : Joints ℝ} (h : env.planWaypoint index wp = .ok p) (hpose : wp.useJointPositions = false)
    (hv : parsePoseString env.numbers wp.targetInBase = .ok v) :
    p.target = .pose v .urdfBaseLink := by
  obtain ⟨target, ht, h'⟩ := Except.bind_eq_ok.mp h
  obtain ⟨preferred, -, heq⟩ := Except.bind_eq_ok.mp h'
  cases heq
  unfold PlannerEnv.waypointTarget at ht
  rw [hpose, hv] at ht
  cases ht
  rfl

end

end UrRedisDriver.Proof
