import UrRedisDriver.Proof.Tool

/-!
# The waypoints a plan emits

Where a request leads is decided before any speed is: by the model, the position limits and
the targets, and by no scaling. Each waypoint emitted is then the end of one segment between
two configurations of that route, with a blend that looks one segment further.
-/

namespace UrRedisDriver.Proof

open UrRedisDriver
open scoped Literals

noncomputable section

variable {src : LimitSource} {request : PlanRequest} {traj : PlannedTrajectory}
  {dh : DhParameters} {base limits : Limits ℝ} {qs : List (Joints ℝ)}

/-- The start of a plan and the configurations it emits. -/
def configs (traj : PlannedTrajectory) : List (Joints ℝ) :=
  traj.startJointPositions :: traj.waypoints.map PlannedWaypoint.jointPositions

/-! ## Where a request leads -/

/-- The arm of a request, its limits before scaling, and the configurations from the start to
the last waypoint. -/
structure Route (src : LimitSource) (request : PlanRequest) (dh : DhParameters)
    (base : Limits ℝ) (qs : List (Joints ℝ)) : Prop where
  model : DhParameters.forModel request.robotModel = some dh
  limits : ∃ modelled, modelLimits src request.robotModel = .ok modelled
    ∧ base = request.accelerationMax.elim modelled modelled.withAcceleration
  resolved : ∃ startQ rest, qs = startQ :: rest
    ∧ resolve request.start none dh base request.frameConfig 0 0 = .ok startQ
    ∧ resolveWaypoints dh base request.frameConfig 0 startQ request.waypoints = .ok rest

/-! Scaled limits are the same where they bound positions. -/

theorem resolveWaypoints_scaled (s : PlanScaling ℝ) (frames : FrameConfig) (i : Nat)
    (q : Joints ℝ) (wps : List PlanWaypoint) :
    resolveWaypoints dh (limits.scaled s) frames i q wps
      = resolveWaypoints dh limits frames i q wps := by
  induction wps generalizing i q with
  | nil => rfl
  | cons wp wps ih =>
      unfold resolveWaypoints
      simp only [ih]
      rfl

theorem followLine_scaled (s : PlanScaling ℝ) (a b : Pose) (count todo k : Nat)
    (q : Joints ℝ) :
    followLine dh (limits.scaled s) a b count todo k q
      = followLine dh limits a b count todo k q := by
  induction todo generalizing k q with
  | zero => rfl
  | succ todo ih =>
      unfold followLine
      simp only [ih]
      rfl

theorem sampleLinearSegment_scaled (s : PlanScaling ℝ) (fromQ : Joints ℝ) (toPose : Pose)
    (step : ℝ) (maxSamples : Nat) :
    sampleLinearSegment dh (limits.scaled s) fromQ toPose step maxSamples
      = sampleLinearSegment dh limits fromQ toPose step maxSamples := by
  unfold sampleLinearSegment
  dsimp only
  rw [followLine_scaled]

/-- A request leads along one route. -/
theorem Route.unique {dh' : DhParameters} {base' : Limits ℝ} {qs' : List (Joints ℝ)}
    (h : Route src request dh base qs) (h' : Route src request dh' base' qs') :
    dh = dh' ∧ base = base' ∧ qs = qs' := by
  obtain ⟨hdh, ⟨m, hm, hbase⟩, startQ, rest, hqs, hstart, hrest⟩ := h
  obtain ⟨hdh', ⟨m', hm', hbase'⟩, startQ', rest', hqs', hstart', hrest'⟩ := h'
  -- stage by stage: each is a function of the request and of the stages before
  rw [hdh] at hdh'
  cases hdh'
  rw [hm] at hm'
  cases hm'
  rw [← hbase] at hbase'
  subst hbase'
  rw [hstart] at hstart'
  cases hstart'
  rw [hrest] at hrest'
  cases hrest'
  exact ⟨rfl, rfl, hqs.trans hqs'.symm⟩

/-- Scaling a request leads nowhere else. -/
theorem Route.scaling (h : Route src request dh base qs) (s : PlanScaling ℝ) :
    Route src { request with scaling := s } dh base qs := ⟨h.model, h.limits, h.resolved⟩

theorem Route.of_scaling {s : PlanScaling ℝ}
    (h : Route src { request with scaling := s } dh base qs) : Route src request dh base qs :=
  ⟨h.model, h.limits, h.resolved⟩

theorem Route.length (h : Route src request dh base qs) :
    qs.length = request.waypoints.length + 1 := by
  obtain ⟨startQ, rest, hqs, -, hrest⟩ := h.resolved
  rw [hqs, List.length_cons, resolveWaypoints_length hrest]

/-! A description that is read bounds every velocity above zero. -/

theorem UrdfJoint.limit_pos {path name : String} {joints : List UrdfJoint} {l : ℝ × ℝ × ℝ}
    (h : UrdfJoint.limit path joints name = .ok l) : 0 < l.2.2 := by
  obtain ⟨j, -, h⟩ := Except.bind_eq_ok.mp h
  obtain ⟨_, hpos, h⟩ := Except.bind_eq_ok.mp h
  have hv := Except.require_eq_ok.mp hpos
  split at h
  · cases h
    exact hv
  · cases h
    exact hv

theorem LimitSource.read_pos {path : String} {l : Limits ℝ} (h : src.read path = some l)
    (i : Fin 6) : 0 < l.velocityMax i ∧ 0 < l.accelerationMax i := by
  unfold LimitSource.read at h
  split at h
  · rename_i l' hread
    cases h
    obtain ⟨joints, -, hread⟩ := Except.bind_eq_ok.mp hread
    obtain ⟨ls, hls, hread⟩ := Except.bind_eq_ok.mp hread
    cases hread
    have hv := UrdfJoint.limit_pos (Joints.sequence_ok.mp hls i)
    exact ⟨hv, div_pos hv (by norm_num [rampTimeS])⟩
  · cases h

theorem modelLimits_pos {model : String} {l : Limits ℝ} (h : modelLimits src model = .ok l)
    (i : Fin 6) : 0 < l.velocityMax i ∧ 0 < l.accelerationMax i := by
  rcases Option.or_eq_some_iff.mp (Except.ofOption_eq_ok.mp h) with h | ⟨-, h⟩
  · exact LimitSource.read_pos h i
  · obtain ⟨dir, -, h⟩ := Option.bind_eq_some_iff.mp h
    exact LimitSource.read_pos h i

theorem Route.velocity_pos (h : Route src request dh base qs) (i : Fin 6) :
    0 < base.velocityMax i := by
  obtain ⟨modelled, hmodelled, rfl⟩ := h.limits
  have hpos := (modelLimits_pos hmodelled i).1
  cases request.accelerationMax <;> exact hpos

/-- One leg of a route: a waypoint asked for, the configurations it lies between, and the one
after it. -/
structure Leg where
  index : Nat
  wp : PlanWaypoint
  fromQ : Joints ℝ
  toQ : Joints ℝ
  after : Option (Joints ℝ)

/-- A leg of the route of a request. -/
structure OnRoute (src : LimitSource) (request : PlanRequest) (dh : DhParameters)
    (base : Limits ℝ) (leg : Leg) : Prop where
  route : ∃ qs, Route src request dh base qs ∧ qs[leg.index]? = some leg.fromQ
    ∧ qs[leg.index + 1]? = some leg.toQ ∧ qs[leg.index + 2]? = leg.after
  asked : request.waypoints[leg.index]? = some leg.wp

/-- A leg is decided by where it stands in the request. -/
theorem OnRoute.unique {dh' : DhParameters} {base' : Limits ℝ} {leg leg' : Leg}
    (h : OnRoute src request dh base leg) (h' : OnRoute src request dh' base' leg')
    (hindex : leg.index = leg'.index) : dh = dh' ∧ base = base' ∧ leg = leg' := by
  obtain ⟨⟨qs, hroute, hfrom, hto, hafter⟩, hwp⟩ := h
  obtain ⟨⟨qs', hroute', hfrom', hto', hafter'⟩, hwp'⟩ := h'
  obtain ⟨rfl, rfl, rfl⟩ := hroute.unique hroute'
  obtain ⟨k, wp, fromQ, toQ, after⟩ := leg
  obtain ⟨k', wp', fromQ', toQ', after'⟩ := leg'
  dsimp only at *
  subst hindex
  rw [hwp] at hwp'
  cases hwp'
  rw [hfrom] at hfrom'
  cases hfrom'
  rw [hto] at hto'
  cases hto'
  exact ⟨rfl, rfl, by rw [← hafter, hafter']⟩

theorem OnRoute.velocity_pos {leg : Leg} (h : OnRoute src request dh base leg) (i : Fin 6) :
    0 < base.velocityMax i := by
  obtain ⟨⟨qs, hroute, -⟩, -⟩ := h
  exact hroute.velocity_pos i

theorem OnRoute.scaling {leg : Leg} (h : OnRoute src request dh base leg)
    (s : PlanScaling ℝ) : OnRoute src { request with scaling := s } dh base leg := by
  obtain ⟨⟨qs, hroute, hqs⟩, hwp⟩ := h
  exact ⟨⟨qs, hroute.scaling s, hqs⟩, hwp⟩

theorem OnRoute.of_scaling {s : PlanScaling ℝ} {leg : Leg}
    (h : OnRoute src { request with scaling := s } dh base leg) :
    OnRoute src request dh base leg := by
  obtain ⟨⟨qs, hroute, hqs⟩, hwp⟩ := h
  exact ⟨⟨qs, hroute.of_scaling, hqs⟩, hwp⟩

/-! ## What is emitted -/

/-- The radius at a corner, none where an adjacent segment has no length. -/
def cornerRadius (maxPathDeviation : ℝ) (cap : Option ℝ) (p0 p1 p2 : Vec3) : ℝ :=
  (cornerDeflection p0 p1 p2).elim 0 fun deflection =>
    blendRadius deflection (Vec3.norm (p1 - p0)) (Vec3.norm (p2 - p1)) maxPathDeviation cap

/-- The radius at a waypoint: without a configuration after it there is no corner. -/
def radiusBefore (dh : DhParameters) (maxPathDeviation : ℝ) (cap : Option ℝ)
    (fromQ toQ : Joints ℝ) (after : Option (Joints ℝ)) : ℝ :=
  after.elim 0 fun next =>
    cornerRadius maxPathDeviation cap (flangePoint dh fromQ) (flangePoint dh toQ)
      (flangePoint dh next)

theorem cornerBlend_eq (deviation : ℝ) (i : Nat) (cap : Option ℝ) (p0 p1 p2 : Vec3) :
    (cornerBlend deviation i cap p0 p1 p2).elim 0 Prod.fst = cornerRadius deviation cap p0 p1 p2 := by
  unfold cornerBlend cornerRadius
  cases cornerDeflection p0 p1 p2 <;> rfl

/-- Blending sets the radius of each waypoint and nothing else. -/
theorem blendCorners_get (dh : DhParameters) (deviation : ℝ) (i : Nat) {wps : List PlanWaypoint}
    {ws : List PlannedWaypoint} {q : Joints ℝ} (hlen : ws.length = wps.length)
    (hzero : ∀ w ∈ ws, w.blendRadius = 0) {k : Nat} {wp : PlanWaypoint} {w : PlannedWaypoint}
    {fromQ : Joints ℝ} (hwp : wps[k]? = some wp) (hw : ws[k]? = some w)
    (hfrom : (q :: ws.map PlannedWaypoint.jointPositions)[k]? = some fromQ) :
    (blendCorners dh deviation i (flangePoint dh q) wps ws).1[k]?
      = some { w with
          blendRadius := radiusBefore dh deviation wp.blendRadius fromQ w.jointPositions
            ((ws.map PlannedWaypoint.jointPositions)[k + 1]?) } := by
  induction wps generalizing ws i q k with
  | nil => cases hwp
  | cons p ps ih =>
      cases ws with
      | nil => cases hw
      | cons v vs =>
          have htail : vs.length = ps.length := by simpa using hlen
          have hv : v.blendRadius = 0 := hzero v List.mem_cons_self
          cases vs with
          | nil =>
              -- the last waypoint keeps the radius it came with
              cases k with
              | zero =>
                  cases hw
                  unfold blendCorners
                  obtain ⟨jointPositions, velocity, acceleration, radius, linear, joint⟩ := w
                  cases hv
                  rfl
              | succ k => cases hw
          | cons v' vs =>
              have hrest : ∀ w ∈ v' :: vs, w.blendRadius = 0 :=
                fun w hmem => hzero w (List.mem_cons_of_mem _ hmem)
              unfold blendCorners
              dsimp only
              cases k with
              | zero =>
                  cases hwp
                  cases hw
                  cases hfrom
                  have hcorner := cornerBlend_eq deviation i wp.blendRadius (flangePoint dh fromQ)
                    (flangePoint dh w.jointPositions) (flangePoint dh v'.jointPositions)
                  split
                  · rename_i hnone
                    rw [hnone] at hcorner
                    have hradius : radiusBefore dh deviation wp.blendRadius fromQ w.jointPositions
                        ((List.map PlannedWaypoint.jointPositions (w :: v' :: vs))[0 + 1]?) = 0 :=
                      hcorner.symm
                    rw [hradius, ← hv]
                    rfl
                  · rename_i r said hsome
                    rw [hsome] at hcorner
                    show some { w with blendRadius := r } = _
                    rw [show r = cornerRadius deviation wp.blendRadius (flangePoint dh fromQ)
                      (flangePoint dh w.jointPositions) (flangePoint dh v'.jointPositions)
                      from hcorner]
                    rfl
              | succ k =>
                  have hnext := ih (i + 1) htail hrest hwp hw hfrom
                  split
                  · exact hnext
                  · exact hnext

/-- The waypoint emitted for a leg. -/
structure Emitted (dh : DhParameters) (limits : Limits ℝ) (request : PlanRequest) (leg : Leg)
    (w : PlannedWaypoint) : Prop where
  positions : w.jointPositions = leg.toQ
  linear : w.useLinearMotion = decide (leg.wp.interpolation = .linear)
  blend : w.blendRadius
    = radiusBefore dh request.maxPathDeviation leg.wp.blendRadius leg.fromQ leg.toQ leg.after
  speed : ∃ v, segmentSpeed dh limits request.maxCartesianSpeed leg.index leg.wp.interpolation
    leg.fromQ leg.toQ = .ok v ∧ w.velocity = v.velocity ∧ w.acceleration = v.acceleration

/-- Each segment is planned between the configurations it lies between. -/
theorem planSegments_at {speed : ℝ} {pairs : List (PlanWaypoint × Joints ℝ)} {i : Nat}
    {q : Joints ℝ} {ss : List Segment}
    (h : planSegments dh limits speed i q pairs = .ok ss) {k : Nat} {wp : PlanWaypoint}
    {fromQ toQ : Joints ℝ} (hk : pairs[k]? = some (wp, toQ))
    (hfrom : (q :: pairs.map Prod.snd)[k]? = some fromQ) :
    ∃ s, ss[k]? = some s ∧ planSegment dh limits speed (i + k) wp fromQ toQ = .ok s := by
  induction pairs generalizing i q ss k with
  | nil => cases hk
  | cons p ps ih =>
      obtain ⟨wp', q'⟩ := p
      obtain ⟨s, hs, h'⟩ := Except.bind_eq_ok.mp h
      obtain ⟨ss', hss, heq⟩ := Except.bind_eq_ok.mp h'
      cases heq
      cases k with
      | zero =>
          cases hk
          cases hfrom
          exact ⟨s, rfl, hs⟩
      | succ k =>
          obtain ⟨s', hs', hplan⟩ := ih hss hk hfrom
          rw [Nat.add_right_comm, Nat.add_assoc] at hplan
          exact ⟨s', hs', hplan⟩

/-- A segment comes without a blend: that is filled in once the next one is known. -/
theorem planSegments_unblended {speed : ℝ} {pairs : List (PlanWaypoint × Joints ℝ)} {i : Nat}
    {q : Joints ℝ} {ss : List Segment} (h : planSegments dh limits speed i q pairs = .ok ss) :
    ∀ w ∈ ss.map Segment.planned, w.blendRadius = 0 := by
  induction pairs generalizing i q ss with
  | nil =>
      cases h
      intro w hw
      cases hw
  | cons p ps ih =>
      obtain ⟨wp, q'⟩ := p
      obtain ⟨s, hs, h'⟩ := Except.bind_eq_ok.mp h
      obtain ⟨ss', hss, heq⟩ := Except.bind_eq_ok.mp h'
      cases heq
      obtain ⟨v, -, heq⟩ := Except.bind_eq_ok.mp hs
      cases heq
      intro w hw
      rcases List.mem_cons.mp hw with rfl | hw
      · -- a segment is planned to stop at its end: blending is decided afterwards, corner by
        -- corner
        rfl
      · exact ih hss w hw

/-- A plan follows the route of its request. -/
theorem plan_route (h : plan src request = .ok traj) :
    ∃ dh base, Route src request dh base (configs traj)
      ∧ traj.waypoints.length = request.waypoints.length := by
  obtain ⟨dh, modelled, rest, segments, hdh, hmodelled, hlimits, hstart, hrest, hsegments,
    hwaypoints, -⟩ := plan_stages h
  rw [hlimits] at hstart hrest hsegments
  rw [resolveWaypoints_scaled] at hrest
  have hlen := resolveWaypoints_length hrest
  have hconfigs : configs traj = traj.startJointPositions :: rest := by
    rw [configs, hwaypoints, blendCorners_positions, segments_positions hlen hsegments]
  refine ⟨dh, _, ⟨hdh, ⟨modelled, hmodelled, rfl⟩, _, rest, hconfigs, hstart, hrest⟩, ?_⟩
  have hcount := congrArg List.length hconfigs
  rw [configs, List.length_cons, List.length_map, List.length_cons, hlen] at hcount
  omega

/-- It emits a waypoint for each leg of it, in order. -/
theorem plan_leg {leg : Leg} (h : plan src request = .ok traj)
    (hleg : OnRoute src request dh base leg) :
    ∃ w, traj.waypoints[leg.index]? = some w
      ∧ Emitted dh (base.scaled request.scaling) request leg w := by
  obtain ⟨dh', base', hroute', -⟩ := plan_route h
  obtain ⟨⟨qs, hroute, hfrom, hto, hafter⟩, hwp⟩ := hleg
  obtain ⟨rfl, rfl, rfl⟩ := hroute.unique hroute'
  obtain ⟨dh', modelled, rest, segments, hdh, hmodelled, hlimits, -, hrest, hsegments,
    hwaypoints, -⟩ := plan_stages h
  have hlen := resolveWaypoints_length hrest
  have hpos := segments_positions hlen hsegments
  have hconfigs : configs traj = traj.startJointPositions :: rest := by
    rw [configs, hwaypoints, blendCorners_positions, hpos]
  rw [hconfigs] at hfrom hto hafter
  have hdh' := hdh
  rw [hroute.model] at hdh'
  cases hdh'
  -- the limits that `plan` scales are those of the route
  have hbase : base.scaled request.scaling = traj.limits := by
    obtain ⟨modelled', hmodelled', hbase⟩ := hroute.limits
    rw [hmodelled] at hmodelled'
    cases hmodelled'
    rw [hlimits, hbase]
  have hends : (request.waypoints.zip rest).map Prod.snd = rest := List.map_snd_zip hlen.le
  obtain ⟨s, hs, hplan⟩ := planSegments_at hsegments
    (List.getElem?_zip_eq_some.mpr ⟨hwp, hto⟩) (by rw [hends]; exact hfrom)
  obtain ⟨v, hv, heq⟩ := Except.bind_eq_ok.mp hplan
  rw [Nat.zero_add] at hv
  cases heq
  have hplanned := congrArg (Option.map Segment.planned) hs
  rw [← List.getElem?_map, Option.map_some] at hplanned
  have hcount : (segments.map Segment.planned).length = request.waypoints.length := by
    have hcount := congrArg List.length hpos
    rw [List.length_map] at hcount
    omega
  -- the corner at the end of the leg is what sets its radius
  have hget := blendCorners_get dh request.maxPathDeviation 0 hcount
    (planSegments_unblended hsegments) hwp hplanned (by rw [hpos]; exact hfrom)
  rw [hpos, ← hwaypoints, List.getElem?_cons_succ.symm.trans hafter] at hget
  exact ⟨_, hget, rfl, rfl, rfl, v, by rw [hbase]; exact hv, rfl, rfl⟩

/-- And it emits none but those. -/
theorem plan_waypoint (h : plan src request = .ok traj) {k : Nat} {w : PlannedWaypoint}
    (hw : traj.waypoints[k]? = some w) :
    ∃ dh base leg, OnRoute src request dh base leg ∧ leg.index = k
      ∧ (configs traj)[k]? = some leg.fromQ ∧ (configs traj)[k + 1]? = some leg.toQ
      ∧ (configs traj)[k + 2]? = leg.after
      ∧ Emitted dh (base.scaled request.scaling) request leg w := by
  obtain ⟨dh, base, hroute, hlen⟩ := plan_route h
  have hk : k < traj.waypoints.length := (List.getElem?_eq_some_iff.mp hw).1
  have hto : (configs traj)[k + 1]? = some w.jointPositions := by
    rw [configs, List.getElem?_cons_succ, List.getElem?_map, hw]
    rfl
  obtain ⟨wp, hwp⟩ : ∃ wp, request.waypoints[k]? = some wp :=
    ⟨_, List.getElem?_eq_getElem (hlen ▸ hk)⟩
  obtain ⟨fromQ, hfrom⟩ : ∃ fromQ, (configs traj)[k]? = some fromQ := by
    have hlt : k < (configs traj).length := by
      rw [configs, List.length_cons, List.length_map]
      omega
    exact ⟨_, List.getElem?_eq_getElem hlt⟩
  -- the leg is read off the configurations before, at and after the waypoint
  let leg : Leg := ⟨k, wp, fromQ, w.jointPositions, (configs traj)[k + 2]?⟩
  have hleg : OnRoute src request dh base leg := ⟨⟨_, hroute, hfrom, hto, rfl⟩, hwp⟩
  obtain ⟨w', hw', he⟩ := plan_leg h hleg
  rw [show leg.index = k from rfl, hw] at hw'
  cases hw'
  exact ⟨dh, base, leg, hleg, rfl, hfrom, hto, rfl, he⟩

/-! ## Paths of joint moves -/

/-- A `movej` to a configuration. -/
def jointMove (q : Joints ℝ) : PlanWaypoint := ⟨.joints q, none, none, .joint⟩

/-- A `movej` to a configuration, whatever the bound on its blend. -/
structure JointMove (wp : PlanWaypoint) (q : Joints ℝ) : Prop where
  target : wp.target = .joints q
  interpolation : wp.interpolation = .joint

theorem jointMoves (qs : List (Joints ℝ)) : List.Forall₂ JointMove (qs.map jointMove) qs :=
  List.forall₂_map_left_iff.mpr (List.forall₂_same.mpr fun _ _ => ⟨rfl, rfl⟩)

/-- A configuration inside the limits. -/
def Inside (limits : Limits ℝ) (q : Joints ℝ) : Prop :=
  ∀ i, limits.positionMin i ≤ q i ∧ q i ≤ limits.positionMax i

/-- Neither given accelerations nor scaling touch the positions. -/
theorem Inside.scaled {q : Joints ℝ} (h : Inside limits q) (a : Option (Joints ℝ))
    (s : PlanScaling ℝ) : Inside ((a.elim limits limits.withAcceleration).scaled s) q := by
  cases a <;> exact h

/-- Some joint moves on the way from one configuration to another. -/
def Moves (q q' : Joints ℝ) : Prop := ∃ i, motionlessJoint < |jointDelta q q' i|

theorem resolve_joints {frames : FrameConfig} {preferred : Option (Joints ℝ)} {q seed : Joints ℝ}
    {index : Nat} (h : Inside limits q) :
    resolve (.joints q) preferred dh limits frames seed index = .ok q :=
  Except.bind_eq_ok.mpr ⟨(), Except.mapError_eq_ok.mpr (checkConfiguration_ok h), rfl⟩

theorem resolveWaypoints_joints {frames : FrameConfig} {wps : List PlanWaypoint} {i : Nat}
    {prev : Joints ℝ} (hwps : List.Forall₂ JointMove wps qs) (h : ∀ q ∈ qs, Inside limits q) :
    resolveWaypoints dh limits frames i prev wps = .ok qs := by
  induction hwps generalizing i prev with
  | nil => rfl
  | cons hmove _ ih =>
      rename_i wp q wps qs _
      have hq := h q List.mem_cons_self
      have hqs := @ih (i + 1) q fun q' hmem => h q' (List.mem_cons_of_mem q hmem)
      refine Except.bind_eq_ok.mpr ⟨q, ?_, Except.bind_eq_ok.mpr ⟨qs, hqs, rfl⟩⟩
      rw [hmove.target]
      exact resolve_joints hq

theorem planSegments_joints (dh : DhParameters) (limits : Limits ℝ) (speed : ℝ) (i : Nat)
    {wps : List PlanWaypoint} {q : Joints ℝ} (hwps : List.Forall₂ JointMove wps qs)
    (h : List.IsChain Moves (q :: qs)) :
    ∃ ss, planSegments dh limits speed i q (wps.zip qs) = .ok ss := by
  induction hwps generalizing i q with
  | nil => exact ⟨[], rfl⟩
  | cons hmove _ ih =>
      rename_i wp q' wps qs _
      obtain ⟨⟨j, hj⟩, hrest⟩ := List.isChain_cons_cons.mp h
      obtain ⟨ss, hss⟩ := ih (i + 1) hrest
      -- some joint moves on each step, which is all that a joint segment can fail by
      obtain ⟨v, hv⟩ := jointSegmentSpeed_isSome (l := limits) hj
      have hspeed : segmentSpeed dh limits speed i wp.interpolation q q' = .ok v := by
        rw [hmove.interpolation]
        exact Except.ofOption_eq_ok.mpr hv
      exact Except.exists_bind (Except.bind_eq_ok.mpr ⟨v, hspeed, rfl⟩)
        (Except.exists_bind hss ⟨_, rfl⟩)

/-- A path of joint moves inside the limits is planned. -/
theorem plan_joints (request : PlanRequest) {modelled : Limits ℝ} {q : Joints ℝ}
    (hdh : DhParameters.forModel request.robotModel = some dh)
    (hmodel : modelLimits src request.robotModel = .ok modelled)
    (hstart : request.start = .joints q) (hwps : List.Forall₂ JointMove request.waypoints qs)
    (hne : qs ≠ []) (hlen : qs.length ≤ maxWaypoints)
    (hinside : ∀ q' ∈ q :: qs, Inside modelled q') (hmoves : List.IsChain Moves (q :: qs)) :
    ∃ traj, plan src request = .ok traj ∧ configs traj = q :: qs := by
  let base := request.accelerationMax.elim modelled modelled.withAcceleration
  have hcount := hwps.length_eq
  have hbase : ∀ q' ∈ q :: qs, Inside (base.scaled request.scaling) q' :=
    fun q' hq' => (hinside q' hq').scaled _ _
  have hconfigs : resolveWaypoints dh (base.scaled request.scaling) request.frameConfig 0 q
      request.waypoints = .ok qs :=
    resolveWaypoints_joints hwps fun q' hmem => hbase q' (List.mem_cons_of_mem q hmem)
  obtain ⟨ss, hss⟩ := planSegments_joints dh (base.scaled request.scaling)
    request.maxCartesianSpeed 0 hwps hmoves
  have hwaypoints : request.waypoints ≠ [] := by
    rw [← List.length_pos_iff, hcount]
    exact List.length_pos_iff.mpr hne
  obtain ⟨traj, htraj, -, hfrom, hpos⟩ := plan_isOk request hdh hwaypoints (hcount ▸ hlen) hmodel
    rfl (by rw [hstart]; exact resolve_joints (hbase q List.mem_cons_self)) hconfigs hss
  refine ⟨traj, htraj, ?_⟩
  rw [configs, hfrom, hpos]

/-! ## Two joints, one after the other -/

def sweepStart : Joints ℝ := 0

/-- The first joint turns, then the second. -/
def sweepPath : List (Joints ℝ) := [![1, 0, 0, 0, 0, 0], ![1, 1, 0, 0, 0, 0]]

def sweepRequest (scaling : PlanScaling ℝ) (accelerationMax : Option (Joints ℝ)) :
    PlanRequest where
  robotModel := "ur20"
  start := .joints sweepStart
  waypoints := sweepPath.map jointMove
  scaling := scaling
  accelerationMax := accelerationMax
  maxCartesianSpeed := defaultMaxCartesianSpeed
  maxPathDeviation := defaultMaxPathDeviation
  frameConfig := .default

theorem sweep_inside : ∀ q ∈ sweepStart :: sweepPath, Inside benchLimits q := by
  have hunit : ∀ q ∈ sweepStart :: sweepPath, ∀ i, 0 ≤ q i ∧ q i ≤ 1 := by
    intro q hq i
    simp only [sweepPath, List.mem_cons, List.not_mem_nil, or_false] at hq
    rcases hq with rfl | rfl | rfl <;> fin_cases i <;> norm_num [sweepStart]
  intro q hq i
  have hreach := benchReach_ge i
  obtain ⟨hlo, hhi⟩ := hunit q hq i
  have hmin : -benchReach i ≤ q i := by linarith
  have hmax : q i ≤ benchReach i := by linarith
  exact ⟨hmin, hmax⟩

theorem sweep_moves : List.IsChain Moves (sweepStart :: sweepPath) := by
  refine .cons_cons ⟨0, ?_⟩ (.cons_cons ⟨1, ?_⟩ (.singleton _))
  · norm_num [jointDelta, motionlessJoint, sweepStart]
  · norm_num [jointDelta, motionlessJoint]

theorem sweep_planned (scaling : PlanScaling ℝ) (accelerationMax : Option (Joints ℝ)) :
    ∃ traj, plan bench.limits (sweepRequest scaling accelerationMax) = .ok traj
      ∧ configs traj = sweepStart :: sweepPath :=
  plan_joints (sweepRequest scaling accelerationMax) forModel_ur20 bench_limits rfl
    (jointMoves sweepPath) (List.cons_ne_nil _ _) (by decide) sweep_inside sweep_moves

end

end UrRedisDriver.Proof
