import UrRedisDriver.Proof.Ahead
import UrRedisDriver.Proof.Planner

/-!
# Where the tool ends up

The planner solves a waypoint's pose as a flange pose. The script it is emitted to sets the
tool offset all the same, so the tool reaches the pose exactly if that offset moves nothing.
-/

namespace UrRedisDriver.Proof

open UrRedisDriver

noncomputable section

/-- With the tool offset `X` set, a configuration puts the tool at the pose `T`. -/
def ToolReaches (dh : DhParameters) (X T : Pose) (q : Joints ℝ) : Prop :=
  Motion.Same (forwardKinematics dh q * X) T

/-- A flange at the pose has the tool there exactly if the offset moves nothing. -/
theorem toolReaches_iff {dh : DhParameters} {X T : Pose} {q : Joints ℝ}
    (h : Motion.Same (forwardKinematics dh q) T) :
    ToolReaches dh X T q ↔ Motion.Same X 1 := by
  rw [← Motion.mul_same_left (p := forwardKinematics dh q)]
  exact ⟨fun hX => hX.trans h.symm, fun hX => hX.trans h⟩

/-- The problem that a request without a stored trajectory poses. -/
def Poses (env : PlannerEnv) (command : RobotCommand ℝ) (joints : List ℝ)
    (request : PlanRequest) : Prop :=
  ∃ start ps, Joints.ofList? (joints.take 6) = some start
    ∧ env.planWaypoints 0 command.waypoints = .ok ps
    ∧ request = env.planRequest command start ps

/-- What a command without a stored trajectory executes is the plan of the problem it poses. -/
theorem waypointsForCommand_planned {env : PlannerEnv} {command : RobotCommand ℝ}
    {joints : List ℝ} {out : List (Waypoint ℝ) × PlannedTrajectory}
    (h : env.waypointsForCommand command joints = .ok out) (hid : command.trajectoryId = "") :
    ∃ request, Poses env command joints request ∧ plan env.limits request = .ok out.2
      ∧ out.1 = toWaypoints out.2 command.tcpInFaceplate
        (if command.usePayload then command.payload else "") := by
  obtain ⟨traj, htraj, heq⟩ := Except.bind_eq_ok.mp h
  cases heq
  rw [hid] at htraj
  obtain ⟨_, -, h1⟩ := Except.bind_eq_ok.mp htraj
  obtain ⟨start, hstart, h2⟩ := Except.bind_eq_ok.mp h1
  obtain ⟨ps, hps, h3⟩ := Except.bind_eq_ok.mp h2
  exact ⟨_, ⟨start, ps, Except.ofOption_eq_ok.mp hstart, hps, rfl⟩, Except.mapError_eq_ok.mp h3,
    rfl⟩

/-- And where that problem has a plan, it is executed. -/
theorem waypointsForCommand_isOk {env : PlannerEnv} {command : RobotCommand ℝ}
    {joints : List ℝ} {request : PlanRequest} {traj : PlannedTrajectory}
    (hposes : Poses env command joints request) (hid : command.trajectoryId = "")
    (hne : command.waypoints ≠ []) (hplan : plan env.limits request = .ok traj) :
    ∃ waypoints, env.waypointsForCommand command joints = .ok (waypoints, traj) := by
  obtain ⟨start, ps, hstart, hps, rfl⟩ := hposes
  have hcommand : env.planFromCommand command joints = .ok traj := by
    refine Except.bind_eq_ok.mpr ⟨(), Except.require_eq_ok.mpr hne, ?_⟩
    refine Except.bind_eq_ok.mpr ⟨start, Except.ofOption_eq_ok.mpr hstart, ?_⟩
    exact Except.bind_eq_ok.mpr ⟨ps, hps, Except.mapError_eq_ok.mpr hplan⟩
  unfold PlannerEnv.waypointsForCommand
  rw [hid, if_pos (by decide)]
  exact ⟨_, Except.bind_eq_ok.mpr ⟨traj, hcommand, rfl⟩⟩

/-- The waypoint of a planned request, and the branch its configuration is. -/
theorem planned_pose {env : PlannerEnv} {command : RobotCommand ℝ} {joints : List ℝ}
    {out : List (Waypoint ℝ) × PlannedTrajectory}
    (h : env.waypointsForCommand command joints = .ok out) (hid : command.trajectoryId = "")
    {i : Nat} {wp : Waypoint ℝ} (hwp : command.waypoints[i]? = some wp)
    (hpose : wp.useJointPositions = false) {v : Joints ℝ}
    (hv : parsePoseString env.numbers wp.targetInBase = .ok v) :
    ∃ dh w q, DhParameters.forModel env.robotModelFromEnv = some dh ∧ out.1[i]? = some w
      ∧ w.jointPositions = List.ofFn q ∧ w.tcpInFaceplate = command.tcpInFaceplate
      ∧ ∃ sol ∈ inverseKinematics dh (poseFromArray v), TurnsApart sol q := by
  obtain ⟨request, ⟨start, ps, -, hps, rfl⟩, hrequest, hout⟩ := waypointsForCommand_planned h hid
  obtain ⟨dh, limits, startQ, configs, hdh, hconfigs, hpos⟩ := plan_ok hrequest
  obtain ⟨p, j, hp, hplan⟩ := planWaypoints_get hps hwp
  obtain ⟨q, seed, index, hq, hres⟩ := resolveWaypoints_get hconfigs hp
  rw [planWaypoint_pose hplan hpose hv] at hres
  obtain ⟨sol, hsol, hturns⟩ := resolve_pose_ok hres
  -- the emitted waypoint carries the configuration as it is
  rw [← hpos, List.getElem?_map] at hq
  obtain ⟨planned, hplanned, rfl⟩ := Option.map_eq_some_iff.mp hq
  let w := toWaypoint planned command.tcpInFaceplate
    (if command.usePayload then command.payload else "")
  refine ⟨dh, w, planned.jointPositions, hdh, ?_, rfl, rfl, sol, hsol, hturns⟩
  simp only [hout, toWaypoints, List.getElem?_map, hplanned, Option.map_some, w]

/-! ## A driver with the description of the `ur20` -/

/-- How far a joint of the `ur20` turns either way. -/
def benchReach : Joints ℝ :=
  ![6.283185307179586, 6.283185307179586, 3.141592653589793, 6.283185307179586,
    6.283185307179586, 6.283185307179586]

def benchSpeed : Joints ℝ :=
  ![2.0943951023931953, 2.0943951023931953, 2.6179938779914944, 3.6651914291880923,
    3.6651914291880923, 3.6651914291880923]

def benchJoint (i : Fin 6) : UrdfJoint :=
  ⟨jointNames i, false, -benchReach i, benchReach i, benchSpeed i⟩

/-- Where its description is vendored. -/
def ur20Urdf : String := "src/ur_description/urdf/ur20.urdf"

/-- That description, and no other file. -/
def benchRead (path : String) : Except String (List UrdfJoint) :=
  if path = ur20Urdf then .ok (List.ofFn benchJoint)
  else .error "No such file or directory"

/-- Decimal literals; nothing in what follows writes a number. -/
def decimals : NumberText ℚ := ⟨Text.parseDecimal, fun _ => "", fun _ => ""⟩

/-- A driver with the vendored description of the `ur20` and no stored trajectory. -/
def bench : PlannerEnv where
  robotModel := none
  limits := ⟨benchRead, none⟩
  trajectoryDir := none
  readFile := fun _ => .error "No such file or directory"
  parseStored := fun _ => .error "EOF while parsing a value"
  numbers := .map Rat.cast (fun _ => "") (fun _ => "") decimals

def benchLimits : Limits ℝ :=
  ⟨fun i => -benchReach i, benchReach, benchSpeed, estimateAcceleration benchSpeed⟩

/-- A literal of six decimals, over the real numbers. -/
theorem bench_parse (s body : String) (xs : List ℚ) (v : Joints ℚ)
    (hbody : poseBody s = some body)
    (hxs : poseComponents decimals s 0 (Text.split body ',') = .ok xs) (hv : xs = List.ofFn v) :
    parsePoseString bench.numbers s = .ok fun i => (v i : ℝ) := by
  have hlist : Joints.ofList? xs = some v := by
    rw [hv, Joints.ofList?_ofFn]
  exact parsePoseString_map Rat.cast (fun _ : ℝ => "") (fun _ => "") _
    (parsePoseString_ok.mpr ⟨body, xs, hbody, hxs, hlist⟩)

theorem benchReach_ge (i : Fin 6) : (3.14 : ℝ) < benchReach i := by
  fin_cases i <;> norm_num [benchReach]

theorem benchSpeed_pos (i : Fin 6) : 0 < benchSpeed i := by
  fin_cases i <;> norm_num [benchSpeed]

theorem bench_find (i : Fin 6) :
    (List.ofFn benchJoint).find? (·.name = jointNames i) = some (benchJoint i) := by
  fin_cases i <;> simp [benchJoint, jointNames, List.ofFn_succ]

theorem bench_limit (path : String) (i : Fin 6) :
    UrdfJoint.limit path (List.ofFn benchJoint) (jointNames i)
      = .ok (-benchReach i, benchReach i, benchSpeed i) := by
  have hne : ¬ (false = true ∨ -benchReach i = benchReach i) := by
    have hreach := benchReach_ge i
    intro h
    rcases h with h | h
    · cases h
    · linarith
  refine Except.bind_eq_ok.mpr ⟨benchJoint i, Except.ofOption_eq_ok.mpr (bench_find i), ?_⟩
  refine Except.bind_eq_ok.mpr ⟨(), Except.require_eq_ok.mpr (benchSpeed_pos i), ?_⟩
  exact if_neg hne

/-- What is read of it. -/
theorem bench_fromUrdf : Limits.fromUrdf benchRead ur20Urdf = .ok benchLimits := by
  have hread : benchRead ur20Urdf = .ok (List.ofFn benchJoint) := by
    unfold benchRead
    rw [if_pos rfl]
  refine Except.bind_eq_ok.mpr ⟨List.ofFn benchJoint, Except.mapError_eq_ok.mpr hread, ?_⟩
  exact Except.bind_eq_ok.mpr ⟨_, Joints.sequence_ok.mpr (bench_limit _), rfl⟩

theorem bench_limits : modelLimits bench.limits "ur20" = .ok benchLimits := by
  have hpath : "src/ur_description/urdf/" ++ "ur20" ++ ".urdf" = ur20Urdf := by decide
  unfold modelLimits LimitSource.read
  rw [hpath, show bench.limits.readUrdf = benchRead from rfl, bench_fromUrdf]
  rfl

/-- Where the arm of the request stands. -/
def benchStart : Joints ℝ := ![1, 0, 0, 0, 0, 0]

/-- A waypoint in front of the base, given as a pose. -/
def frontWaypoint : Waypoint ℝ where
  acceleration := 0
  velocity := 0
  globalAccelerationScaling := 0
  globalVelocityScaling := 0
  useExecutionTime := false
  executionTime := 0
  useBlendRadius := false
  blendRadius := 0
  useJointPositions := false
  jointPositions := []
  usePreferredJointConfig := false
  preferredJointConfig := []
  usePayload := false
  payload := ""
  targetInBase := "p[0,-0.201,1.5906,0,0,0]"
  relativePose := []
  tcpInFaceplate := "p[0,0,0,0,0,0]"
  forceThreshold := 0
  useLinearMotion := false

/-- The request to go there with a tool. -/
def frontCommand (tcpInFaceplate : String) : RobotCommand ℝ where
  commandType := "optimal_trajectory"
  acceleration := 0
  velocity := 0
  globalAccelerationScaling := 0
  globalVelocityScaling := 0
  useExecutionTime := false
  executionTime := 0
  useBlendRadius := false
  blendRadius := 0
  useJointPositions := false
  jointPositions := []
  usePreferredJointConfig := false
  preferredJointConfig := []
  usePayload := false
  payload := ""
  targetInBase := ""
  relativePose := []
  tcpInFaceplate := tcpInFaceplate
  forceThreshold := 0
  reportWaypointProgress := false
  trajectoryId := ""
  waypoints := [frontWaypoint]

theorem front_parse : parsePoseString bench.numbers frontWaypoint.targetInBase = .ok frontPose := by
  have hq := bench_parse frontWaypoint.targetInBase "0,-0.201,1.5906,0,0,0"
    [0, -0.201, 1.5906, 0, 0, 0] ![0, -0.201, 1.5906, 0, 0, 0] (by decide) (by decide +kernel) rfl
  refine hq.trans ?_
  congr 1
  funext i
  fin_cases i <;> norm_num [frontPose]

theorem bench_start : Joints.ofList? ((List.ofFn benchStart).take 6) = some benchStart := by
  rw [List.take_of_length_le (List.length_ofFn).le, Joints.ofList?_ofFn]

/-- The arm may stand there. -/
theorem bench_check (scaling : PlanScaling ℝ) {index : Nat} :
    checkConfiguration (benchLimits.scaled scaling) benchStart index = .ok () := by
  refine checkConfiguration_ok fun i => ?_
  have hreach := benchReach_ge i
  have hstart : 0 ≤ benchStart i ∧ benchStart i ≤ 1 := by
    fin_cases i <;> norm_num [benchStart]
  have hlo : -benchReach i ≤ benchStart i := by linarith
  have hhi : benchStart i ≤ benchReach i := by linarith
  exact ⟨hlo, hhi⟩

/-- A whole turn of joint 1 is not where the arm stands. -/
theorem turn_ne_start {turn : ℝ} (h : turn ∈ ([-1, 0, 1] : List ℝ)) :
    motionlessJoint < |0 + turn * 2 * Real.pi - 1| := by
  have hpi := Real.pi_gt_three
  simp only [List.mem_cons, List.not_mem_nil, or_false] at h
  rw [motionlessJoint]
  rcases h with rfl | rfl | rfl
  · rw [abs_of_neg (by linarith)]
    linarith
  · norm_num
  · rw [abs_of_pos (by linarith)]
    linarith

theorem benchReach_of_pi {i : Fin 6} (hi : i ≠ 2) : Real.pi ≤ benchReach i := by
  have hpi : Real.pi < 3.15 := Real.pi_lt_d2
  have hreach : (6 : ℝ) < benchReach i := by
    fin_cases i
    any_goals norm_num [benchReach]
    exact (hi rfl).elim
  linarith

/-- A branch with its elbow well bent is inside the limits as it is, without a turn. -/
theorem mem_expandTurns_bench {sol : Joints ℝ} (scaling : PlanScaling ℝ)
    (hpi : ∀ i, |sol i| ≤ Real.pi) (helbow : |sol 2| ≤ Real.pi / 2) :
    sol ∈ expandTurns sol (benchLimits.scaled scaling).positionMin
      (benchLimits.scaled scaling).positionMax := by
  apply mem_expandTurns.mpr
  intro i
  -- only the elbow has less than a half turn to either side
  have hbound : |sol i| ≤ benchReach i := by
    by_cases hi : i = 2
    · have hreach := benchReach_ge i
      have h315 : Real.pi < 3.15 := Real.pi_lt_d2
      rw [hi] at hreach ⊢
      linarith
    · exact (hpi i).trans (benchReach_of_pi hi)
  obtain ⟨hlo, hhi⟩ := abs_le.mp hbound
  exact ⟨⟨0, by simp, by ring⟩, hlo, hhi⟩

/-- The way there turns joint 1. -/
theorem front_moves {limits : Limits ℝ} {index : Nat} {q : Joints ℝ}
    (h : resolvePose ur20 limits (poseFromArray frontPose) benchStart index = .ok q) :
    motionlessJoint < |jointDelta benchStart q 0| := by
  obtain ⟨sol, hsol, -, hexp⟩ := resolvePose_ok h
  obtain ⟨⟨turn, hturn, hv⟩, -⟩ := mem_expandTurns.mp hexp 0
  rw [front_ahead.first hsol] at hv
  rw [jointDelta, hv]
  exact turn_ne_start hturn

/-- The waypoint in front of the arm, as the planner takes it. -/
def frontTarget : PlanWaypoint := ⟨.pose frontPose .urdfBaseLink, none, none, .joint⟩

/-- The planning problem of the request. -/
def frontRequest (tcpInFaceplate : String) : PlanRequest :=
  bench.planRequest (frontCommand tcpInFaceplate) benchStart [frontTarget]

theorem front_plan (tcpInFaceplate : String) :
    ∃ traj, plan bench.limits (frontRequest tcpInFaceplate) = .ok traj := by
  obtain ⟨sol, hsol, hpi, helbow⟩ := front_ahead.reached front_elbow.1 front_elbow.2
  let request := frontRequest tcpInFaceplate
  let limits := benchLimits.scaled request.scaling
  -- a solution ahead of the arm is in range, and the first joint has to move for it
  obtain ⟨q, hq⟩ := resolvePose_isOk benchStart 1 hsol
    (mem_expandTurns_bench request.scaling hpi helbow)
  have hstart : resolve (.joints benchStart) none ur20 limits .default 0 0 = .ok benchStart :=
    Except.bind_eq_ok.mpr ⟨(), Except.mapError_eq_ok.mpr (bench_check _), rfl⟩
  obtain ⟨speed, hspeed⟩ := jointSegmentSpeed_isSome (l := limits) (front_moves hq)
  obtain ⟨s, hs⟩ : ∃ s, planSegment ur20 limits request.maxCartesianSpeed 0 frontTarget benchStart q
      = .ok s :=
    Except.exists_bind (Except.ofOption_eq_ok.mpr hspeed) ⟨_, rfl⟩
  obtain ⟨traj, htraj, -⟩ := plan_single request forModel_ur20 rfl bench_limits rfl hstart
    (Except.mapError_eq_ok.mpr hq) hs
  exact ⟨traj, htraj⟩

/-- The request is planned, whatever tool it names. -/
theorem front_planned (tcpInFaceplate : String) :
    ∃ out, bench.waypointsForCommand (frontCommand tcpInFaceplate) (List.ofFn benchStart)
      = .ok out := by
  have hwp : bench.planWaypoints 0 [frontWaypoint] = .ok [frontTarget] := by
    have htarget : bench.waypointTarget frontWaypoint 0 = .ok (.pose frontPose .urdfBaseLink) := by
      unfold PlannerEnv.waypointTarget
      rw [front_parse]
      rfl
    unfold PlannerEnv.planWaypoints PlannerEnv.planWaypoint
    rw [htarget]
    rfl
  obtain ⟨traj, htraj⟩ := front_plan tcpInFaceplate
  obtain ⟨waypoints, hout⟩ := waypointsForCommand_isOk ⟨benchStart, _, bench_start, hwp, rfl⟩ rfl
    (List.cons_ne_nil _ _) htraj
  exact ⟨_, hout⟩

/-- The offset of a tool on the flange's axis. -/
def axialOffset (z : ℚ) : Joints ℝ := fun i => ((![0, 0, z, 0, 0, 0] : Joints ℚ) i : ℝ)

theorem parse_noTool : parsePoseString bench.numbers "p[0,0,0,0,0,0]" = .ok (axialOffset 0) :=
  bench_parse _ "0,0,0,0,0,0" [0, 0, 0, 0, 0, 0] ![0, 0, 0, 0, 0, 0] (by decide)
    (by decide +kernel) rfl

theorem axialOffset_pose (z : ℚ) :
    poseFromArray (axialOffset z) = ⟨1, ![0, 0, (z : ℝ)]⟩ := by
  have h : ![axialOffset z 3, axialOffset z 4, axialOffset z 5] = 0 := by
    have h0 : ((0 : ℚ) : ℝ) = 0 := Rat.cast_zero
    ext i
    fin_cases i
    · exact h0
    · exact h0
    · exact h0
  have htrans : ![axialOffset z 0, axialOffset z 1, axialOffset z 2] = ![0, 0, (z : ℝ)] := by
    ext i
    fin_cases i
    · exact Rat.cast_zero
    · exact Rat.cast_zero
    · rfl
  rw [poseFromArray_noTurn _ h, htrans]

/-! ## Where the tool ends up -/

/--
**The tool and the pose.** In every request that is planned, the configuration emitted for a
waypoint given as a pose puts the tool at that pose if and only if the tool offset moves
nothing, provided the closed form is right about the pose.
-/
theorem toolReaches_planned_iff {env : PlannerEnv} {command : RobotCommand ℝ} {joints : List ℝ}
    {out : List (Waypoint ℝ) × PlannedTrajectory} {dh : DhParameters}
    (h : env.waypointsForCommand command joints = .ok out) (hid : command.trajectoryId = "")
    (hdh : DhParameters.forModel env.robotModelFromEnv = some dh)
    {i : Nat} {wp : Waypoint ℝ} (hwp : command.waypoints[i]? = some wp)
    (hpose : wp.useJointPositions = false) {v x : Joints ℝ}
    (hv : parsePoseString env.numbers wp.targetInBase = .ok v)
    (hx : parsePoseString env.numbers command.tcpInFaceplate = .ok x)
    (hik : ∀ sol ∈ inverseKinematics dh (poseFromArray v),
      Motion.Same (forwardKinematics dh sol) (poseFromArray v)) :
    ∃ w q, out.1[i]? = some w ∧ w.jointPositions = List.ofFn q
      ∧ parsePoseString env.numbers w.tcpInFaceplate = .ok x
      ∧ (ToolReaches dh (poseFromArray x) (poseFromArray v) q
        ↔ Motion.Same (poseFromArray x) 1) := by
  obtain ⟨dh', w, q, hdh', hw, hq, htcp, sol, hsol, hturns⟩ := planned_pose h hid hwp hpose hv
  rw [hdh] at hdh'
  cases hdh'
  have hflange : Motion.Same (forwardKinematics dh q) (poseFromArray v) :=
    (forwardKinematics_turns hturns).trans (hik sol hsol)
  exact ⟨w, q, hw, hq, htcp ▸ hx, toolReaches_iff hflange⟩

theorem toolReaches_planned_trace : ∃ out w q,
    bench.waypointsForCommand (frontCommand "p[0,0,0,0,0,0]") (List.ofFn benchStart) = .ok out
      ∧ out.1[0]? = some w ∧ w.jointPositions = List.ofFn q
      ∧ ToolReaches ur20 (poseFromArray (axialOffset 0)) (poseFromArray frontPose) q := by
  obtain ⟨out, hout⟩ := front_planned "p[0,0,0,0,0,0]"
  obtain ⟨w, q, hw, hq, -, hiff⟩ :=
    toolReaches_planned_iff hout rfl forModel_ur20 (i := 0) rfl rfl front_parse parse_noTool
      front_same
  have hone : poseFromArray (axialOffset 0) = 1 := by
    rw [axialOffset_pose]
    apply Motion.ext
    · rfl
    · ext i
      fin_cases i <;> simp
  have hsame : Motion.Same (poseFromArray (axialOffset 0)) 1 := by
    rw [hone]
    exact .refl 1
  exact ⟨out, w, q, hout, hw, hq, hiff.mpr hsame⟩

/-- A gripper ten centimetres long does not reach the pose. -/
theorem not_toolReaches_planned : ∃ out w q,
    bench.waypointsForCommand (frontCommand "p[0,0,0.1,0,0,0]") (List.ofFn benchStart) = .ok out
      ∧ out.1[0]? = some w ∧ w.jointPositions = List.ofFn q
      ∧ Motion.Same (forwardKinematics ur20 q) (poseFromArray frontPose)
      ∧ ¬ ToolReaches ur20 (poseFromArray (axialOffset 0.1)) (poseFromArray frontPose) q := by
  obtain ⟨out, hout⟩ := front_planned "p[0,0,0.1,0,0,0]"
  obtain ⟨dh, w, q, hdh, hw, hq, -, sol, hsol, hturns⟩ :=
    planned_pose hout rfl (i := 0) rfl rfl front_parse
  rw [show bench.robotModelFromEnv = "ur20" from rfl, forModel_ur20] at hdh
  cases hdh
  -- the flange has been brought to where the tool was asked to be
  have hflange : Motion.Same (forwardKinematics ur20 q) (poseFromArray frontPose) :=
    (forwardKinematics_turns hturns).trans (front_same sol hsol)
  refine ⟨out, w, q, hout, hw, hq, hflange, ?_⟩
  rw [toolReaches_iff hflange, axialOffset_pose]
  intro hsame
  -- the tip of the tool is off by its length along its axis
  have htrans := congrFun (Motion.same_iff.mp hsame).2 2
  have hz : ((0.1 : ℚ) : ℝ) = 0 := htrans
  norm_num at hz

end

end UrRedisDriver.Proof
