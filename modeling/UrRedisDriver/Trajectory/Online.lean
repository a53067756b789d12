import UrRedisDriver.Core.Structs
import UrRedisDriver.Trajectory.Plan

/-!
# From a motion request to the waypoints it executes

`waypoints_for_command`, with the emitter and the loading of stored trajectories. The
environment the driver runs in, its files among it, is a parameter.
-/

namespace UrRedisDriver

noncomputable section

/-! ## Emitting a trajectory -/

/-- The value the templates read as "do not scale". -/
def noTemplateScaling : ℝ := 0

/-- Convert one planned waypoint into the driver's `Waypoint`. -/
def toWaypoint (wp : PlannedWaypoint) (tcpInFaceplate payload : String) : Waypoint ℝ where
  acceleration := wp.acceleration
  velocity := wp.velocity
  -- the planner has applied the scaling already
  globalAccelerationScaling := noTemplateScaling
  globalVelocityScaling := noTemplateScaling
  useExecutionTime := false
  executionTime := 0
  useBlendRadius := wp.blendRadius > 0
  blendRadius := wp.blendRadius
  -- every pose is solved, so the controller never runs inverse kinematics
  useJointPositions := true
  jointPositions := List.ofFn wp.jointPositions
  usePreferredJointConfig := false
  preferredJointConfig := List.replicate 6 0
  usePayload := !payload.isEmpty
  payload := payload
  targetInBase := "p[0,0,0,0,0,0]"
  relativePose := List.replicate 6 0
  tcpInFaceplate := tcpInFaceplate
  forceThreshold := 0
  useLinearMotion := wp.useLinearMotion

/-- Convert a whole trajectory into waypoints. -/
def toWaypoints (trajectory : PlannedTrajectory) (tcpInFaceplate payload : String) :
    List (Waypoint ℝ) :=
  trajectory.waypoints.map (toWaypoint · tcpInFaceplate payload)

/-- Build a complete command for a planned trajectory. -/
def toRobotCommand (trajectory : PlannedTrajectory) (commandType tcpInFaceplate payload : String)
    (reportWaypointProgress : Bool) : RobotCommand ℝ :=
  let waypoints := toWaypoints trajectory tcpInFaceplate payload
  { commandType := commandType
    -- a trajectory template reads the speeds per waypoint; these are for whoever logs
    acceleration := (waypoints.head?.map (·.acceleration)).getD 0
    velocity := (waypoints.head?.map (·.velocity)).getD 0
    globalAccelerationScaling := noTemplateScaling
    globalVelocityScaling := noTemplateScaling
    useExecutionTime := false
    executionTime := 0
    useBlendRadius := false
    blendRadius := 0
    useJointPositions := true
    jointPositions := List.ofFn trajectory.startJointPositions
    usePreferredJointConfig := false
    preferredJointConfig := List.replicate 6 0
    usePayload := !payload.isEmpty
    payload := payload
    targetInBase := "p[0,0,0,0,0,0]"
    relativePose := List.replicate 6 0
    tcpInFaceplate := tcpInFaceplate
    forceThreshold := 0
    reportWaypointProgress := reportWaypointProgress
    trajectoryId := ""
    waypoints := waypoints }

/-! ## Stored trajectories -/

/-- Bumped whenever the stored shape changes incompatibly. -/
def schemaVersion : Nat := 1

/-- One trajectory on disk. -/
structure StoredTrajectory where
  schemaVersion : Nat
  name : String
  createdUnixSeconds : Nat
  request : Option PlanRequest
  trajectory : PlannedTrajectory

/-- A character a trajectory name may have. -/
def nameChar (c : Char) : Bool := c.isAlphanum || c == '_' || c == '-' || c == '.'

/-- Reject anything that is not a plain file stem. -/
def validateName (name : String) : Except String Unit :=
  if name.isEmpty then .error "a trajectory name cannot be empty"
  else if name.utf8ByteSize > 128 then .error s!"trajectory name '{name}' is too long"
  else if !name.toList.all nameChar || Text.contains name ".." || Text.startsWith name "." then
    .error (s!"trajectory name '{name}' may only contain letters, digits, '_', '-' and "
      ++ "'.', and may not start with '.' or contain '..'")
  else .ok ()

/-- What the planner reads of the process it runs in. -/
structure PlannerEnv where
  /-- `ROBOT_MODEL`. -/
  robotModel : Option String
  limits : LimitSource
  /-- `UR_TRAJECTORY_DIR`. -/
  trajectoryDir : Option String
  /-- `std::fs::read_to_string`. -/
  readFile : String → Except String String
  /-- `serde_json::from_str`. -/
  parseStored : String → Except String StoredTrajectory
  numbers : NumberText ℝ

namespace PlannerEnv

variable (env : PlannerEnv)

/-- The robot model to plan for. -/
def robotModelFromEnv : String := env.robotModel.getD "ur20"

/-- The path a named trajectory occupies. -/
def pathFor (name : String) : Except String String :=
  (validateName name).bind fun _ =>
    let dir := env.trajectoryDir.getD "trajectories"
    .ok ((if dir.isEmpty || Text.endsWith dir "/" then dir else dir ++ "/") ++ name ++ ".json")

/-- Read a trajectory from an explicit path. -/
def loadPath (path : String) : Except String StoredTrajectory :=
  ((env.readFile path).mapError fun e => s!"could not read {path}: {e}").bind fun text =>
    ((env.parseStored text).mapError fun e => s!"{path} is not a valid trajectory: {e}").bind
      fun stored =>
        if stored.schemaVersion ≠ schemaVersion then
          .error (s!"{path} was written by schema version {stored.schemaVersion} but this build "
            ++ s!"expects {schemaVersion}; re-plan it")
        else .ok stored

/-- Read a trajectory by name. -/
def load (name : String) : Except String StoredTrajectory :=
  (env.pathFor name).bind env.loadPath

/-! ## Planning a request -/

/-- How far a joint may be from a stored trajectory's start before it is refused. -/
def startToleranceRad : ℝ := 0.05

/-- The arm has to be where a stored trajectory begins. -/
def checkStartMatches (trajectory : PlannedTrajectory) (currentJoints : List ℝ) :
    Except String Unit :=
  if currentJoints.length < 6 then
    .error "no joint state available to check the trajectory's start against"
  else
    let away (i : Fin 6) : ℝ :=
      |currentJoints.getD i 0 - trajectory.startJointPositions i|
    match (List.finRange 6).find? fun i => away i > startToleranceRad with
    | some i =>
        .error (s!"the arm is not at this trajectory's start: joint {i.val} is "
          ++ env.numbers.fixed4 (away i)
          ++ " rad away (tolerance 0.05). Move there first, or re-plan.")
    | none => .ok ()

/-- Six values of a waypoint. -/
def toSix (v : List ℝ) (index : Nat) (field : String) : Except String (Joints ℝ) :=
  .ofOption (Joints.ofList? v) s!"waypoint {index}: {field} has {v.length} values, expected 6"

/-- Where a waypoint of a request is. Goal frames are looked up against `base_link`. -/
def waypointTarget (wp : Waypoint ℝ) (index : Nat) : Except String WaypointTarget :=
  if wp.useJointPositions then
    (toSix wp.jointPositions index "joint_positions").bind fun q => .ok (.joints q)
  else
    ((parsePoseString env.numbers wp.targetInBase).mapError
      fun e => s!"waypoint {index}: {e}").bind fun v => .ok (.pose v .urdfBaseLink)

/-- One waypoint of a request as the planner takes it. -/
def planWaypoint (index : Nat) (wp : Waypoint ℝ) : Except String PlanWaypoint :=
  (env.waypointTarget wp index).bind fun target =>
    (if wp.usePreferredJointConfig then
        (toSix wp.preferredJointConfig index "preferred_joint_config").bind fun q => .ok (some q)
      else .ok none).bind fun preferred =>
        .ok
          { target := target
            preferredJointConfig := preferred
            blendRadius := if wp.useBlendRadius then some wp.blendRadius else none
            interpolation := if wp.useLinearMotion then .linear else .joint }

/-- The waypoints of a request from number `index` on. -/
def planWaypoints : (index : Nat) → List (Waypoint ℝ) → Except String (List PlanWaypoint)
  | _, [] => .ok []
  | index, wp :: wps =>
      (env.planWaypoint index wp).bind fun p =>
        (planWaypoints (index + 1) wps).bind fun ps => .ok (p :: ps)

/-- The planning problem of a command. -/
def planRequest (command : RobotCommand ℝ) (start : Joints ℝ) (waypoints : List PlanWaypoint) :
    PlanRequest where
  robotModel := env.robotModelFromEnv
  start := .joints start
  waypoints := waypoints
  scaling := ⟨command.globalVelocityScaling, command.globalAccelerationScaling⟩
  accelerationMax := none
  maxCartesianSpeed := defaultMaxCartesianSpeed
  maxPathDeviation := defaultMaxPathDeviation
  frameConfig := .default

/-- Build a planning problem out of a command and plan it. -/
def planFromCommand (command : RobotCommand ℝ) (currentJoints : List ℝ) :
    Except String PlannedTrajectory :=
  (Except.require (command.waypoints ≠ []) "a planned trajectory needs at least one waypoint").bind
    fun _ =>
  (Except.ofOption (Joints.ofList? (currentJoints.take 6))
    "no joint state available to plan from").bind fun start =>
  (env.planWaypoints 0 command.waypoints).bind fun waypoints =>
  (plan env.limits (env.planRequest command start waypoints)).mapError (·.display env.numbers)

/-- The waypoints a planned-trajectory request executes, and the trajectory they are of. -/
def waypointsForCommand (command : RobotCommand ℝ) (currentJoints : List ℝ) :
    Except String (List (Waypoint ℝ) × PlannedTrajectory) :=
  (if command.trajectoryId.isEmpty then env.planFromCommand command currentJoints
    else
      (env.load command.trajectoryId).bind fun stored =>
        (env.checkStartMatches stored.trajectory currentJoints).bind fun _ =>
          .ok stored.trajectory).bind fun trajectory =>
  .ok (toWaypoints trajectory command.tcpInFaceplate
    (if command.usePayload then command.payload else ""), trajectory)

end PlannerEnv

end

end UrRedisDriver
