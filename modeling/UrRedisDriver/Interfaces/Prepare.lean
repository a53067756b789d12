import UrRedisDriver.Core.SpValue
import UrRedisDriver.Interfaces.CommandServer
import Mathlib.Algebra.Field.Defs

/-!
# Decoding a motion request

What a tick of `command_server` does between the consumed trigger and the admission block:
it reads the request out of the keys it fetched, looks up its frames, plans and renders.
Nearly everything here is the client's, so nearly every step can fail the request. A step
can also panic, which takes the driver down.
-/

namespace UrRedisDriver

/-- Why the decoding of a request does not go on. -/
inductive Stop
  /-- The task panics. -/
  | panic
  /-- The request is failed. -/
  | failed (reason : String)
  deriving DecidableEq

/-- What `micro_sp`'s typed accessors make of a value that is there, given a default. -/
structure Accessors (F : Type) where
  bool : SPValue F → Bool → Bool
  float : SPValue F → F → F
  string : SPValue F → String → String

/-- What a tick looks at apart from the request. `T` is the type of a transform. -/
structure Surroundings (F T : Type) where
  robotName : String
  tfPrefix : String
  /-- `get_template_names` -/
  templateNames : List String
  /-- The `n`-th `lookup_transform` of the tick. -/
  lookup : (n : Nat) → (parent child : String) → Option T
  transformToString : T → String
  /-- `SPTransform::default` -/
  defaultTransform : T
  /-- `joint_values` at the time the planner is called. -/
  jointValues : List F
  /-- `waypoints_for_command` -/
  plan : RobotCommand F → List F → Except String (List (Waypoint F))
  /-- `generate_core_script_from_template` -/
  render : RobotCommand F → Except String String

/-- The keys of a request, without the robot's name. -/
def requestSuffixes : List String :=
  [ "request_trigger", "request_state", "request_result", "request_cancel", "request_feedback",
    "command_type", "acceleration", "velocity", "global_acceleration_scaling",
    "global_velocity_scaling", "use_execution_time", "execution_time", "use_blend_radius",
    "blend_radius", "use_joint_positions", "joint_positions", "use_preferred_joint_config",
    "preferred_joint_config", "use_payload", "payload", "baseframe_id", "faceplate_id",
    "goal_feature_id", "tcp_id", "root_frame_id", "force_threshold", "use_relative_pose",
    "relative_pose", "force_feedback", "report_waypoint_progress", "trajectory_id", "waypoints"]

/-- `Payload::default`, as text. -/
def defaultPayload : String := "0,[0,0,0],[0,0,0,0,0,0]"

/-- Whether the planner replaces the waypoints of such a command. -/
def isPlannerCommand (commandType : String) : Bool := commandType == "optimal_trajectory"

namespace CommandServer

variable {F T : Type}

/-! ## Reading what was fetched -/

/-- `State::get_value`: a key that is not there is a panic. -/
def getValue (state : SPState F) (k : String) : Except Stop (SPValue F) :=
  .ofOption (state k) .panic

/-- A typed accessor with a default. -/
def getOr {α : Type} (read : SPValue F → α → α) (state : SPState F) (k : String) (default : α) :
    Except Stop α :=
  (getValue state k).map (read · default)

/-- `state_string_or`: a key that is not there has the default. -/
def stateStringOr (acc : Accessors F) (state : SPState F) (k default : String) : String :=
  (state k).elim default (acc.string · default)

/-- One element of an array: what is not a float is `default_arr[i]` instead. -/
def elementOr (defaultArr : List F) (i : Nat) : SPValue F → Except Stop F
  | .float64 (some x) => .ok x
  | _ => .ofOption defaultArr[i]? .panic

/-- The elements of an array from the `i`-th on. -/
def extractFrom (defaultArr : List F) : (i : Nat) → List (SPValue F) → Except Stop (List F)
  | _, [] => .ok []
  | i, v :: vs =>
      (elementOr defaultArr i v).bind fun x =>
        (extractFrom defaultArr (i + 1) vs).map fun xs => x :: xs

/-- A vector of the request itself. -/
def extractF64Array (state : SPState F) (k : String) (defaultArr : List F) :
    Except Stop (List F) :=
  (getValue state k).bind fun v =>
    match v with
    | .array (some vs) => extractFrom defaultArr 0 vs
    | _ => .ok defaultArr

/-! ## The request -/

/-- A request as read, its frames still names. -/
structure RequestRaw (F : Type) where
  acceleration : F
  velocity : F
  globalAccelerationScaling : F
  globalVelocityScaling : F
  useExecutionTime : Bool
  executionTime : F
  useBlendRadius : Bool
  blendRadius : F
  useJointPositions : Bool
  forceThreshold : F
  usePreferredJointConfig : Bool
  usePayload : Bool
  payload : String
  baseframeId : String
  faceplateId : String
  goalFeatureId : String
  tcpId : String
  rootFrameId : String
  useRelativePose : Bool
  reportWaypointProgress : Bool
  trajectoryId : String
  jointPositions : List F
  preferredJointConfig : List F
  relativePose : List F

variable [Field F]

/-- `SAFE_HOME_JOINT_STATE` -/
def safeHomeJointState : List F := [0, -(15707 / 10000), 0, -(15707 / 10000), 0, 0]

variable (acc : Accessors F) (env : Surroundings F T)

/-- A key of this robot. -/
def key (suffix : String) : String := s!"{env.robotName}_{suffix}"

/-- Read a request. -/
def readRequest (state : SPState F) : Except Stop (RequestRaw F) := do
  let float (k : String) := getOr acc.float state (key env k) 0
  let bool (k : String) (default : Bool) := getOr acc.bool state (key env k) default
  let string (k default : String) := getOr acc.string state (key env k) default
  let acceleration ← float "acceleration"
  let velocity ← float "velocity"
  let globalAccelerationScaling ← float "global_acceleration_scaling"
  let globalVelocityScaling ← float "global_velocity_scaling"
  let useExecutionTime ← bool "use_execution_time" false
  let executionTime ← float "execution_time"
  let useBlendRadius ← bool "use_blend_radius" false
  let blendRadius ← float "blend_radius"
  let useJointPositions ← bool "use_joint_positions" false
  let forceThreshold ← float "force_threshold"
  let usePreferredJointConfig ← bool "use_preferred_joint_config" false
  let usePayload ← bool "use_payload" false
  let payload ← string "payload" defaultPayload
  let baseframeId ← string "baseframe_id" (env.tfPrefix ++ "base_link")
  let faceplateId ← string "faceplate_id" (env.tfPrefix ++ "tool0")
  let goalFeatureId ← string "goal_feature_id" "UNKNOWN"
  let tcpId ← string "tcp_id" "UNKNOWN"
  let rootFrameId ← string "root_frame_id" "world"
  let useRelativePose ← bool "use_relative_pose" false
  let reportWaypointProgress ← bool "report_waypoint_progress" true
  let trajectoryId ← string "trajectory_id" ""
  let jointPositions ← extractF64Array state (key env "joint_positions") safeHomeJointState
  let preferredJointConfig ←
    extractF64Array state (key env "preferred_joint_config") safeHomeJointState
  let relativePose ← extractF64Array state (key env "relative_pose") (List.replicate 6 0)
  .ok
    { acceleration, velocity, globalAccelerationScaling, globalVelocityScaling
      useExecutionTime, executionTime, useBlendRadius, blendRadius, useJointPositions
      forceThreshold, usePreferredJointConfig, usePayload, payload, baseframeId, faceplateId
      goalFeatureId, tcpId, rootFrameId, useRelativePose, reportWaypointProgress, trajectoryId
      jointPositions, preferredJointConfig, relativePose }

/-! ## Frames -/

omit [Field F] in
/-- The pose that stands where none was looked up. -/
def placeholder : String := env.transformToString env.defaultTransform

/-- A transform as text, or the failure of the request. -/
def lookupTransform (n : Nat) (parent child reason : String) : Except Stop String :=
  (Except.ofOption (env.lookup n parent child) (.failed reason)).map env.transformToString

/-- Whether the request's own target is looked up. -/
def needsTarget (commandType : String) (raw : RequestRaw F) : Bool :=
  !raw.useJointPositions && commandType != "trajectory_unsafe_move_j" && !raw.useRelativePose
    && commandType != "lock_rsp" && commandType != "unlock_rsp" && !isPlannerCommand commandType

/-- `target_in_base` and `tcp_in_faceplate` of the request itself. -/
def requestFrames (commandType : String) (raw : RequestRaw F) : Except Stop (String × String) :=
  if needsTarget commandType raw then
    (lookupTransform env 0 raw.baseframeId raw.goalFeatureId
      s!"no transform from '{raw.baseframeId}' to '{raw.goalFeatureId}'").bind fun target =>
        (lookupTransform env 1 raw.faceplateId raw.tcpId
          s!"no transform from '{raw.faceplateId}' to '{raw.tcpId}'").bind fun tcp =>
            .ok (target, tcp)
  else .ok (placeholder env, placeholder env)

/-- The frames of one waypoint, where `tcp` is what `tcp_in_faceplate` holds so far. -/
def waypointFrames (raw : RequestRaw F) (n : Nat) (tcp : String) (wpr : WaypointRaw F) :
    Except Stop (String × String) :=
  if !wpr.useJointPositions && !wpr.useRelativePose then
    (lookupTransform env n raw.baseframeId wpr.goalFeatureId
      s!"no transform from '{raw.baseframeId}' to waypoint frame '{wpr.goalFeatureId}'").bind
        fun target =>
          (lookupTransform env (n + 1) raw.faceplateId raw.tcpId
            s!"no transform from '{raw.faceplateId}' to '{raw.tcpId}'").bind fun tcp =>
              .ok (target, tcp)
  -- The tool frame found last is carried on.
  else .ok (placeholder env, tcp)

omit [Field F] in
/-- A waypoint with its frames looked up. -/
def toWaypoint (wpr : WaypointRaw F) (targetInBase tcpInFaceplate : String) : Waypoint F where
  acceleration := wpr.acceleration
  velocity := wpr.velocity
  globalAccelerationScaling := wpr.globalAccelerationScaling
  globalVelocityScaling := wpr.globalVelocityScaling
  useExecutionTime := wpr.useExecutionTime
  executionTime := wpr.executionTime
  useBlendRadius := wpr.useBlendRadius
  blendRadius := wpr.blendRadius
  useJointPositions := wpr.useJointPositions
  jointPositions := wpr.jointPositions
  usePreferredJointConfig := wpr.usePreferredJointConfig
  preferredJointConfig := wpr.preferredJointConfig
  usePayload := wpr.usePayload
  payload := wpr.payload
  targetInBase := targetInBase
  relativePose := wpr.relativePose
  tcpInFaceplate := tcpInFaceplate
  forceThreshold := wpr.forceThreshold
  useLinearMotion := wpr.useLinearMotion

/--
The waypoints, and what `tcp_in_faceplate` holds after the last of them. The lookups of a
waypoint are the `n`-th and the one after it.
-/
def waypointsWithFrames (raw : RequestRaw F) :
    (n : Nat) → (tcp : String) → List (WaypointRaw F) → Except Stop (List (Waypoint F) × String)
  | _, tcp, [] => .ok ([], tcp)
  | n, tcp, wpr :: rest =>
      (waypointFrames env raw n tcp wpr).bind fun frames =>
        (waypointsWithFrames raw (n + 2) frames.2 rest).map fun done =>
          (toWaypoint wpr frames.1 frames.2 :: done.1, done.2)

/-- The waypoints as decoded; an `UNKNOWN` array is none. -/
def readWaypoints (state : SPState F) : Except Stop (List (WaypointRaw F)) :=
  (getValue state (key env "waypoints")).bind fun v =>
    match v with
    | .array none => .ok []
    | v => .ofOption (WaypointRaw.vecFromSpValue (some v))
        (.failed "one or more waypoints failed to decode")

/-! ## The command -/

/-- The command of a request. -/
def robotCommand (commandType : String) (raw : RequestRaw F)
    (targetInBase tcpInFaceplate : String) (waypoints : List (Waypoint F)) : RobotCommand F where
  commandType := commandType
  acceleration := raw.acceleration
  velocity := raw.velocity
  globalAccelerationScaling := raw.globalAccelerationScaling
  globalVelocityScaling := raw.globalVelocityScaling
  useExecutionTime := raw.useExecutionTime
  executionTime := raw.executionTime
  useBlendRadius := raw.useBlendRadius
  blendRadius := raw.blendRadius
  useJointPositions := raw.useJointPositions
  jointPositions := raw.jointPositions
  usePreferredJointConfig := raw.usePreferredJointConfig
  preferredJointConfig := raw.preferredJointConfig
  usePayload := raw.usePayload
  payload := raw.payload
  targetInBase := targetInBase
  relativePose := raw.relativePose
  tcpInFaceplate := tcpInFaceplate
  forceThreshold := raw.forceThreshold
  reportWaypointProgress := raw.reportWaypointProgress
  trajectoryId := raw.trajectoryId
  waypoints := waypoints

/-- Replace the waypoints of a planned trajectory by what the planner makes of them. -/
def planned (command : RobotCommand F) : Except Stop (RobotCommand F) :=
  if isPlannerCommand command.commandType then
    ((env.plan command env.jointValues).mapError
      fun e => Stop.failed s!"trajectory planning failed: {e}").map
        fun waypoints => { command with waypoints := waypoints }
  else .ok command

/-- The keys that are missing or could not be read. -/
def missing (state : SPState F) : List String :=
  (requestSuffixes.map (key env)).filter fun k => (state k).isNone

/-- `command_type` -/
def commandType (state : SPState F) : String :=
  stateStringOr acc state (key env "command_type") "UNKNOWN"

/-- From the keys that were fetched to a command and its script. -/
def prepare (state : SPState F) : Except Stop (RobotCommand F × String) :=
  let ct := commandType acc env state
  (Except.require (missing env state = [])
    (.failed ("missing or unreadable request keys: "
      ++ ", ".intercalate (missing env state)))).bind fun _ =>
  (Except.require (ct ++ ".script" ∈ env.templateNames)
    (.failed s!"unknown command_type '{ct}'")).bind fun _ =>
  (readRequest acc env state).bind fun raw =>
  (requestFrames env ct raw).bind fun frames =>
  (readWaypoints env state).bind fun waypointsRaw =>
  (waypointsWithFrames env raw 2 frames.2 waypointsRaw).bind fun done =>
  (planned env (robotCommand ct raw frames.1 done.2 done.1)).bind fun command =>
  ((env.render command).mapError
    fun e => Stop.failed s!"failed to render the UR Script template: {e}").map
      fun script => (command, script)

end CommandServer

end UrRedisDriver
