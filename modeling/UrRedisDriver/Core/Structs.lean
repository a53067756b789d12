import UrRedisDriver.Core.DashboardTypes
import Mathlib.Algebra.Order.Ring.Int

/-!
# The data shared between the driver's tasks

`F` stands for `f64`. Nothing in the driver's tasks computes with it: joint vectors and
speeds are decoded, stored and handed on.

A `tokio` channel is named by the receiver it belongs to. Every goal has one cancel and one
resume channel, so those are named by the goal's number; every *attempt* of a goal makes
its own goal, handshake and feedback channels, so those are named by a `Chan`. A field of
type `Option Chan` holding `some ch` is the sending half of that channel sitting in
`DriverState`; overwriting the field drops that half.
-/

namespace UrRedisDriver

/-- The channels one attempt of one goal was started with. -/
structure Chan where
  /-- Which goal, counting acceptances. -/
  goal : Nat
  /-- Which pass through the attempt loop of `handle_request`. -/
  attempt : Nat
  deriving DecidableEq, Repr

/-- One waypoint as the templates read it. -/
structure Waypoint (F : Type) where
  acceleration : F
  velocity : F
  globalAccelerationScaling : F
  globalVelocityScaling : F
  useExecutionTime : Bool
  executionTime : F
  useBlendRadius : Bool
  blendRadius : F
  useJointPositions : Bool
  jointPositions : List F
  usePreferredJointConfig : Bool
  preferredJointConfig : List F
  usePayload : Bool
  payload : String
  targetInBase : String
  relativePose : List F
  tcpInFaceplate : String
  forceThreshold : F
  /-- Travel to this waypoint by `movel` rather than `movej`. -/
  useLinearMotion : Bool

/-- One motion command as the templates read it. -/
structure RobotCommand (F : Type) where
  commandType : String
  acceleration : F
  velocity : F
  globalAccelerationScaling : F
  globalVelocityScaling : F
  useExecutionTime : Bool
  executionTime : F
  useBlendRadius : Bool
  blendRadius : F
  useJointPositions : Bool
  jointPositions : List F
  usePreferredJointConfig : Bool
  preferredJointConfig : List F
  usePayload : Bool
  payload : String
  targetInBase : String
  relativePose : List F
  tcpInFaceplate : String
  forceThreshold : F
  reportWaypointProgress : Bool
  /-- Name of a stored trajectory; empty means "plan from `waypoints`". -/
  trajectoryId : String
  waypoints : List (Waypoint F)

/-- The driver's shared state, behind one mutex. -/
structure DriverState (F : Type) where
  connected : Bool
  dashboardConnected : Bool
  remoteControl : Bool
  goalId : Option String
  goalSender : Option Chan
  handshakeSender : Option Chan
  feedbackSender : Option Chan
  safetyMode : Int
  robotMode : Int
  programStateRaw : Int
  programState : String
  programRunning : Bool
  operationalMode : String
  jointValues : List F
  jointSpeeds : List F
  tcpPose : List F
  speedScaling : F
  digitalInputs : Nat
  digitalOutputs : Nat
  forces : List F
  /-- The goal whose cancel channel this is the sender of. -/
  cancelSender : Option Nat
  motionPaused : Bool
  activeCommand : Option (RobotCommand F)
  waypointsCompleted : Nat
  reissuing : Bool
  /-- The goal whose resume channel this is the sender of. -/
  resumeSender : Option Nat
  identity : Option DashboardIdentity

def DriverState.new {F : Type} [Zero F] : DriverState F where
  connected := false
  dashboardConnected := false
  remoteControl := false
  goalId := none
  goalSender := none
  handshakeSender := none
  feedbackSender := none
  safetyMode := 0
  robotMode := 0
  programStateRaw := 0
  programState := "UNKNOWN"
  programRunning := false
  operationalMode := "UNKNOWN"
  jointValues := []
  jointSpeeds := []
  tcpPose := []
  speedScaling := 0
  digitalInputs := 0
  digitalOutputs := 0
  forces := []
  cancelSender := none
  motionPaused := false
  activeCommand := none
  waypointsCompleted := 0
  reissuing := false
  resumeSender := none
  identity := none

/-- UR safety mode (RT packet offset 812), as a name. -/
def safetyModeName (mode : Int) : String := (SafetyMode.fromRt mode).asStr

/-- UR robot mode (RT packet offset 756), as a name. -/
def robotModeName (mode : Int) : String := (RobotMode.fromRt mode).asStr

/-- Safety modes in which an in-flight goal can no longer complete. -/
def safetyModeAbortsGoal (mode : Int) : Bool := (SafetyMode.fromRt mode).abortsGoal

/-- Safety modes in which a new motion request may be accepted. -/
def safetyModeAcceptsGoal (mode : Int) : Bool := (SafetyMode.fromRt mode).acceptsGoal

/-- What a request has come to, in `{robot}_request_state`. -/
inductive ActionRequestState
  | initial | executing | succeeded | failed
  /-- Anything else a client may have written there. -/
  | other (s : String)
  deriving DecidableEq, Repr

/-- The request is over. -/
def ActionRequestState.terminal : ActionRequestState → Bool
  | .succeeded | .failed => true
  | _ => false

/-- What is configured about one arm and its URDF. -/
structure URDFParameters where
  name : String
  /-- Put in front of every frame as it stands, separator included. -/
  tfPrefix : String

/-- This robot's name for a URDF link. -/
def URDFParameters.frame (params : URDFParameters) (name : String) : String :=
  if params.tfPrefix.isEmpty then name else params.tfPrefix ++ name

theorem URDFParameters.frame_eq (params : URDFParameters) (name : String) :
    params.frame name = params.tfPrefix ++ name := by
  unfold frame
  split
  · rename_i h
    rw [String.isEmpty_iff.mp h, String.empty_append]
  · rfl

/-- Two links never share a frame. -/
theorem URDFParameters.frame_injective (params : URDFParameters) :
    Function.Injective params.frame := by
  intro a b h
  rw [params.frame_eq, params.frame_eq] at h
  exact (String.append_right_inj _).mp h

end UrRedisDriver
