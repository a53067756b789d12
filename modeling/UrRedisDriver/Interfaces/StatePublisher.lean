import UrRedisDriver.Core.SpValue
import UrRedisDriver.Lib.FrameTree
import UrRedisDriver.Trajectory.Frames
import Mathlib.Algebra.Order.AbsoluteValue.Basic

/-!
# The state publisher

Every tick takes a snapshot of the driver's state and writes what is new of it: the measured
state, and the joint values together with the frames of the arm. Each of the two has a guard
of its own. What a write comes to is not looked at, so a tick is the writes it hands to
Redis. `F` stands for `f64`, and `G` for the isometries of the `k` crate.
-/

namespace UrRedisDriver

/-- What the source takes from the floating-point library. -/
structure Numerics (F : Type) where
  pi : F
  /-- `f64::EPSILON` -/
  epsilon : F
  sqrt : F → F

/-! ## Transforms in Redis -/

structure SPTranslation (F : Type) where
  x : F
  y : F
  z : F

structure SPRotation (F : Type) where
  x : F
  y : F
  z : F
  w : F

structure SPTransform (F : Type) where
  translation : SPTranslation F
  rotation : SPRotation F

structure SPTransformStamped (F : Type) where
  activeTransform : Bool
  enableTransform : Bool
  timeStamp : Nat
  parentFrameId : String
  childFrameId : String
  transform : SPTransform F
  /-- `none` is `UNKNOWN`. -/
  metadata : Option (List (SPValue F × SPValue F))

/-- What a tick hands to Redis. -/
inductive Write (F : Type)
  /-- `StateManager::set_state` -/
  | state (entries : List (String × SPValue F))
  /-- `StateManager::set_sp_value` -/
  | value (key : String) (v : SPValue F)
  /-- `TransformsManager::insert_transforms` -/
  | transforms (ts : List (SPTransformStamped F))

/-- Numbers as a value. -/
def SPValue.ofNumbers {F : Type} (values : List F) : SPValue F :=
  .array (some (values.map fun x => .float64 (some x)))

/-! ## The measured state -/

/-- Everything that is decoded but the joint angles, and the connection flags. -/
structure MeasuredState (F : Type) where
  safetyMode : Int
  robotMode : Int
  programState : String
  programRunning : Bool
  tcpPose : List F
  forces : List F
  speedScaling : F
  digitalInputs : Nat
  digitalOutputs : Nat
  robotConnected : Bool
  dashboardConnected : Bool
  remoteControl : Bool
  operationalMode : String
  motionPaused : Bool
  /-- `none` while the dashboard socket is down. -/
  identity : Option DashboardIdentity

/-- The measured state in a snapshot. -/
def MeasuredState.ofDriver {F : Type} (ds : DriverState F) : MeasuredState F where
  safetyMode := ds.safetyMode
  robotMode := ds.robotMode
  programState := ds.programState
  programRunning := ds.programRunning
  tcpPose := ds.tcpPose
  forces := ds.forces
  speedScaling := ds.speedScaling
  digitalInputs := ds.digitalInputs
  digitalOutputs := ds.digitalOutputs
  robotConnected := ds.connected
  dashboardConnected := ds.dashboardConnected
  remoteControl := ds.remoteControl
  operationalMode := ds.operationalMode
  motionPaused := ds.motionPaused
  identity := ds.identity

section Measured

variable {F : Type} [Field F] [LinearOrder F]

/-- Force change, in newtons, that counts as news. -/
def forceEpsilon : F := 0.25

/-- Pose change, in metres/radians, that counts as news. -/
def poseEpsilon : F := 1e-4

/-- The readings differ in length or in any element by more than `eps`. -/
def exceeds (current previous : List F) (eps : F) : Bool :=
  current.length != previous.length
    || (current.zip previous).any fun ab => decide (|ab.1 - ab.2| > eps)

/-- Enough has changed to be worth a write. -/
def MeasuredState.differsFrom (num : Numerics F) (s : MeasuredState F) :
    Option (MeasuredState F) → Bool
  | none => true
  | some previous =>
      (s.safetyMode != previous.safetyMode
        || s.robotMode != previous.robotMode
        || s.programState != previous.programState
        || s.programRunning != previous.programRunning
        || s.digitalInputs != previous.digitalInputs
        || s.digitalOutputs != previous.digitalOutputs
        || s.robotConnected != previous.robotConnected
        || s.dashboardConnected != previous.dashboardConnected
        || s.remoteControl != previous.remoteControl
        || s.operationalMode != previous.operationalMode
        || s.motionPaused != previous.motionPaused
        || s.identity != previous.identity)
      || decide (|s.speedScaling - previous.speedScaling| > num.epsilon)
      || exceeds s.forces previous.forces forceEpsilon
      || exceeds s.tcpPose previous.tcpPose poseEpsilon

/-- Magnitude of the translational part of the TCP force. -/
def forceFeedback (num : Numerics F) : List F → F
  | x :: y :: z :: _ => num.sqrt (x ^ 2 + y ^ 2 + z ^ 2)
  | _ => 0

/-- The measured state, in one write. -/
def publishMeasuredState (num : Numerics F) (robotId : String) (measured : MeasuredState F) :
    Write F :=
  let key (suffix : String) : String := s!"{robotId}_{suffix}"
  let identity := measured.identity.getD {}
  .state
    [ (key "safety_mode", .string (some (safetyModeName measured.safetyMode))),
      (key "robot_mode", .string (some (robotModeName measured.robotMode))),
      (key "program_state", .string (some measured.programState)),
      (key "program_running", .bool (some measured.programRunning)),
      (key "tcp_pose", .ofNumbers measured.tcpPose),
      (key "tcp_force", .ofNumbers measured.forces),
      (key "force_feedback", .float64 (some (forceFeedback num measured.forces))),
      (key "speed_scaling", .float64 (some measured.speedScaling)),
      (key "digital_inputs", .int64 (some measured.digitalInputs)),
      (key "digital_outputs", .int64 (some measured.digitalOutputs)),
      (key "robot_connected", .bool (some measured.robotConnected)),
      (key "dashboard_connected", .bool (some measured.dashboardConnected)),
      (key "remote_control", .bool (some measured.remoteControl)),
      (key "operational_mode", .string (some measured.operationalMode)),
      (key "motion_paused", .bool (some measured.motionPaused)),
      (key "robot_model", .string (some identity.robotModel)),
      (key "serial_number", .string (some identity.serialNumber)),
      (key "polyscope_version", .string (some identity.polyscopeVersion))]

end Measured

/-! ## The frames of the arm -/

/-- The frames this driver owns: the link each hangs on, and its own link. -/
def relations : List (String × String) :=
  [ ("base_link", "base_link_inertia"), ("base_link_inertia", "shoulder_link"),
    ("shoulder_link", "upper_arm_link"), ("upper_arm_link", "forearm_link"),
    ("forearm_link", "wrist_1_link"), ("wrist_1_link", "wrist_2_link"),
    ("wrist_2_link", "wrist_3_link"), ("wrist_3_link", "flange"), ("wrist_3_link", "ft_frame"),
    ("flange", "tool0")]

/--
A `k::Chain`, as far as the publisher uses it: its nodes in the order of `iter`, and what is
done to its state `C`, which the crate keeps behind a lock.
-/
structure Chain (F G N C : Type) where
  nodes : List N
  joint : N → String
  link : N → Option String
  parent : N → Option N
  setJointPositions : C → List F → C × Except String Unit
  updateLinkTransforms : C → C
  worldTransform : C → N → Option G

/-- The name of a node: its link's, else its joint's. -/
def Chain.frameName {F G N C : Type} (chain : Chain F G N C) (node : N) : String :=
  (chain.link node).getD (chain.joint node)

/-- What the publisher is started with. -/
structure PublisherEnv (F G N C : Type) where
  num : Numerics F
  robotParams : URDFParameters
  chain : Chain F G N C
  isometryToSpTransform : G → SPTransform F
  /-- `SPTransform::default` -/
  defaultTransform : SPTransform F

/-- What the publisher keeps from tick to tick. -/
structure Publisher (F C : Type) where
  chain : C
  lastPublishedJoints : Option (List F)
  lastMeasured : Option (MeasuredState F)

/-- The publisher before its first tick. -/
def Publisher.start {F C : Type} (chain : C) : Publisher F C := ⟨chain, none, none⟩

/-- The frame of a relation as it is seeded. -/
def seedTransform {F : Type} (params : URDFParameters) (default : SPTransform F)
    (now : String → Nat) (r : String × String) : SPTransformStamped F where
  activeTransform := true
  enableTransform := true
  timeStamp := now r.2
  parentFrameId := params.frame r.1
  childFrameId := params.frame r.2
  transform := default
  metadata := none

/-- What is looked up by the bare name of a link, with prefixed frames in it. -/
abbrev RobotTransforms (F : Type) := String → Option (SPTransformStamped F)

/-- Seed the frames, and hand them back by the name of the URDF link. -/
def initializeRobotTransforms {F : Type} (params : URDFParameters) (default : SPTransform F)
    (now : String → Nat) : RobotTransforms F × Write F :=
  ((Rows.latest Prod.snd relations · |>.map (seedTransform params default now)),
    .transforms (relations.map (seedTransform params default now)))

section Tick

variable {F G N C : Type} [Group G] (env : PublisherEnv F G N C)

/-- The motion to a node from the node it hangs on. -/
def relativeTransform (c : C) (node : N) : G :=
  let childWorld := (env.chain.worldTransform c node).getD 1
  match env.chain.parent node with
  | some parent => ((env.chain.worldTransform c parent).getD 1)⁻¹ * childWorld
  | none => childWorld

/-- The frame of a node with its current motion, if it is one of the driver's. -/
def updatedTransform (robotTransforms : RobotTransforms F) (now : N → Nat) (c : C) (node : N) :
    Option (SPTransformStamped F) :=
  -- Where the base sits is for the scene to say.
  if env.chain.frameName node = "base_link" then none
  else
    (robotTransforms (env.chain.frameName node)).map fun template =>
      { template with
        transform := env.isometryToSpTransform (relativeTransform env c node)
        timeStamp := now node }

/-- Publish the current frames in one write, unless the chain refuses the joints. -/
def publishRobotTransforms (robotTransforms : RobotTransforms F) (now : N → Nat) (c : C)
    (joints : List F) : C × List (Write F) :=
  match env.chain.setJointPositions c joints with
  | (c, .error _) => (c, [])
  | (c, .ok _) =>
      let c := env.chain.updateLinkTransforms c
      let ts := env.chain.nodes.filterMap (updatedTransform env robotTransforms now c)
      (c, if ts.isEmpty then [] else [.transforms ts])

def publishJointStates (robotId : String) (joints : List F) : Write F :=
  .value s!"{robotId}_joint_states" (.ofNumbers joints)

variable [Field F] [LinearOrder F]

/-- The joints the chain is set to: half a turn on the first. -/
def jointsForTf : List F → List F
  | [] => []
  | q :: qs => (q + env.num.pi) :: qs

/-- The write of the measured state, if it is news. -/
def tickMeasured (p : Publisher F C) (ds : DriverState F) : Publisher F C × List (Write F) :=
  let measured := MeasuredState.ofDriver ds
  if measured.differsFrom env.num p.lastMeasured then
    ({ p with lastMeasured := some measured },
      [publishMeasuredState env.num env.robotParams.name measured])
  else (p, [])

/-- The writes of the joints and of the frames, if the joints are news. -/
def tickJoints (robotTransforms : RobotTransforms F) (now : N → Nat) (p : Publisher F C)
    (joints : List F) : Publisher F C × List (Write F) :=
  if p.lastPublishedJoints = some joints then (p, [])
  else
    let published := publishRobotTransforms env robotTransforms now p.chain (jointsForTf env joints)
    ({ p with chain := published.1, lastPublishedJoints := some joints },
      publishJointStates env.robotParams.name joints :: published.2)

/-- One tick of `state_publisher` on a snapshot of the driver's state. -/
def Publisher.tick (robotTransforms : RobotTransforms F) (now : N → Nat) (p : Publisher F C)
    (ds : DriverState F) : Publisher F C × List (Write F) :=
  let measured := tickMeasured env p ds
  let joints := tickJoints env robotTransforms now measured.1 ds.jointValues
  (joints.1, measured.2 ++ joints.2)

end Tick

noncomputable section

/-- The numbers of the source, not rounded. -/
def Numerics.real : Numerics ℝ where
  pi := Real.pi
  epsilon := 1 / 2 ^ 52
  sqrt := Real.sqrt

/-- An isometry by its numbers. -/
def isometryToSpTransform (isometry : Pose) : SPTransform ℝ where
  translation := ⟨isometry.trans 0, isometry.trans 1, isometry.trans 2⟩
  rotation :=
    { w := isometry.rot.1.re
      x := isometry.rot.1.imI
      y := isometry.rot.1.imJ
      z := isometry.rot.1.imK }

/-- The publisher of one arm, over the real numbers. -/
def PublisherEnv.real {N C : Type} (robotParams : URDFParameters) (chain : Chain ℝ Pose N C)
    (defaultTransform : SPTransform ℝ) : PublisherEnv ℝ Pose N C where
  num := .real
  robotParams := robotParams
  chain := chain
  isometryToSpTransform := UrRedisDriver.isometryToSpTransform
  defaultTransform := defaultTransform

end

end UrRedisDriver
