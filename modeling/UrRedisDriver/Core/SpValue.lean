import UrRedisDriver.Core.Structs
import UrRedisDriver.Lib.Result

/-!
# Values in Redis

What a client can store under a key, as `micro_sp` hands it over, and how a list of
waypoints is decoded from it.
-/

namespace UrRedisDriver

/-- A value as `micro_sp` stores it. `none` is the `UNKNOWN` of its type. -/
inductive SPValue (F : Type)
  | bool (b : Option Bool)
  | float64 (x : Option F)
  | int64 (n : Option Int)
  | string (s : Option String)
  | array (vs : Option (List (SPValue F)))
  | map (entries : Option (List (SPValue F × SPValue F)))
  /-- A time or a transform: no request is read from one. -/
  | other

/-- The keys that were fetched and could be read, and their values. -/
abbrev SPState (F : Type) := String → Option (SPValue F)

/-- A waypoint as decoded, with the names of its frames. -/
structure WaypointRaw (F : Type) where
  acceleration : F
  velocity : F
  globalAccelerationScaling : F
  globalVelocityScaling : F
  useExecutionTime : Bool
  executionTime : F
  useBlendRadius : Bool
  blendRadius : F
  useJointPositions : Bool
  jointPositions : List F
  usePreferredJointConfig : Bool
  preferredJointConfig : List F
  useRelativePose : Bool
  relativePose : List F
  usePayload : Bool
  payload : String
  baseframeId : String
  faceplateId : String
  goalFeatureId : String
  tcpId : String
  rootFrameId : String
  forceThreshold : F
  useLinearMotion : Bool

namespace SPValue

variable {F : Type}

/-- The text of a string value. -/
def text : SPValue F → Option String
  | .string s => s
  | _ => none

/-- The truth value of a boolean one. -/
def flag : SPValue F → Option Bool
  | .bool b => b
  | _ => none

variable [IntCast F]

/-- The number of a float or an integer value: `as f64` for the latter. -/
def number : SPValue F → Option F
  | .float64 x => x
  | .int64 n => n.map fun (k : Int) => (k : F)
  | _ => none

/-- The numbers of the elements, if each is one. -/
def numbers : List (SPValue F) → Option (List F)
  | [] => some []
  | v :: vs => v.number.bind fun x => (numbers vs).map fun xs => x :: xs

/-- What `get_f64_vec` makes of the value it finds. -/
def f64Vec : SPValue F → Option (List F)
  | .array (some vs) => numbers vs
  | _ => none

end SPValue

namespace WaypointRaw

variable {F : Type}

/-- `get_val`: the first entry with that key. -/
def getVal (entries : List (SPValue F × SPValue F)) (k : String) : Option (SPValue F) :=
  (entries.find? fun e => e.1.text = some k).map Prod.snd

variable [IntCast F]

/-- Decode one waypoint. Any field that fails to decode fails the waypoint. -/
def decode : SPValue F → Option (WaypointRaw F)
  | .map (some entries) => do
      let getF64 (k : String) := (getVal entries k).bind SPValue.number
      let getBool (k : String) := (getVal entries k).bind SPValue.flag
      let getString (k : String) := (getVal entries k).bind SPValue.text
      let getF64Vec (k : String) := (getVal entries k).bind SPValue.f64Vec
      -- an optional field has a default, whatever is stored in its place
      let getBoolOr (k : String) (default : Bool) := (getBool k).getD default
      let useJointPositions ← getBool "use_joint_positions"
      let acceleration ← getF64 "acceleration"
      let velocity ← getF64 "velocity"
      let globalAccelerationScaling ← getF64 "global_acceleration_scaling"
      let globalVelocityScaling ← getF64 "global_velocity_scaling"
      let useExecutionTime ← getBool "use_execution_time"
      let executionTime ← getF64 "execution_time"
      let useBlendRadius ← getBool "use_blend_radius"
      let blendRadius ← getF64 "blend_radius"
      let jointPositions ← getF64Vec "joint_positions"
      let usePreferredJointConfig ← getBool "use_preferred_joint_config"
      let preferredJointConfig ← getF64Vec "preferred_joint_config"
      let useRelativePose ← getBool "use_relative_pose"
      let relativePose ← getF64Vec "relative_pose"
      let usePayload ← getBool "use_payload"
      let payload ← getString "payload"
      let baseframeId ← getString "baseframe_id"
      let faceplateId ← getString "faceplate_id"
      -- moving to joint positions needs no goal frame
      let goalFeatureId ← if useJointPositions then some "" else getString "goal_feature_id"
      let tcpId ← getString "tcp_id"
      let rootFrameId ← getString "root_frame_id"
      let forceThreshold ← getF64 "force_threshold"
      some
        { acceleration, velocity, globalAccelerationScaling, globalVelocityScaling
          useExecutionTime, executionTime, useBlendRadius, blendRadius, useJointPositions
          jointPositions, usePreferredJointConfig, preferredJointConfig, useRelativePose
          relativePose, usePayload, payload, baseframeId, faceplateId, goalFeatureId, tcpId
          rootFrameId, forceThreshold
          useLinearMotion := getBoolOr "use_linear_motion" false }
  | _ => none

/-- Decode every element. -/
def decodeAll : List (SPValue F) → Option (List (WaypointRaw F))
  | [] => some []
  | v :: vs => (decode v).bind fun wp => (decodeAll vs).map fun wps => wp :: wps

/-- Decode a list of waypoints, as a whole or not at all. -/
def vecFromSpValue : Option (SPValue F) → Option (List (WaypointRaw F))
  | some (.array (some vs)) => decodeAll vs
  | _ => none

end WaypointRaw

end UrRedisDriver
