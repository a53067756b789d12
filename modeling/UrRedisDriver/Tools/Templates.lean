import Mathlib.Algebra.Field.Defs
import Mathlib.Algebra.Group.Defs
import Mathlib.Order.Defs.LinearOrder
import UrRedisDriver.Core.Structs
import UrRedisDriver.Lib.Literals
import UrRedisDriver.Lib.MoveProgram

/-!
# The moves of the shipped templates

Each template in `templates/`, as the moves its script makes of a command: where every `movej`
and `movel` is told to go, and what has to be answered before the script gets to it. Speeds,
tool and payload settings, digital outputs and the lines sent back are left out, and so are
`force_mode` and `freedrive_mode`, which give the arm no pose to go to.

`{{ relative_pose }}` is composed with `get_forward_kin()`, the pose the arm has when the line
runs. A move in a thread next to a force monitor may be stopped before it gets there.
-/

namespace UrRedisDriver

open scoped Literals

/-- Where a move is told to go. -/
inductive Target (F P : Type)
  | joints (q : List F)
  /-- A pose in the base frame, as the request has it. -/
  | base (target : String)
  /-- A pose composed with one of the arm's. -/
  | pose (p : P)
  /-- The joint positions the arm has at a pose, each of them offset. -/
  | nudged (p : P) (offsets : List F)

/-- What a script asks before it goes on. -/
inductive Question (F : Type)
  /-- `get_inverse_kin_has_solution`, near a joint configuration if there is one. -/
  | hasSolution (qnear : Option (List F))
  /-- `is_within_safety_limits`. -/
  | withinSafetyLimits
  /-- The target is a millimetre or more from the origin of the base. -/
  | isSet
  /-- `cl_wait_steady`. -/
  | steady
  /-- The move before was stopped by its force monitor. -/
  | contact
  /-- The move before was not stopped by its force monitor. -/
  | noContact
  /-- No feature found, and not timed out. -/
  | searching
  /-- No offset of a joint is larger than `max_joint_step`. -/
  | smallSteps (offsets : List F)

/-- What the controller makes of six numbers after a `p`, and of two of its functions. -/
structure UrScript (F P : Type) where
  pose : List F → P
  cos : F → F
  sin : F → F

abbrev Program (F P : Type) := List (Instr P (Target F P) (Question F))

namespace Templates

variable {F P : Type} [Field F] [LinearOrder F] [Mul P] (u : UrScript F P)

/-! ## Places -/

/-- `pose_trans(get_forward_kin(), p…)`. -/
def fromHere (offset : List F) : Place P (Target F P) :=
  .seen fun here _ => .pose (here * u.pose offset)

/-- `pose_trans(cl_start, p…)`. -/
def fromStart (offset : List F) : Place P (Target F P) :=
  .seen fun _ noted => .pose (noted * u.pose offset)

/-- `{{ target_in_base }}`. -/
def targetInBase (c : RobotCommand F) : Place P (Target F P) := .fixed (.base c.targetInBase)

/-- `{{ joint_positions }}`. -/
def jointPositions (c : RobotCommand F) : Place P (Target F P) :=
  .fixed (.joints c.jointPositions)

/-- `qnear={{ preferred_joint_config }}`, where it is there. -/
def qnear (c : RobotCommand F) : Option (List F) :=
  if c.usePreferredJointConfig then some c.preferredJointConfig else none

/-- The same of a waypoint. -/
def waypointQnear (wp : Waypoint F) : Option (List F) :=
  if wp.usePreferredJointConfig then some wp.preferredJointConfig else none

def waypointInBase (wp : Waypoint F) : Place P (Target F P) := .fixed (.base wp.targetInBase)

/-- Where a waypoint sends the arm. -/
def waypointTarget (wp : Waypoint F) : Place P (Target F P) :=
  if wp.useJointPositions then .fixed (.joints wp.jointPositions) else waypointInBase wp

/-! ## Moves -/

/-- A move to `joint_positions`, or to `target_in_base` once the questions about it are
answered. -/
def jointsOrTarget (c : RobotCommand F) (questions : List (Question F)) : Program F P :=
  if c.useJointPositions then [.move (jointPositions c)]
  else questions.map (fun q => .ask q (some (targetInBase c))) ++ [.move (targetInBase c)]

/-- A move to a place once the questions about it are answered. -/
def checkedMove (questions : List (Question F)) (dest : Place P (Target F P)) : Program F P :=
  questions.map (fun q => .ask q (some dest)) ++ [.move dest]

/-- The questions about the waypoints given as poses. -/
def validation (questions : Waypoint F → List (Question F)) (c : RobotCommand F) :
    Program F P :=
  c.waypoints.flatMap fun wp =>
    if wp.useJointPositions then []
    else (questions wp).map fun q => .ask q (some (waypointInBase wp))

/-- One move after the other. -/
def blended (c : RobotCommand F) : Program F P :=
  c.waypoints.map fun wp => .move (waypointTarget wp)

/-- One move after the other, until a force stops them. -/
def guarded (c : RobotCommand F) : Program F P :=
  c.waypoints.flatMap fun wp => [.move (waypointTarget wp), .ask .noContact none]

/-- A stroke that is stopped by contact, then one back that starts from there. -/
def strokes (down up : List F) : Program F P := [.move (fromHere u down), .move (fromHere u up)]

/-! ## Templates that move the arm to a place they are given -/

def unsafeMoveJ (c : RobotCommand F) : Program F P := jointsOrTarget c [.hasSolution (qnear c)]

def safeMoveJ (c : RobotCommand F) : Program F P := jointsOrTarget c [.hasSolution (qnear c)]

def unsafeMoveL (c : RobotCommand F) : Program F P := checkedMove [] (targetInBase c)

def safeMoveL (c : RobotCommand F) : Program F P := checkedMove [] (targetInBase c)

def claudeUnsafeMoveJ (c : RobotCommand F) : Program F P :=
  jointsOrTarget c [.hasSolution (qnear c), .withinSafetyLimits]

def claudeSafeMoveJ (c : RobotCommand F) : Program F P :=
  jointsOrTarget c [.withinSafetyLimits, .hasSolution (qnear c)]

def claudeUnsafeMoveL (c : RobotCommand F) : Program F P :=
  checkedMove [.hasSolution (qnear c), .withinSafetyLimits] (targetInBase c)

def claudeSafeMoveL (c : RobotCommand F) : Program F P :=
  checkedMove [.hasSolution (qnear c), .withinSafetyLimits] (targetInBase c)

def claudeHome (c : RobotCommand F) : Program F P :=
  checkedMove [.withinSafetyLimits] (jointPositions c)

def trajectoryUnsafeMoveJ (c : RobotCommand F) : Program F P :=
  validation (fun wp => [.hasSolution (waypointQnear wp)]) c ++ blended c

def trajectoryUnsafeMoveL (c : RobotCommand F) : Program F P :=
  validation (fun wp => [.hasSolution (waypointQnear wp)]) c ++ blended c

/-- What the `claude_` trajectories ask about a waypoint. -/
def claudeQuestions (wp : Waypoint F) : List (Question F) :=
  [.isSet, .hasSolution (waypointQnear wp), .withinSafetyLimits]

def claudeTrajectoryUnsafeMoveJ (c : RobotCommand F) : Program F P :=
  validation claudeQuestions c ++ blended c

def claudeTrajectoryUnsafeMoveL (c : RobotCommand F) : Program F P :=
  validation claudeQuestions c ++ blended c

def claudeTrajectorySafeMoveJ (c : RobotCommand F) : Program F P :=
  validation claudeQuestions c ++ guarded c

def claudeTrajectorySafeMoveL (c : RobotCommand F) : Program F P :=
  validation claudeQuestions c ++ guarded c

def optimalTrajectory (c : RobotCommand F) : Program F P :=
  c.waypoints.map (fun wp => .ask .withinSafetyLimits (some (.fixed (.joints wp.jointPositions))))
    ++ c.waypoints.map fun wp => .move (.fixed (.joints wp.jointPositions))

/-! ## Templates that move the arm from where it is -/

def unsafeMoveLRelative (c : RobotCommand F) : Program F P :=
  checkedMove [] (fromHere u c.relativePose)

def safeMoveLRelative (c : RobotCommand F) : Program F P :=
  checkedMove [] (fromHere u c.relativePose)

def claudeUnsafeMoveLRelative (c : RobotCommand F) : Program F P :=
  checkedMove [.hasSolution none, .withinSafetyLimits] (fromHere u c.relativePose)

def claudeSafeMoveLRelative (c : RobotCommand F) : Program F P :=
  checkedMove [.hasSolution none, .withinSafetyLimits] (fromHere u c.relativePose)

/-- `relative_pose` is taken for six joint offsets. -/
def claudeMoveJRelative (c : RobotCommand F) : Program F P :=
  .ask (.smallSteps c.relativePose) none
    :: checkedMove [.withinSafetyLimits] (.seen fun here _ => .nudged here c.relativePose)

def pickVacuum (_ : RobotCommand F) : Program F P :=
  strokes u [0, 0, 1 / 5, 0, 0, 0] [0, 0, -(1 / 10), 0, 0, 0]

def pickVacuumBroken (c : RobotCommand F) : Program F P :=
  strokes u c.relativePose c.relativePose

def placeVacuum (_ : RobotCommand F) : Program F P :=
  strokes u [0, 0, 1 / 5, 0, 0, 0] [0, 0, -(1 / 10), 0, 0, 0]

/-- A guarded stroke, refused without a force to guard it. -/
def search (c : RobotCommand F) (rest : Program F P) : Program F P :=
  if c.forceThreshold ≤ 0 then []
  else checkedMove [.hasSolution none, .withinSafetyLimits] (fromHere u c.relativePose) ++ rest

/-- Back by `retract_distance` once there was contact. -/
def retract : Program F P :=
  .ask .contact none
    :: checkedMove [.hasSolution none, .withinSafetyLimits]
      (fromHere u [0, 0, -(1 / 10), 0, 0, 0])

def claudeMoveUntilContact (c : RobotCommand F) : Program F P := search u c []

def claudePickVacuum (c : RobotCommand F) : Program F P := search u c (retract u)

def claudePlaceVacuum (c : RobotCommand F) : Program F P := search u c (retract u)

/-- `cl_theta` at the `k`-th point of the spiral. -/
def spiralAngle (k : Nat) : F := k * (3 / 10)

/-- `cl_theta_max`. -/
def spiralAngleMax : F := 2 * (314159265358979 / 100000000000000) * 4

/-- The `k`-th point of the spiral, in the frame of `cl_start`. -/
def spiralPoint (k : Nat) : List F :=
  let theta := spiralAngle k
  let radius := 6 / 1000 * theta / spiralAngleMax
  [radius * u.cos theta, radius * u.sin theta, 0, 0, 0, 0]

/-- The last of the points is the last with `cl_theta <= cl_theta_max`. -/
def claudeSpiralSearch (_ : RobotCommand F) : Program F P :=
  .ask .steady none :: .note :: (List.range 84).flatMap fun k =>
    [.move (fromStart u (spiralPoint u k)), .ask .searching none]

/-! ## The table -/

/-- A template that moves nothing. -/
def still (_ : RobotCommand F) : Program F P := []

def stillTemplates : List (String × (RobotCommand F → Program F P)) :=
  [ "claude_check_reachable", "claude_force_mode_push", "claude_freedrive", "claude_get_force",
    "claude_get_state", "claude_lock_rsp", "claude_set_digital_out", "claude_set_payload",
    "claude_set_tcp", "claude_start_vacuum", "claude_stop", "claude_stop_vacuum",
    "claude_unlock_rsp", "claude_wait_digital_in", "claude_zero_ftsensor", "get_force",
    "lock_rsp", "set_payload", "start_vacuum", "stop_vacuum", "unlock_rsp"].map (·, still)

def absoluteTemplates : List (String × (RobotCommand F → Program F P)) :=
  [ ("claude_home", claudeHome),
    ("claude_safe_move_j", claudeSafeMoveJ),
    ("claude_safe_move_l", claudeSafeMoveL),
    ("claude_trajectory_safe_move_j", claudeTrajectorySafeMoveJ),
    ("claude_trajectory_safe_move_l", claudeTrajectorySafeMoveL),
    ("claude_trajectory_unsafe_move_j", claudeTrajectoryUnsafeMoveJ),
    ("claude_trajectory_unsafe_move_l", claudeTrajectoryUnsafeMoveL),
    ("claude_unsafe_move_j", claudeUnsafeMoveJ),
    ("claude_unsafe_move_l", claudeUnsafeMoveL),
    ("optimal_trajectory", optimalTrajectory),
    ("safe_move_j", safeMoveJ),
    ("safe_move_l", safeMoveL),
    ("trajectory_unsafe_move_j", trajectoryUnsafeMoveJ),
    ("trajectory_unsafe_move_l", trajectoryUnsafeMoveL),
    ("unsafe_move_j", unsafeMoveJ),
    ("unsafe_move_l", unsafeMoveL)]

def relativeTemplates : List (String × (RobotCommand F → Program F P)) :=
  [ ("claude_move_j_relative", claudeMoveJRelative),
    ("claude_safe_move_l_relative", claudeSafeMoveLRelative u),
    ("claude_unsafe_move_l_relative", claudeUnsafeMoveLRelative u),
    ("safe_move_l_relative", safeMoveLRelative u),
    ("unsafe_move_l_relative", unsafeMoveLRelative u)]

/-- The templates that move the arm from where it is under another name. -/
def strokeTemplates : List (String × (RobotCommand F → Program F P)) :=
  [ ("claude_move_until_contact", claudeMoveUntilContact u),
    ("claude_pick_vacuum", claudePickVacuum u),
    ("claude_place_vacuum", claudePlaceVacuum u),
    ("claude_spiral_search", claudeSpiralSearch u),
    ("pick_vacuum", pickVacuum u),
    ("pick_vacuum_broken", pickVacuumBroken u),
    ("place_vacuum", placeVacuum u)]

/-- The shipped templates, without the `.script` in their names. -/
def shipped : List (String × (RobotCommand F → Program F P)) :=
  stillTemplates ++ absoluteTemplates ++ relativeTemplates u ++ strokeTemplates u

/-- The moves of the script a command is rendered to, if its type names a shipped template. -/
def rendered (c : RobotCommand F) : Option (Program F P) :=
  ((shipped u).lookup c.commandType).map fun template => template c

end Templates

end UrRedisDriver
