import UrRedisDriver.Core.SpValue

/-!
# What is in Redis from the start

The keys one driver keeps, and what they are seeded with before any of its tasks runs. Behind
the name of the robot and an underscore stands the same suffix for every robot.
-/

namespace UrRedisDriver

variable {F : Type}

/-- A key of a robot. -/
def robotKey (robotName suffix : String) : String := s!"{robotName}_{suffix}"

/-- The keys of a robot, without its name, and what they are seeded with. -/
def interfaceSeeds : List (String × SPValue F) :=
  [ ("request_trigger", .bool (some false)), ("request_state", .string (some "initial")),
    ("request_cancel", .bool (some false)), ("request_result", .string none),
    ("request_feedback", .string none), ("dashboard_request_trigger", .bool (some false)),
    ("dashboard_request_state", .string (some "initial")),
    ("dashboard_request_cancel", .bool (some false)), ("dashboard_command", .string none),
    ("dashboard_command_arg", .string none), ("dashboard_request_result", .string none),
    ("total_fail_counter", .int64 (some 0)), ("subsequent_fail_counter", .int64 (some 0)),
    ("command_type", .string none), ("acceleration", .float64 none), ("velocity", .float64 none),
    ("global_acceleration_scaling", .float64 none), ("global_velocity_scaling", .float64 none),
    ("use_execution_time", .bool none), ("execution_time", .float64 none),
    ("use_blend_radius", .bool none), ("blend_radius", .float64 none),
    ("use_joint_positions", .bool none), ("joint_positions", .array none),
    ("joint_states", .array none), ("use_preferred_joint_config", .bool none),
    ("preferred_joint_config", .array none), ("use_payload", .bool none),
    ("payload", .string none), ("baseframe_id", .string none), ("faceplate_id", .string none),
    ("goal_feature_id", .string none), ("tcp_id", .string none), ("root_frame_id", .string none),
    ("cancel_current_goal", .bool none), ("estimated_position", .string none),
    ("force_threshold", .float64 none), ("force_feedback", .float64 none),
    ("use_relative_pose", .bool none), ("relative_pose", .array none),
    ("gripper_force", .float64 none), ("gripper_velocity", .float64 none),
    ("gripper_ref_pos_percentage", .int64 none), ("waypoints", .array none),
    ("report_waypoint_progress", .bool (some true)), ("trajectory_id", .string (some "")),
    ("safety_mode", .string none), ("robot_mode", .string none), ("program_state", .string none),
    ("program_running", .bool (some false)), ("tcp_pose", .array none),
    ("tcp_force", .array none), ("speed_scaling", .float64 none),
    ("digital_inputs", .int64 none), ("digital_outputs", .int64 none),
    ("robot_connected", .bool (some false)), ("dashboard_connected", .bool (some false)),
    ("remote_control", .bool (some false)), ("operational_mode", .string none),
    ("motion_paused", .bool (some false)), ("robot_model", .string none),
    ("serial_number", .string none), ("polyscope_version", .string none)]

/-- The state that is set at the start. -/
def generateRobotInterfaceState (robotName : String) : List (String × SPValue F) :=
  interfaceSeeds.map fun e => (robotKey robotName e.1, e.2)

/-- What stands behind the name of a robot in its keys. -/
def interfaceSuffixes : List String := (interfaceSeeds (F := Unit)).map Prod.fst

end UrRedisDriver
