import UrRedisDriver.Lib.Lts
import UrRedisDriver.World
import UrRedisDriver.Proof.Teardown
import UrRedisDriver.Proof.Release
import UrRedisDriver.Proof.Stale
import UrRedisDriver.Proof.Pairing
import UrRedisDriver.Proof.Cancel
import UrRedisDriver.Lib.Motion
import UrRedisDriver.Core.SpValue
import UrRedisDriver.Interfaces.Prepare
import UrRedisDriver.Lib.Angle
import UrRedisDriver.Lib.Course
import UrRedisDriver.Lib.MoveProgram
import UrRedisDriver.Lib.UnitQuaternion
import UrRedisDriver.Proof.Ahead
import UrRedisDriver.Proof.Decoding
import UrRedisDriver.Proof.Gates
import UrRedisDriver.Proof.Hold
import UrRedisDriver.Proof.Latch
import UrRedisDriver.Proof.Planner
import UrRedisDriver.Proof.Reissue
import UrRedisDriver.Proof.Sending
import UrRedisDriver.Proof.Tick
import UrRedisDriver.Proof.Tool
import UrRedisDriver.Proof.Waypoints
import UrRedisDriver.Lib.NearestWalk
import UrRedisDriver.Proof.Branches
import UrRedisDriver.Proof.Line
import UrRedisDriver.Proof.Speeds
import UrRedisDriver.Proof.Outcome
import UrRedisDriver.Proof.Ready
import UrRedisDriver.Proof.Measurements
import UrRedisDriver.Proof.Targets
import UrRedisDriver.Proof.Feedback
import UrRedisDriver.Proof.Published
import UrRedisDriver.Proof.Tight
import UrRedisDriver.Proof.Nearest
import UrRedisDriver.Proof.Differential
import UrRedisDriver.Proof.Durations
import UrRedisDriver.Proof.Visits
import UrRedisDriver.Proof.Stored
import UrRedisDriver.Proof.Whole
import UrRedisDriver.Proof.Stops
import UrRedisDriver.Proof.Stretched
import UrRedisDriver.Proof.Listener
import UrRedisDriver.Core.PoseText
import UrRedisDriver.Proof.Replies
import UrRedisDriver.Proof.Commands
import UrRedisDriver.Proof.PoseLiterals
import UrRedisDriver.Proof.Rotations
import UrRedisDriver.Proof.Framing
import UrRedisDriver.Proof.Freshness
import UrRedisDriver.Proof.Saving
import UrRedisDriver.Proof.Serving
import UrRedisDriver.Proof.Balance
import UrRedisDriver.Proof.Progress
import UrRedisDriver.Proof.Recovery
import UrRedisDriver.Proof.LeastTime
import UrRedisDriver.Proof.Offline
import UrRedisDriver.Proof.Parts
import UrRedisDriver.Proof.Answers
import UrRedisDriver.Proof.Reported
import UrRedisDriver.Proof.Cell
import UrRedisDriver.Interfaces.VisualTransforms
import UrRedisDriver.Proof.Standing
import UrRedisDriver.Proof.Attempts
