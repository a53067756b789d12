import UrRedisDriver.Interfaces.RequestKeys
import UrRedisDriver.Lib.Lts

/-!
# One motion goal: `handle_request`

The task of one accepted goal, on its own: what it does next is a function of where it is
and of what the operation it is waiting on resolved to. The other tasks only appear as the
values those operations resolve to, so a statement about every list of inputs is one about
every behaviour of everything else.

A phase is named after what the task is about to do. Between two phases there is an
`await` or the shared lock, so another task can run there.
-/

namespace UrRedisDriver

/-- How the attempt loop of `handle_request` was left, with what it broke out with. -/
inductive Exit
  /-- The realtime port could not be connected to. -/
  | connectFailed (e : String)
  /-- The script could not be written or flushed. -/
  | writeFailed (e : String)
  /-- The handshake was refused, its sender was dropped, or it timed out. -/
  | noHandshake
  /-- The goal channel resolved; `none` is a dropped sender. -/
  | verdict (v : Option Bool)
  /-- The stop of a cancel was answered. -/
  | stopAnswered (reply : DashboardReply)
  /-- The stop of a cancel could not be queued, or its reply was dropped. -/
  | stopUnanswered
  /-- `remaining_command` refused the resume. -/
  | notResumable (reason : String)
  /-- The remaining motion did not render. -/
  | notRendered (e : String)

inductive ResultType
  | aborted | canceled | succeded
  deriving DecidableEq, Repr

/-- The `(result_success, result_type, result_message)` triple of each `break`. -/
def Exit.result : Exit → Bool × ResultType × String
  | .connectFailed e =>
      (false, .aborted, "could not connect to the realtime port for writing: " ++ e)
  | .writeFailed e => (false, .aborted, "could not write the script to the robot: " ++ e)
  | .noHandshake => (false, .aborted, "the script never completed the handshake")
  | .verdict (some true) => (true, .succeded, "succeeded")
  | .verdict _ => (false, .aborted, "aborted before reaching the goal")
  | .stopAnswered reply => (reply.success, .canceled, "cancelled")
  | .stopUnanswered => (false, .aborted, "aborted before reaching the goal")
  | .notResumable reason => (false, .aborted, reason)
  | .notRendered e => (false, .aborted, "could not re-render the remaining motion: " ++ e)

/-- The terminal `request_state` a result type is published as. -/
def ResultType.requestState : ResultType → ActionRequestState
  | .aborted => .failed
  | .canceled => .succeeded
  | .succeded => .succeeded

/-- The terminal `request_state` an exit is published as. -/
def Exit.requestState (e : Exit) : ActionRequestState := e.result.2.1.requestState

/-- The message an exit is published with. -/
def Exit.message (e : Exit) : String := e.result.2.2

/--
The part of a command still left to run after `completed` waypoints. The error is meant
for `request_result`.
-/
def remainingCommand {F : Type} (command : RobotCommand F) (completed : Nat) :
    Except String (RobotCommand F) :=
  if Text.endsWith command.commandType "_relative" then
    .error (s!"cannot resume '{command.commandType}': re-issuing a relative-pose move would "
      ++ "apply the offset a second time from the paused pose. Cancel and submit a new "
      ++ "request instead")
  else if command.waypoints = [] then .ok command
  else if command.waypoints.length ≤ completed then
    .error s!"cannot resume '{command.commandType}': all {command.waypoints.length} waypoints were already reached"
  else .ok { command with waypoints := command.waypoints.drop completed }

/-- Where a goal's task is. -/
inductive Phase
  /-- Accepted by `command_server`, not spawned yet. -/
  | admitted
  | connecting
  | installing
  | writing
  | handshaking
  /-- In the `select!` on a running script. -/
  | waiting
  /-- Left it for a cancel; the stop is not queued yet. -/
  | cancelling
  | stopPending
  /-- Left it for a resume; about to read how far the script got. -/
  | measuring
  /-- About to set `reissuing`. -/
  | claiming
  /-- About to queue the stop of the paused script. -/
  | restopping
  | restopPending
  | draining
  /-- About to zero `waypoints_completed`. -/
  | resetting
  /-- About to store the remaining command. -/
  | activating
  /-- Out of the loop with a success: the three writes of the success path. -/
  | publishResult
  | publishState
  | publishCounter
  /-- Out of the loop with a failure. -/
  | failing (at_ : FailStep)
  | teardown
  | done
  deriving DecidableEq, Repr

/-- The task of one goal. -/
structure Task (F : Type) where
  phase : Phase
  uuid : String
  script : String
  command : RobotCommand F
  /-- Which pass through the attempt loop this is. -/
  attempt : Nat := 0
  /-- Keeps a closed feedback channel out of the `select!`. -/
  feedbackOpen : Bool := true
  /-- What a resume is about to run: the remaining command and its script. -/
  next : Option (RobotCommand F × String) := none
  /-- The reply channel of the stop in flight. -/
  stopRequest : Nat := 0
  /-- How the attempt loop was left. -/
  exit : Option Exit := none
  /-- History: some attempt's channels have been installed. -/
  installed : Bool := false
  /-- History: the attempt whose channels were the last ones installed. -/
  lastInstall : Nat := 0
  /-- History: how many scripts have been written to the robot. -/
  scripts : Nat := 0
  /-- History: the attempt whose script was the last one written. -/
  lastScript : Nat := 0
  /-- History: the terminal `request_state` that was written. -/
  published : Option ActionRequestState := none

/-- What `timeout(HANDSHAKE_TIMEOUT, handshake_receiver)` came back with. -/
inductive HandshakeWait
  | value (v : Bool)
  | dropped
  | timeout
  deriving DecidableEq, Repr

/-- What the operation a task was waiting on resolved to. -/
inductive TaskInput
  | connect (r : Except String Unit)
  /-- The critical section that installs the attempt's channels. -/
  | install
  | write (r : Except String Unit)
  | handshake (r : HandshakeWait)
  /-- The goal channel: its value, or `none` when its sender was dropped. -/
  | goal (v : Option Bool)
  | feedback (m : Option String)
  /-- The cancel channel returned, with a signal or because its sender is gone. -/
  | cancel
  /-- The resume channel returned, likewise. -/
  | resume
  /-- `try_send` of a `Stop`: the number of its reply channel, or `none` when refused. -/
  | sendStop (id : Option Nat)
  | stopReply (r : Option DashboardReply)
  /-- The count of finished waypoints read from `DriverState`. -/
  | measure (completed : Nat)
  | claim
  /-- The drain of the old goal channel; `none` is a timeout. -/
  | drain (v : Option (Option Bool))
  | reset
  | activate
  /-- One Redis operation of the terminal publication. -/
  | redis (keys : RequestKeys)
  | teardown

namespace Task

variable {F : Type}

/-- Break out of the attempt loop. -/
def leave (t : Task F) (e : Exit) : Task F :=
  { t with
    exit := some e
    phase := if e.requestState = .succeeded then .publishResult else .failing .read }

/-- The message the task publishes. -/
def message (t : Task F) : String := (t.exit.map Exit.message).getD ""

/-- The next Redis operation of the terminal publication, and where it leaves the task. -/
def redisOp (t : Task F) (keys : RequestKeys) : Option (RequestKeys × Task F) :=
  match t.phase with
  | .publishResult =>
      some ({ keys with requestResult := t.message }, { t with phase := .publishState })
  -- The streak is reset after the client has been given its answer.
  | .publishState =>
      some ({ keys with requestState := .succeeded },
        { t with phase := .publishCounter, published := some .succeeded })
  | .publishCounter =>
      some ({ keys with subsequentFailCounter := 0 }, { t with phase := .teardown })
  | .failing step =>
      match failRequest t.message keys step with
      | (keys', some step') => some (keys', { t with phase := .failing step' })
      | (keys', none) => some (keys', { t with phase := .teardown, published := some .failed })
  | _ => none

/-- The `Err`/`Ok` split of re-rendering what is left of the motion. -/
def measure (render : RobotCommand F → Except String String) (t : Task F) (completed : Nat) :
    Task F :=
  match remainingCommand t.command completed with
  | .error reason => t.leave (.notResumable reason)
  | .ok remaining =>
      match render remaining with
      | .error e => t.leave (.notRendered e)
      | .ok nextScript => { t with phase := .claiming, next := some (remaining, nextScript) }

/-- One step of `handle_request`. `render` is `generate_core_script_from_template`. -/
def step (render : RobotCommand F → Except String String) (t : Task F) (i : TaskInput) :
    Option (Task F) :=
  match t.phase, i with
  | .connecting, .connect (.ok _) => some { t with phase := .installing }
  | .connecting, .connect (.error e) => some (t.leave (.connectFailed e))
  | .installing, .install =>
      some { t with phase := .writing, installed := true, lastInstall := t.attempt }
  | .writing, .write (.ok _) =>
      some { t with phase := .handshaking, scripts := t.scripts + 1, lastScript := t.attempt }
  | .writing, .write (.error e) => some (t.leave (.writeFailed e))
  | .handshaking, .handshake (.value true) => some { t with phase := .waiting, feedbackOpen := true }
  | .handshaking, .handshake _ => some (t.leave .noHandshake)
  | .waiting, .goal v => some (t.leave (.verdict v))
  | .waiting, .feedback m =>
      if t.feedbackOpen then some { t with feedbackOpen := m.isSome } else none
  -- A dropped sender resolves the channel as a signal does: neither value is looked at.
  | .waiting, .cancel => some { t with phase := .cancelling }
  | .waiting, .resume => some { t with phase := .measuring }
  -- `stop_script` is a branch of a `select!`: its `try_send` happens when it is first
  -- polled, and a verdict that is already there can win before that.
  | .cancelling, .goal v => some (t.leave (.verdict v))
  | .cancelling, .sendStop (some id) => some { t with phase := .stopPending, stopRequest := id }
  | .cancelling, .sendStop none => some (t.leave .stopUnanswered)
  | .stopPending, .goal v => some (t.leave (.verdict v))
  | .stopPending, .stopReply (some reply) => some (t.leave (.stopAnswered reply))
  | .stopPending, .stopReply none => some (t.leave .stopUnanswered)
  | .measuring, .measure completed => some (t.measure render completed)
  | .claiming, .claim => some { t with phase := .restopping }
  -- The reply to this stop is not looked at.
  | .restopping, .sendStop (some id) => some { t with phase := .restopPending, stopRequest := id }
  | .restopping, .sendStop none => some { t with phase := .draining }
  | .restopPending, .stopReply _ => some { t with phase := .draining }
  -- A verdict of the old attempt and the end of the wait for it come to the same.
  | .draining, .drain _ => some { t with phase := .resetting }
  | .resetting, .reset => some { t with phase := .activating }
  | .activating, .activate =>
      match t.next with
      | some (remaining, nextScript) =>
          some { t with
            phase := .connecting, attempt := t.attempt + 1, next := none
            command := remaining, script := nextScript }
      | none => none
  | _, .redis keys => (t.redisOp keys).map (·.2)
  | .teardown, .teardown => some { t with phase := .done }
  | _, _ => none

/-- A goal's task as `command_server` hands it over. -/
def accepted (uuid script : String) (command : RobotCommand F) : Task F :=
  { phase := .admitted, uuid, script, command }

/-- The task once spawned: at the top of the attempt loop. -/
def spawn (t : Task F) : Task F := { t with phase := .connecting }

end Task

end UrRedisDriver
