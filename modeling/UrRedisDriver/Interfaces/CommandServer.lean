import UrRedisDriver.Shared

/-!
# Motion requests

`command_server`: the tick that notices a request, the cancel, the consumed trigger, the
admission block and the hand-over to a goal's task. Decoding the request, looking up its
frames, planning and rendering depend on Redis contents a client controls, so what they
come to is an input: a reason to fail, or a command with its rendered script.
-/

namespace UrRedisDriver

/-- Where `command_server` is. -/
inductive CommandPhase (F : Type)
  | idle
  /-- About to reset `request_cancel`, holding what the tick read. -/
  | clearing (triggered : Bool) (state : ActionRequestState)
  /-- About to take the cancel sender. -/
  | cancelling (triggered : Bool) (state : ActionRequestState)
  /-- About to reset `request_trigger`. -/
  | consuming (state : ActionRequestState)
  | preparing
  /-- About to enter the admission block. -/
  | checking (command : RobotCommand F) (script : String)
  /-- Accepted goal `g`; about to write `executing`. -/
  | announcing (g : Nat) (command : RobotCommand F)
  /-- About to store the goal's senders and spawn its task. -/
  | storing (g : Nat) (command : RobotCommand F)
  | failing (reason : String) (at_ : FailStep)

/-- What the operation `command_server` was waiting on resolved to. -/
inductive CommandInput (F : Type)
  | tick
  /-- A single get or set. -/
  | redis
  /-- Take the cancel sender out of `DriverState` and signal it. -/
  | cancel
  | prepare (r : Except String (RobotCommand F × String))
  /-- The admission block, with the goal id it would go by. -/
  | admission (uuid : String)
  | store

namespace CommandServer

variable {F : Type}

/-- The admission block: why a request is turned away, if it is. -/
def rejection (s : Shared F) : Option String :=
  if !s.localAddr || !s.ds.connected then some "not connected to the robot"
  else if s.ds.motionPaused then some "motion is paused"
  else if !safetyModeAcceptsGoal s.ds.safetyMode then
    some ("robot safety mode is " ++ safetyModeName s.ds.safetyMode)
  -- Between two attempts the identity is down and `reissuing` stands in for it.
  else if s.ds.goalId.isSome || s.ds.reissuing then some "a goal is already running"
  else none

/-- Signal the goal whose cancel sender is in `DriverState`, and drop the sender. -/
def deliverCancel (s : Shared F) : Shared F :=
  match s.ds.cancelSender with
  | some g =>
      { s with
        ds := { s.ds with cancelSender := none }
        cancelBox := Function.update s.cancelBox g true
        cancelDelivered := Function.update s.cancelDelivered g true }
  | none => s

/-- Store an accepted goal's senders and command. -/
def storeGoal (s : Shared F) (g : Nat) (command : RobotCommand F) : Shared F :=
  { s with ds := { s.ds with
      cancelSender := some g, resumeSender := some g, activeCommand := some command
      waypointsCompleted := 0 } }

/-- One step of `command_server`. `g` is the number the next accepted goal gets. -/
def step (g : Nat) (s : Shared F) (p : CommandPhase F) (i : CommandInput F) :
    Option (Shared F × CommandPhase F) :=
  match p, i with
  | .idle, .tick =>
      -- A cancel is dealt with before a request of the same tick.
      if s.keys.requestCancel then
        some (s, .clearing s.keys.requestTrigger s.keys.requestState)
      else if s.keys.requestTrigger then some (s, .consuming s.keys.requestState)
      else some (s, .idle)
  | .clearing triggered state, .redis =>
      some ({ s with keys := { s.keys with requestCancel := false } },
        .cancelling triggered state)
  | .cancelling triggered state, .cancel =>
      some (deliverCancel s, if triggered then .consuming state else .idle)
  | .consuming state, .redis =>
      -- The trigger is taken whatever the state is, and only `initial` is served.
      some ({ s with keys := { s.keys with requestTrigger := false } },
        if state = .initial then .preparing else .idle)
  | .preparing, .prepare (.error reason) => some (s, .failing reason .read)
  | .preparing, .prepare (.ok (command, script)) => some (s, .checking command script)
  | .checking command _, .admission _ =>
      match rejection s with
      | some reason => some (s, .failing reason .read)
      | none => some (s, .announcing g command)
  | .announcing g command, .redis =>
      some ({ s with keys := { s.keys with requestState := .executing } }, .storing g command)
  | .storing g command, .store => some (storeGoal s g command, .idle)
  | .failing reason step, .redis =>
      match failRequest reason s.keys step with
      | (keys, some step') => some ({ s with keys := keys }, .failing reason step')
      | (keys, none) => some ({ s with keys := keys }, .idle)
  | _, _ => none

end CommandServer

end UrRedisDriver
