import UrRedisDriver.Shared

/-!
# Dashboard requests

`dashboard_server`, the Redis-facing half of the dashboard interface: it consumes a
trigger, parses the command, queues it for the dashboard task and waits for the reply, but
no longer than its own timeout.
-/

namespace UrRedisDriver

/-- Slack added to a command's reply timeout, in milliseconds. -/
def dashboardCommandSlack : Nat := 3000

/-- Where `dashboard_server` is. -/
inductive ServerPhase
  | idle
  /-- About to reset the trigger, holding what the tick read. -/
  | consuming (state : ActionRequestState) (name arg : String)
  /-- About to write `executing`. -/
  | starting (cmd : DashboardCommand)
  /-- About to queue the command. -/
  | submitting (cmd : DashboardCommand)
  | waiting (id : Nat) (cmd : DashboardCommand)
  /-- About to write the result. -/
  | finishing (success : Bool) (response : String)
  /-- About to write the terminal state. -/
  | closing (success : Bool)
  deriving DecidableEq, Repr

/-- What the operation `dashboard_server` was waiting on resolved to. -/
inductive ServerInput
  | tick
  | redis
  /-- Room in the dashboard channel. -/
  | submit
  | reply
  | timeout
  deriving DecidableEq, Repr

namespace DashboardServer

variable {F : Type}

/-- One step of `dashboard_server`. `up` says whether the dashboard socket is being served. -/
def step (up : Bool) (s : Shared F) (p : ServerPhase) (i : ServerInput) :
    Option (Shared F × ServerPhase) :=
  match p, i with
  | .idle, .tick =>
      if s.keys.dashboardRequestTrigger then
        some (s, .consuming s.keys.dashboardRequestState s.keys.dashboardCommand
          s.keys.dashboardCommandArg)
      else some (s, .idle)
  | .consuming state name arg, .redis =>
      some ({ s with keys := { s.keys with dashboardRequestTrigger := false } },
        if state = .initial then
          match DashboardCommand.parse name arg with
          | .ok cmd => .starting cmd
          | .error reason => .finishing false reason
        else .idle)
  | .starting cmd, .redis =>
      some ({ s with keys := { s.keys with dashboardRequestState := .executing } },
        .submitting cmd)
  | .submitting cmd, .submit =>
      -- `send` waits while the channel is full.
      if s.queue.length < dashboardCapacity then
        some (s.submit cmd .server up, .waiting s.nextRequest cmd)
      else none
  | .waiting id _, .reply =>
      match s.reply id with
      | some r => some (s, .finishing r.success r.response)
      | none => none
  -- The timeout polls the reply first, so it does not win over one that is there.
  | .waiting id cmd, .timeout =>
      match s.reply id with
      | some _ => none
      | none =>
          let seconds := (cmd.replyTimeout + dashboardCommandSlack) / 1000
          some (s, .finishing false s!"timed out waiting for the controller after {seconds}s")
  | .finishing success response, .redis =>
      some ({ s with keys := { s.keys with dashboardRequestResult := response } },
        .closing success)
  | .closing success, .redis =>
      some ({ s with keys := { s.keys with
        dashboardRequestState := if success then .succeeded else .failed } }, .idle)
  | _, _ => none

end DashboardServer

end UrRedisDriver
