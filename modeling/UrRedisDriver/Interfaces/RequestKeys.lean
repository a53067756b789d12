import UrRedisDriver.Core.Structs

/-!
# The request keys in Redis, and how a request is failed

The keys a request is submitted through and answered on. A single get or set is one
step: everything between two of them can be another task's, or the client's. Redis is
taken to be reachable, so a set lands.

`fail_request` is used by `command_server` for a rejection and by `handle_request` for a
failed execution. It reads both counters, writes both back and then writes the answer, so
it is five steps with the counters held across the gaps. The counters are `i64`s, and adding
one to the largest is a panic: whoever finds it there, a tick over keys of any content, has to
stop. A run of the driver starts from zero and takes at least as many steps to get there.
-/

namespace UrRedisDriver

/-- The request keys, without the `{robot}_` prefix they share. -/
structure RequestKeys where
  requestTrigger : Bool := false
  requestState : ActionRequestState := .initial
  requestCancel : Bool := false
  requestResult : String := "UNKNOWN"
  requestFeedback : String := "UNKNOWN"
  totalFailCounter : Int := 0
  subsequentFailCounter : Int := 0
  dashboardRequestTrigger : Bool := false
  dashboardRequestState : ActionRequestState := .initial
  dashboardCommand : String := "UNKNOWN"
  dashboardCommandArg : String := "UNKNOWN"
  dashboardRequestResult : String := "UNKNOWN"
  deriving DecidableEq, Repr

/-- Where a `fail_request` call is. -/
inductive FailStep
  /-- About to read the counters. -/
  | read
  /-- About to write the total, holding what was read. -/
  | setTotal (total subsequent : Int)
  /-- About to write the streak, holding what was read. -/
  | setSubsequent (subsequent : Int)
  /-- About to write the reason. -/
  | publishResult
  /-- About to write `failed`. -/
  | publishState
  deriving DecidableEq, Repr

/-- `i64::MAX`. -/
def i64Max : Int := 9223372036854775807

/-- The operation starts with an addition that overflows. -/
def FailStep.overflows : FailStep → Bool
  | .setTotal total _ => decide (i64Max ≤ total)
  | .setSubsequent subsequent => decide (i64Max ≤ subsequent)
  | _ => false

/-- One Redis operation of `fail_request`, and what is left of the call. -/
def failRequest (reason : String) (keys : RequestKeys) : FailStep → RequestKeys × Option FailStep
  | .read => (keys, some (.setTotal keys.totalFailCounter keys.subsequentFailCounter))
  | .setTotal total subsequent =>
      ({ keys with totalFailCounter := total + 1 }, some (.setSubsequent subsequent))
  | .setSubsequent subsequent =>
      ({ keys with subsequentFailCounter := subsequent + 1 }, some .publishResult)
  | .publishResult => ({ keys with requestResult := reason }, some .publishState)
  | .publishState => ({ keys with requestState := .failed }, none)

end UrRedisDriver
