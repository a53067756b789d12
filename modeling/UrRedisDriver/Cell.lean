import UrRedisDriver.Core.State
import UrRedisDriver.Lib.SharedMap
import UrRedisDriver.World

/-!
# Drivers that share a Redis

A cell has one Redis and a driver for each of its robots. `ROBOT_ID` is all that keeps the keys of
one from those of another: each puts it in front of every key it reads or writes. A driver seeds
its keys when it starts, whatever was there; from then on a step of it reads its request keys out
of Redis and sets those that the step changes.
-/

namespace UrRedisDriver

variable {F : Type}

/-! ## The request keys in Redis -/

/-- A request state as it is written. -/
def ActionRequestState.text : ActionRequestState → String
  | .initial => "initial"
  | .executing => "executing"
  | .succeeded => "succeeded"
  | .failed => "failed"
  | .other s => s

/-- A request state as it is read. -/
def ActionRequestState.ofText (s : String) : ActionRequestState :=
  if s = "initial" then .initial
  else if s = "executing" then .executing
  else if s = "succeeded" then .succeeded
  else if s = "failed" then .failed
  else .other s

/-- `state_bool_or`, of what is under a key -/
def stateBoolOr (v : Option (SPValue F)) (default : Bool) : Bool :=
  match v with
  | some (.bool (some b)) => b
  | _ => default

/-- `state_string_or` -/
def stateTextOr (v : Option (SPValue F)) (default : String) : String :=
  match v with
  | some (.string (some s)) => s
  | _ => default

/-- `state_int_or` -/
def stateIntOr (v : Option (SPValue F)) (default : Int) : Int :=
  match v with
  | some (.int64 (some n)) => n
  | _ => default

/-- The request keys of a robot, as its driver reads them. -/
def readRequestKeys (robotName : String) (state : SPState F) : RequestKeys :=
  let value (suffix : String) := state (robotKey robotName suffix)
  { requestTrigger := stateBoolOr (value "request_trigger") false
    requestState := .ofText (stateTextOr (value "request_state") "UNKNOWN")
    requestCancel := stateBoolOr (value "request_cancel") false
    requestResult := stateTextOr (value "request_result") "UNKNOWN"
    requestFeedback := stateTextOr (value "request_feedback") "UNKNOWN"
    totalFailCounter := stateIntOr (value "total_fail_counter") 0
    subsequentFailCounter := stateIntOr (value "subsequent_fail_counter") 0
    dashboardRequestTrigger := stateBoolOr (value "dashboard_request_trigger") false
    dashboardRequestState := .ofText (stateTextOr (value "dashboard_request_state") "UNKNOWN")
    dashboardCommand := stateTextOr (value "dashboard_command") "UNKNOWN"
    dashboardCommandArg := stateTextOr (value "dashboard_command_arg") ""
    dashboardRequestResult := stateTextOr (value "dashboard_request_result") "UNKNOWN" }

/-- One of the request keys: whether two requests differ there, and the value it is set to. -/
structure KeyField (F : Type) where
  suffix : String
  differs : RequestKeys → RequestKeys → Bool
  value : RequestKeys → SPValue F

def keyField {α : Type} [DecidableEq α] (suffix : String) (get : RequestKeys → α)
    (toSpValue : α → SPValue F) : KeyField F where
  suffix := suffix
  differs := fun old new => get old != get new
  value := fun keys => toSpValue (get keys)

def SPValue.ofBool (b : Bool) : SPValue F := .bool (some b)

def SPValue.ofText (s : String) : SPValue F := .string (some s)

def SPValue.ofInt (n : Int) : SPValue F := .int64 (some n)

def SPValue.ofState (st : ActionRequestState) : SPValue F := .string (some st.text)

def requestFields : List (KeyField F) :=
  [ keyField "request_trigger" RequestKeys.requestTrigger .ofBool,
    keyField "request_state" RequestKeys.requestState .ofState,
    keyField "request_cancel" RequestKeys.requestCancel .ofBool,
    keyField "request_result" RequestKeys.requestResult .ofText,
    keyField "request_feedback" RequestKeys.requestFeedback .ofText,
    keyField "total_fail_counter" RequestKeys.totalFailCounter .ofInt,
    keyField "subsequent_fail_counter" RequestKeys.subsequentFailCounter .ofInt,
    keyField "dashboard_request_trigger" RequestKeys.dashboardRequestTrigger .ofBool,
    keyField "dashboard_request_state" RequestKeys.dashboardRequestState .ofState,
    keyField "dashboard_command" RequestKeys.dashboardCommand .ofText,
    keyField "dashboard_command_arg" RequestKeys.dashboardCommandArg .ofText,
    keyField "dashboard_request_result" RequestKeys.dashboardRequestResult .ofText]

/-- The keys that are set to get from one request to the other. -/
def keyWrites (robotName : String) (old new : RequestKeys) :
    List (String × Option (SPValue F)) :=
  (requestFields.filter fun f => f.differs old new).map fun f =>
    (robotKey robotName f.suffix, some (f.value new))

/-- What a driver sets when it starts. -/
def seedWrites (robotName : String) : List (String × Option (SPValue F)) :=
  (generateRobotInterfaceState robotName).map fun e => (e.1, some e.2)

/-! ## A driver -/

/-- What happens to a driver. -/
inductive DriverAction (F : Type)
  | start
  | act (a : Action F)

/-- The driver with the request keys it reads. -/
def World.withKeys (w : World F) (keys : RequestKeys) : World F :=
  { w with shared := { w.shared with keys := keys } }

/-- One driver of the cell, `none` before it is started. -/
def driver [Zero F] (cfg : Config F) (robotName : String) :
    SharedMap.Process String (Option (SPValue F)) (Option (World F)) (DriverAction F)
  | _, none, .start => some (some World.init, seedWrites robotName)
  | state, some w, .act a =>
      let keys := readRequestKeys robotName state
      (World.step cfg (w.withKeys keys) a).map fun w' =>
        (some w', keyWrites robotName keys w'.shared.keys)
  | _, _, _ => none

end UrRedisDriver
