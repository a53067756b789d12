import UrRedisDriver.Core.Structs

/-!
# The Dashboard Server connection

The `dashboard` task on its own: `serve`, `poll_status`, `read_identity` and the composites
`pause_motion`, `resume_motion` and `reset_protective_stop`, cut at every round trip on the
socket and at every critical section on `DriverState`.

What the controller answers, whether a write goes through and whether a deadline has
passed when it is looked at are inputs, so a statement about every list of inputs covers
every controller.
-/

namespace UrRedisDriver

/-- Who is waiting on a command's reply channel. -/
inductive Requester
  /-- `dashboard_server`, for a client's request. -/
  | server
  /-- `stop_script`, for a goal. -/
  | goal (g : Nat)
  deriving DecidableEq, Repr

/-- A command in the dashboard channel. -/
structure Request where
  command : DashboardCommand
  /-- The number of its reply channel. -/
  id : Nat
  requester : Requester
  /-- History: the socket was being served when the command was queued. -/
  queuedWhileUp : Bool
  deriving DecidableEq, Repr

/-- The round trips the task makes on the socket. -/
inductive Trip
  /-- The generic path: the command itself. -/
  | command
  | pause | pauseState
  | play | resumeRunning | resumeState
  | closePopup | unlock
  | model | serial | version
  | remote | state | running | operational
  deriving DecidableEq, Repr

/-- The command a round trip sends. `cmd` is the one being served. -/
def Trip.sends (cmd : DashboardCommand) : Trip → DashboardCommand
  | .command => cmd
  | .pause => .pause
  | .pauseState => .programState
  | .play => .play
  | .resumeRunning => .isProgramRunning
  | .resumeState => .programState
  | .closePopup => .closeSafetyPopup
  | .unlock => .unlockProtectiveStop
  | .model => .getRobotModel
  | .serial => .getSerialNumber
  | .version => .polyscopeVersion
  | .remote => .isInRemoteControl
  | .state => .programState
  | .running => .isProgramRunning
  | .operational => .getOperationalMode

/-- What a round trip is part of. -/
inductive Job
  /-- `read_identity`, with what it has read so far. -/
  | identity (i : DashboardIdentity)
  /-- `poll_status`, with what it has read so far. -/
  | keepalive (s : DashboardStatus)
  /-- A command from the channel, with `resume_motion`'s clone of the resume sender and
  the response to its `play`. -/
  | request (r : Request) (sender : Option Nat) (play : String)
  deriving DecidableEq, Repr

/-- The command a job is serving; only a request has one of its own. -/
def Job.command : Job → DashboardCommand
  | .request r _ _ => r.command
  | _ => .programState

/-- Where the dashboard task is. -/
inductive DashPhase
  | connecting
  | greeting
  /-- `read_identity` is done. -/
  | identified (i : DashboardIdentity)
  /-- In the `select!` of `serve`. -/
  | serving
  /-- About to write the line of a round trip. -/
  | sending (j : Job) (t : Trip)
  /-- About to read the reply line of a round trip. -/
  | awaiting (j : Job) (t : Trip)
  /-- The opening critical section of `resume_motion` or `reset_protective_stop`. -/
  | reading (r : Request)
  /-- `pause_motion` about to set `motion_paused`. -/
  | latching (r : Request) (last : ProgramState)
  /-- `resume_motion` about to clear `motion_paused`. -/
  | releasing (r : Request) (sender : Option Nat) (play : String) (resumed : Bool)
  /-- `resume_motion` about to signal a goal. -/
  | signalling (r : Request) (g : Nat)
  /-- `reset_protective_stop` polling the safety mode. -/
  | confirming (r : Request)
  /-- About to answer the requester. -/
  | answering (r : Request) (result : Except String DashboardReply)
  /-- `poll_status` is done. -/
  | polled (s : DashboardStatus)
  /-- The socket failed under `serve`. -/
  | dropped

/-- What the operation the task was waiting on resolved to. -/
inductive DashInput
  | connect
  | greet (ok : Bool)
  /-- A command arrived. -/
  | take (r : Request)
  /-- The keepalive interval fired. -/
  | tick
  | write (r : Except String Unit)
  /-- The reply line, and whether the running deadline has passed by then. -/
  | reply (line : Except String String) (late : Bool)
  /-- The critical section on `DriverState`. -/
  | lock (late : Bool)
  /-- `resume_sender.try_send`. -/
  | signal (r : Except String Unit)
  /-- The reply handed to the requester. -/
  | answer

namespace DashPhase

/-- The socket is up and `serve` is running. -/
def up : DashPhase → Bool
  | connecting | greeting | identified _ | dropped => false
  | sending (.identity _) _ | awaiting (.identity _) _ => false
  | _ => true

/-- The resume sender cloned by a running `resume_motion`. -/
def resumeClone : DashPhase → Option Nat
  | sending (.request _ sender _) _ | awaiting (.request _ sender _) _ => sender
  | releasing _ sender _ _ => sender
  | signalling _ g => some g
  | _ => none

/-- The request being served, while some of its lines may still have to be written. -/
def serves : DashPhase → Option Request
  | awaiting (.request _ _ _) .command | awaiting (.request _ _ _) .unlock => none
  | sending (.request r _ _) _ | awaiting (.request r _ _) _ | reading r => some r
  | _ => none

/-- The request taken from the channel and not answered yet. -/
def holds : DashPhase → Option Request
  | sending (.request r _ _) _ | awaiting (.request r _ _) _ | reading r | latching r _
  | releasing r _ _ _ | signalling r _ | confirming r | answering r _ => some r
  | _ => none

theorem holds_of_serves {p : DashPhase} {r : Request} (h : p.serves = some r) :
    p.holds = some r := by
  unfold serves at h
  split at h <;> first | exact h | cases h

/-- Where a request is taken to. -/
def start (r : Request) : DashPhase :=
  match r.command with
  | .unlockProtectiveStop => reading r
  | .pause => sending (.request r none "") .pause
  | .resume => reading r
  | _ => sending (.request r none "") .command

/-- Where a socket error leaves a job. -/
def failed (e : String) : Job → DashPhase
  | .identity _ => connecting
  | .keepalive _ => dropped
  | .request r _ _ => answering r (.error e)

/-- The program state in a reply, `Unknown` when it is not one. -/
def stateOf (reply : DashboardReply) : ProgramState :=
  match reply.value with
  | some (.programState state _) => state
  | _ => .unknown

/-- The flag in a reply, false when it is not one. -/
def flagOf (reply : DashboardReply) : Bool :=
  (reply.value.bind DashboardValue.asFlag).getD false

/-- Where the reply to a round trip of a request takes it. -/
def afterRequest (r : Request) (sender : Option Nat) (play : String) (reply : DashboardReply)
    (late : Bool) : Trip → DashPhase
  | .pause =>
      if reply.success then sending (.request r none "") .pauseState else answering r (.ok reply)
  | .pauseState =>
      if stateOf reply = .paused ∨ late then latching r (stateOf reply)
      else sending (.request r none "") .pauseState
  | .play =>
      if reply.success then sending (.request r sender reply.response) .resumeRunning
      else releasing r sender reply.response false
  | .resumeRunning =>
      if flagOf reply then sending (.request r sender play) .resumeState
      else if late then releasing r sender play false
      else sending (.request r sender play) .resumeRunning
  | .resumeState =>
      if stateOf reply = .playing then releasing r sender play true
      else if late then releasing r sender play false
      else sending (.request r sender play) .resumeRunning
  | .closePopup => sending (.request r sender play) .unlock
  | .unlock =>
      if reply.success then confirming r
      else answering r (.ok (.fail s!"controller refused to unlock: {reply.response}"))
  | _ => answering r (.ok reply)

/-- Where the reply to a round trip takes the task. -/
def after (j : Job) (t : Trip) (reply : DashboardReply) (late : Bool) : DashPhase :=
  match j, t with
  | .identity i, .model => sending (.identity { i with robotModel := reply.response }) .serial
  | .identity i, .serial => sending (.identity { i with serialNumber := reply.response }) .version
  | .identity i, _ => identified { i with polyscopeVersion := reply.response }
  | .keepalive s, .remote => sending (.keepalive { s with remoteControl := flagOf reply }) .state
  | .keepalive s, .state =>
      let name := match reply.value with
        | some (.programState _ program) => program
        | _ => none
      sending (.keepalive { s with programState := stateOf reply, programName := name }) .running
  | .keepalive s, .running =>
      sending (.keepalive { s with programRunning := flagOf reply }) .operational
  | .keepalive s, _ =>
      let mode := match reply.value with
        | some (.operationalMode mode) => mode
        | _ => .unknown
      polled { s with operationalMode := mode }
  | .request r sender play, t => afterRequest r sender play reply late t

/-- What `serve` sends back: a refusal is annotated when Local control explains it. -/
def annotate (cmd : DashboardCommand) (remoteControl : Bool) (reply : DashboardReply) :
    DashboardReply :=
  if !reply.success && cmd.requiresRemoteControl && !remoteControl then
    { reply with response := reply.response ++ " (robot is in Local control)" }
  else reply

/-- The reply a requester is sent. -/
def answer {F : Type} (ds : DriverState F) (r : Request) :
    Except String DashboardReply → DashboardReply
  | .ok reply => annotate r.command ds.remoteControl reply
  | .error e => .fail s!"dashboard socket error: {e}"

/-- One step of the dashboard task, and what it does to `DriverState`. -/
def step {F : Type} (ds : DriverState F) (p : DashPhase) (i : DashInput) :
    Option (DriverState F × DashPhase) :=
  match p, i with
  | connecting, .connect => some (ds, greeting)
  | greeting, .greet ok => some (ds, if ok then sending (.identity {}) .model else connecting)
  | identified id, .lock _ =>
      some ({ ds with identity := some id, dashboardConnected := true }, serving)
  | serving, .take r => some (ds, start r)
  | serving, .tick => some (ds, sending (.keepalive {}) .remote)
  | sending j t, .write (.ok _) => some (ds, awaiting j t)
  | sending j _, .write (.error e) => some (ds, failed e j)
  | awaiting j t, .reply (.ok line) late =>
      some (ds, after j t ((t.sends j.command).toReply line) late)
  | awaiting j _, .reply (.error e) _ => some (ds, failed e j)
  -- Only these two look at the state before anything is sent.
  | reading r, .lock _ =>
      match r.command with
      | .resume =>
          if ds.motionPaused then some (ds, sending (.request r ds.resumeSender "") .play)
          else some (ds, answering r (.ok (.fail "motion is not paused")))
      | _ =>
          if ds.safetyMode = 3 then some (ds, sending (.request r none "") .closePopup)
          else
            let mode := safetyModeName ds.safetyMode
            some (ds, answering r
              (.ok (.fail s!"not in a protective stop, safety mode is {mode}")))
  -- The acknowledgement sets the latch, whatever the program state has come to be.
  | latching r last, .lock _ =>
      let reply := if last = .paused then DashboardReply.ok ProgramState.paused.asStr
        else .ok ("pause acknowledged but the program state is " ++ last.asStr)
      some ({ ds with motionPaused := true }, answering r (.ok reply))
  | releasing r sender play resumed, .lock _ =>
      some ({ ds with motionPaused := false },
        if resumed then answering r (.ok (.ok "resumed"))
        else match sender with
          | some g => signalling r g
          | none => answering r
              (.ok (.fail s!"play did not resume a program and no goal is live ({play})")))
  | signalling r _, .signal (.ok _) =>
      some (ds, answering r (.ok (.ok "play did not resume, re-issuing the goal")))
  | signalling r _, .signal (.error e) =>
      some (ds, answering r (.ok (.fail
        s!"play did not resume a program and the goal could not be signalled: {e}")))
  -- An unlock is believed when the realtime stream shows another safety mode.
  | confirming r, .lock late =>
      let mode := safetyModeName ds.safetyMode
      if ds.safetyMode = 1 ∨ ds.safetyMode = 2 then some (ds, answering r (.ok (.ok mode)))
      else if late then some (ds, answering r
        (.ok (.fail s!"unlock acknowledged but safety mode is still {mode}")))
      else some (ds, confirming r)
  -- After an I/O error the request is answered first, and the connection dropped then.
  | answering _ (.ok _), .answer => some (ds, serving)
  | answering _ (.error _), .answer => some (ds, dropped)
  | polled s, .lock _ =>
      some ({ ds with
        remoteControl := s.remoteControl, programState := s.programState.asStr
        programRunning := s.programRunning, operationalMode := s.operationalMode.asStr },
        serving)
  -- What is only known from the dashboard goes with its connection.
  | dropped, .lock _ =>
      some ({ ds with dashboardConnected := false, remoteControl := false, identity := none },
        connecting)
  | _, _ => none

end DashPhase

end UrRedisDriver
