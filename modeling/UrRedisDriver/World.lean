import UrRedisDriver.Driver.HandleRequest
import UrRedisDriver.Driver.SocketServer
import UrRedisDriver.Driver.RealtimeReader
import UrRedisDriver.Interfaces.CommandServer
import UrRedisDriver.Interfaces.DashboardServer
import UrRedisDriver.Tools.GenerateUrScript

/-!
# The driver

All tasks of one `run` of the driver over what they share, with the client at Redis and
the robot's scripts. One step of the whole is one step of one of them, in any order: every
interleaving at the granularity of `await` points and critical sections is a run.

A goal's task runs on its own thread. What it waits on is decided here: a value in its
mailbox, or the last sender being gone, read off every place that can still hold one.
-/

namespace UrRedisDriver

/-- What is fixed for a run. -/
structure Config (F : Type) where
  /-- `generate_core_script_from_template`, over the shipped templates. -/
  render : RobotCommand F → Except String String
  hostAddress : String
  socketPort : Nat

structure World (F : Type) where
  shared : Shared F
  /-- The task of each goal, from its acceptance on. -/
  task : Nat → Option (Task F)
  /-- How many goals have been accepted. -/
  goals : Nat
  command : CommandPhase F
  socket : SocketPhase
  realtime : RtPhase
  dashboard : DashPhase
  server : ServerPhase

/-- What a client can write at any time. -/
inductive ClientWrite
  | requestTrigger (v : Bool)
  | requestState (st : ActionRequestState)
  | requestCancel (v : Bool)
  | dashboardRequest (name arg : String)
  | dashboardRequestState (st : ActionRequestState)
  | dashboardRequestTrigger (v : Bool)

/-- What a script on the robot can do at any time, apart from what it sends. -/
inductive RobotEvent
  /-- Open a connection to the driver. -/
  | dial (script : Chan)
  /-- End, for whatever reason. -/
  | finish (script : Chan)

inductive Action (F : Type)
  | client (i : ClientWrite)
  | robot (i : RobotEvent)
  | command (i : CommandInput F)
  | task (g : Nat) (i : TaskInput)
  | socket (i : SocketInput)
  | realtime (i : RtInput F)
  | dashboard (i : DashInput)
  | server (i : ServerInput)

/-- The attempt's receivers are still there. -/
def Phase.inAttempt : Phase → Bool
  | .admitted | .publishResult | .publishState | .publishCounter | .failing _ | .teardown
  | .done => false
  | _ => true

namespace World

variable {F : Type}

/-- The driver as it starts. -/
def init [Zero F] : World F where
  shared := Shared.init
  task := fun _ => none
  goals := 0
  command := .idle
  socket := .starting
  realtime := .starting
  dashboard := .connecting
  server := .idle

/-- Somebody still reads this attempt's feedback channel. -/
def feedbackOpen (w : World F) (ch : Chan) : Bool :=
  match w.task ch.goal with
  | some t => t.attempt == ch.attempt && t.phase.inAttempt
  | none => false

/-- The goal's receivers are still there. -/
def alive (w : World F) (g : Nat) : Bool :=
  match w.task g with
  | some t => t.phase != .done
  | none => false

/-- Some sender of this goal channel is left. -/
def goalHeld (w : World F) (ch : Chan) : Bool := w.shared.ds.goalSender == some ch

/-- Some sender of this handshake channel is left. -/
def handshakeHeld (w : World F) (ch : Chan) : Bool :=
  w.shared.ds.handshakeSender == some ch || w.socket.heldHandshake == some ch

/-- Some sender of this feedback channel is left. -/
def feedbackHeld (w : World F) (ch : Chan) : Bool :=
  w.shared.ds.feedbackSender == some ch || w.socket.heldFeedback == some ch

/-- Some sender of this goal's cancel channel is left. -/
def cancelHeld (w : World F) (g : Nat) : Bool := w.shared.ds.cancelSender == some g

/-- Some sender of this goal's resume channel is left. -/
def resumeHeld (w : World F) (g : Nat) : Bool :=
  w.shared.ds.resumeSender == some g || w.dashboard.resumeClone == some g

/-- What a goal channel resolves to: its value, or `none` once its sender is gone. -/
def goalResolves (w : World F) (ch : Chan) (v : Option Bool) : Bool :=
  match v with
  | some b => w.shared.goalBox ch == some b
  | none => (w.shared.goalBox ch).isNone && !w.goalHeld ch

/-- The operation goal `g`'s task is waiting on can resolve to `i` now. -/
def ready (w : World F) (g : Nat) (t : Task F) (i : TaskInput) : Bool :=
  let ch : Chan := ⟨g, t.attempt⟩
  match i with
  | .handshake (.value v) => w.shared.handshakeBox ch == some v
  | .handshake .dropped => (w.shared.handshakeBox ch).isNone && !w.handshakeHeld ch
  | .handshake .timeout => (w.shared.handshakeBox ch).isNone
  | .goal v => w.goalResolves ch v
  | .feedback (some m) => (w.shared.feedbackBox ch).head? == some m
  | .feedback none => (w.shared.feedbackBox ch).isEmpty && !w.feedbackHeld ch
  | .cancel => w.shared.cancelBox g || !w.cancelHeld g
  | .resume => w.shared.resumeBox g || !w.resumeHeld g
  | .sendStop (some id) =>
      w.shared.queue.length < dashboardCapacity && id == w.shared.nextRequest
  | .sendStop none => decide (dashboardCapacity ≤ w.shared.queue.length)
  | .stopReply (some r) => decide (w.shared.reply t.stopRequest = some r)
  -- The dashboard task answers every command it takes.
  | .stopReply none => false
  | .measure completed => completed == w.shared.ds.waypointsCompleted
  | .drain (some v) => w.goalResolves ch v
  | .drain none => (w.shared.goalBox ch).isNone
  | .redis keys => decide (keys = w.shared.keys)
  | _ => true

/-- Goal `g`'s teardown block. -/
def teardown (s : Shared F) : Shared F :=
  { s with
    ds := { s.ds with
      goalId := none, goalSender := none, handshakeSender := none, feedbackSender := none
      cancelSender := none, resumeSender := none, activeCommand := none
      waypointsCompleted := 0, reissuing := false, motionPaused := false }
    cleared := false }

/-- The block that installs an attempt's channels. -/
def install (s : Shared F) (uuid : String) (ch : Chan) : Shared F :=
  { s with
    ds := { s.ds with
      goalId := some uuid, goalSender := some ch, handshakeSender := some ch
      feedbackSender := some ch, reissuing := false }
    cleared := false }

/-- What a step of goal `g`'s task does to what is shared. -/
def effect (cfg : Config F) (up : Bool) (s : Shared F) (g : Nat) (t : Task F) (i : TaskInput) :
    Shared F :=
  let ch : Chan := ⟨g, t.attempt⟩
  match i with
  | .install => install s t.uuid ch
  | .write (.ok _) =>
      { s with
        running := ch :: s.running
        program := Function.update s.program ch
          (some (generateUrScript t.script cfg.hostAddress cfg.socketPort)) }
  | .handshake _ => { s with handshakeBox := Function.update s.handshakeBox ch none }
  | .goal _ | .drain _ => { s with goalBox := Function.update s.goalBox ch none }
  | .feedback (some m) =>
      { s with
        feedbackBox := Function.update s.feedbackBox ch (s.feedbackBox ch).tail
        keys := { s.keys with requestFeedback := m } }
  | .cancel => { s with cancelBox := Function.update s.cancelBox g false }
  | .resume => { s with resumeBox := Function.update s.resumeBox g false }
  | .sendStop (some _) => s.submit .stop (.goal g) up
  | .claim => { s with ds := { s.ds with reissuing := true }, cleared := false }
  | .reset => { s with ds := { s.ds with waypointsCompleted := 0 } }
  | .activate => { s with ds := { s.ds with activeCommand := t.next.map (·.1) } }
  | .redis _ =>
      match t.redisOp s.keys with
      | some (keys, _) => { s with keys := keys }
      | none => s
  | .teardown => teardown s
  | _ => s

/-- A write by a client. -/
def clientStep (keys : RequestKeys) : ClientWrite → RequestKeys
  | .requestTrigger v => { keys with requestTrigger := v }
  | .requestState st => { keys with requestState := st }
  | .requestCancel v => { keys with requestCancel := v }
  | .dashboardRequest name arg =>
      { keys with dashboardCommand := name, dashboardCommandArg := arg }
  | .dashboardRequestState st => { keys with dashboardRequestState := st }
  | .dashboardRequestTrigger v => { keys with dashboardRequestTrigger := v }

/-- A step of a script on the robot. -/
def robotStep (s : Shared F) : RobotEvent → Option (Shared F)
  | .dial ch =>
      if ch ∈ s.running then some { s with backlog := s.backlog ++ [⟨ch⟩] } else none
  | .finish ch =>
      if ch ∈ s.running then some { s with running := s.running.erase ch } else none

/-- A step of goal `g`'s task. -/
def taskStep (cfg : Config F) (w : World F) (g : Nat) (i : TaskInput) : Option (World F) :=
  match w.task g with
  | none => none
  | some t =>
      if w.ready g t i then
        (t.step cfg.render i).map fun t' =>
          { w with
            shared := effect cfg w.dashboard.up w.shared g t i
            task := Function.update w.task g (some t') }
      else none

/-- A step of `command_server`, with the goals it accepts and spawns. -/
def commandStep (w : World F) (i : CommandInput F) : Option (World F) :=
  (CommandServer.step w.goals w.shared w.command i).map fun (s, p) =>
    let w' := { w with shared := s, command := p }
    match w.command, i, p with
    | .checking command script, .admission uuid, .announcing g _ =>
        { w' with
          task := Function.update w.task g (some (Task.accepted uuid script command))
          goals := w.goals + 1 }
    | .storing g _, .store, _ =>
        { w' with task := Function.update w.task g ((w.task g).map Task.spawn) }
    | _, _, _ => w'

/-- A step of `socket_server`. -/
def socketStep (w : World F) (i : SocketInput) : Option (World F) :=
  let open_ := match w.socket.heldFeedback with
    | some ch => w.feedbackOpen ch
    | none => false
  (SocketServer.step open_ w.shared w.socket i).map fun (s, p) =>
    { w with shared := s, socket := p }

/-- A step of `realtime_reader`. -/
def realtimeStep (w : World F) (i : RtInput F) : Option (World F) :=
  (RealtimeReader.step w.shared w.realtime i).map fun (s, p) =>
    { w with shared := s, realtime := p }

/-- What a step of the dashboard task does to the channels, if it is possible at all. -/
def dashboardEffect (w : World F) (i : DashInput) : Option (Shared F) :=
  let s := w.shared
  match w.dashboard, i with
  | .serving, .take r =>
      match s.queue with
      | r' :: rest => if r' = r then some { s with queue := rest } else none
      | [] => none
  | .signalling _ g, .signal (.ok _) =>
      if w.alive g && !s.resumeBox g then
        some { s with
          resumeBox := Function.update s.resumeBox g true
          resumeSignalled := Function.update s.resumeSignalled g true }
      else none
  | .signalling _ g, .signal (.error _) =>
      if w.alive g && !s.resumeBox g then none else some s
  | .answering r result, .answer =>
      let reply := DashPhase.answer s.ds r result
      some { s with
        reply := Function.update s.reply r.id (some reply)
        stopAcked := acknowledge s.stopAcked r reply }
  | _, _ => some s

/-- A step of the dashboard task. -/
def dashboardStep (w : World F) (i : DashInput) : Option (World F) :=
  match dashboardEffect w i, DashPhase.step w.shared.ds w.dashboard i with
  | some s, some (ds, p) => some { w with shared := { s with ds := ds }, dashboard := p }
  | _, _ => none

/-- A step of `dashboard_server`. -/
def serverStep (w : World F) (i : ServerInput) : Option (World F) :=
  (DashboardServer.step w.dashboard.up w.shared w.server i).map fun (s, p) =>
    { w with shared := s, server := p }

/--
One step of the driver, its clients and the robot. An error out of `socket_server` ends
the run: `main` drops every task and starts over.
-/
def step (cfg : Config F) (w : World F) (a : Action F) : Option (World F) :=
  if w.socket = .stopped then none
  else match a with
  | .client i => some { w with shared := { w.shared with keys := clientStep w.shared.keys i } }
  | .robot i => (robotStep w.shared i).map fun s => { w with shared := s }
  | .command i => commandStep w i
  | .task g i => taskStep cfg w g i
  | .socket i => socketStep w i
  | .realtime i => realtimeStep w i
  | .dashboard i => dashboardStep w i
  | .server i => serverStep w i

end World

end UrRedisDriver
