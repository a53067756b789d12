import UrRedisDriver.Shared

/-!
# The listener the running scripts dial back to

`socket_server`, cut at every `await`. It serves one connection at a time: whatever else
the robot opens waits in the listener. The lines a script sends and the end of its
connection are inputs.
-/

namespace UrRedisDriver

/-- Prefix of the progress lines the trajectory templates send. -/
def waypointReachedPrefix : String := "waypoint_reached "

/-- What a line from a running script is taken for. -/
inductive ScriptLine
  | ok
  | error
  /-- A progress line, with the index it reports if one can be read out of it. -/
  | waypoint (index : Option Nat)
  | feedback (s : String)
  deriving DecidableEq, Repr

/-- The arms of the read loop's `match` on a line. -/
def ScriptLine.read (s : String) : ScriptLine :=
  if s = "ok" then .ok
  else if s = "error" then .error
  else if Text.startsWith s waypointReachedPrefix then
    .waypoint (Text.parseUsize
      (Text.trim (String.ofList (s.toList.drop waypointReachedPrefix.toList.length))))
  else .feedback s

/-- Where `socket_server` is. -/
inductive SocketPhase
  /-- Waiting for the local address. -/
  | starting
  | binding
  | accepting
  /-- About to send the goal id. -/
  | greeting (c : Conn) (goalId : String) (handshake feedback : Chan)
  /-- Waiting for the echo. -/
  | echoing (c : Conn) (goalId : String) (handshake feedback : Chan)
  /-- About to send the handshake feedback line. -/
  | announcing (c : Conn) (feedback : Chan)
  /-- In the read loop. -/
  | reading (c : Conn) (feedback : Chan)
  /-- About to hand a feedback line over. -/
  | relaying (c : Conn) (feedback : Chan) (s : String)
  /-- Returned an error or panicked, which takes the driver down. -/
  | stopped
  deriving DecidableEq, Repr

namespace SocketPhase

/-- The connection being served. -/
def conn : SocketPhase → Option Conn
  | greeting c _ _ _ | echoing c _ _ _ | announcing c _ | reading c _ | relaying c _ _ => some c
  | _ => none

/-- The handshake sender taken out of `DriverState`. -/
def heldHandshake : SocketPhase → Option Chan
  | greeting _ _ h _ | echoing _ _ h _ => some h
  | _ => none

/-- The clone of a feedback sender. -/
def heldFeedback : SocketPhase → Option Chan
  | greeting _ _ _ f | echoing _ _ _ f | announcing _ f | reading _ f | relaying _ f _ => some f
  | _ => none

end SocketPhase

/-- What the operation `socket_server` was waiting on resolved to. -/
inductive SocketInput
  /-- The local address arrived. -/
  | address
  | bind (ok : Bool)
  /-- `accept`: the oldest waiting connection, or an error. -/
  | accept (ok : Bool)
  | greet (ok : Bool)
  /-- A line; `none` is the connection closing or a line that does not decode. -/
  | line (s : Option String)
  /-- Room in the feedback channel, or nobody left to read it. -/
  | feedback
  deriving DecidableEq, Repr

namespace SocketServer

variable {F : Type}

/-- Put a line in a feedback channel, if its receiver is still there. -/
def sendFeedback (s : Shared F) (open_ : Bool) (ch : Chan) (m : String) : Option (Shared F) :=
  if open_ then
    if (s.feedbackBox ch).length < feedbackCapacity then
      some { s with feedbackBox := Function.update s.feedbackBox ch (s.feedbackBox ch ++ [m]) }
    else none
  else some s

/-- What one line of the read loop does. `index + 1` is checked, as in a debug build. -/
def readLine (s : Shared F) (c : Conn) (feedback : Chan) (line : String) :
    Shared F × SocketPhase :=
  match ScriptLine.read line with
  | .ok => (s.resolveGoal true (.ok c.script), .reading c feedback)
  | .error => (s.resolveGoal false (.error c.script), .reading c feedback)
  | .waypoint (some index) =>
      if index + 1 < Text.usizeBound then
        ({ s with ds := { s.ds with waypointsCompleted := index + 1 } }, .reading c feedback)
      else (s, .stopped)
  | .waypoint none => (s, .reading c feedback)
  | .feedback m => (s, .relaying c feedback m)

/--
One step of `socket_server`. `open_` says whether the receiver of the feedback channel it
writes to is still there.
-/
def step (open_ : Bool) (s : Shared F) (p : SocketPhase) (i : SocketInput) :
    Option (Shared F × SocketPhase) :=
  match p, i with
  | .starting, .address => if s.localAddr then some (s, .binding) else none
  | .binding, .bind ok => some (s, if ok then .accepting else .stopped)
  | .accepting, .accept false => some (s, .accepting)
  | .accepting, .accept true =>
      match s.backlog with
      | [] => none
      | c :: rest =>
          match s.ds.handshakeSender, s.ds.goalId, s.ds.feedbackSender with
          | some handshake, some goalId, some feedback =>
              some ({ s with backlog := rest, ds := { s.ds with handshakeSender := none } },
                .greeting c goalId handshake feedback)
          -- "SHOULD NOT HAPPEN, DROPPING STREAM"
          | _, _, _ => some ({ s with backlog := rest }, .accepting)
  | .greeting c goalId handshake feedback, .greet ok =>
      some (s, if ok then .echoing c goalId handshake feedback else .stopped)
  -- A wrong echo is reported on the handshake channel and the connection is kept.
  | .echoing c goalId handshake feedback, .line l =>
      some ({ s with
        handshakeBox := Function.update s.handshakeBox handshake
          (some (decide (l = some goalId))) },
        .announcing c feedback)
  | .announcing c feedback, .feedback =>
      (sendFeedback s open_ feedback "Handshake complete, script should be running.").map
        fun s' => (s', .reading c feedback)
  | .reading c feedback, .line (some l) => some (readLine s c feedback l)
  | .reading c _, .line none =>
      some ((s.resolveGoal false (.closed c.script)).clearGoal, .accepting)
  | .relaying c feedback m, .feedback =>
      (sendFeedback s open_ feedback m).map fun s' => (s', .reading c feedback)
  | _, _ => none

end SocketServer

end UrRedisDriver
