import UrRedisDriver.Interfaces.RequestKeys
import UrRedisDriver.Driver.Dashboard

/-!
# What the driver's tasks share

`DriverState`, the request keys, the channels and the sockets. A channel is the mailbox of
its receiver: a value sent and not yet taken. Which half of it is still held by somebody is
read off the places that can hold one, not stored.

The fields under "History" record what happened and are never read by a task.
-/

namespace UrRedisDriver

/-- What a goal channel was resolved by. -/
inductive Resolver
  /-- `socket_server`, from an `ok` line of a connection opened by this script. -/
  | ok (script : Chan)
  /-- `socket_server`, from an `error` line. -/
  | error (script : Chan)
  /-- `socket_server`, from the connection closing. -/
  | closed (script : Chan)
  /-- `realtime_reader`, from a safety stop. -/
  | safetyStop
  deriving DecidableEq, Repr

/-- A connection accepted by the kernel, named by the script that opened it. -/
structure Conn where
  script : Chan
  deriving DecidableEq, Repr

/-- The capacity of the dashboard channel. -/
def dashboardCapacity : Nat := 10

/-- The capacity of a feedback channel. -/
def feedbackCapacity : Nat := 5

structure Shared (F : Type) where
  ds : DriverState F
  keys : RequestKeys
  /-- The `watch` channel holds a local address. -/
  localAddr : Bool
  goalBox : Chan → Option Bool
  handshakeBox : Chan → Option Bool
  feedbackBox : Chan → List String
  cancelBox : Nat → Bool
  resumeBox : Nat → Bool
  /-- The dashboard channel, oldest first. -/
  queue : List Request
  nextRequest : Nat
  /-- The reply channels that have been answered. -/
  reply : Nat → Option DashboardReply
  /-- Connections waiting in the listener, oldest first. -/
  backlog : List Conn
  /-- The scripts that were written to the realtime port and are not over. -/
  running : List Chan
  /-- The program each attempt sent. -/
  program : Chan → Option String
  /-- History: `goal_id` was cleared by a closed script socket or by a safety stop, and
  no goal has put the guard up since. -/
  cleared : Bool
  /-- History: `command_server` has sent a cancel to this goal. -/
  cancelDelivered : Nat → Bool
  /-- History: `resume_motion` has signalled this goal. -/
  resumeSignalled : Nat → Bool
  /-- History: what resolved this goal channel. -/
  resolvedBy : Chan → Option Resolver
  /-- History: a stop issued for this goal was answered with success. -/
  stopAcked : Nat → Bool
  /-- History: every command queued for the dashboard task, by the number of its reply
  channel. -/
  sent : List Request

/-- Whose stop has been acknowledged once `r` is answered with `reply`. -/
def acknowledge (acked : Nat → Bool) (r : Request) (reply : DashboardReply) : Nat → Bool :=
  match r.requester with
  | .goal g => if r.command = .stop ∧ reply.success then Function.update acked g true else acked
  | .server => acked

theorem acknowledge_mono {acked : Nat → Bool} {r : Request} {reply : DashboardReply} {g : Nat}
    (h : acked g = true) : acknowledge acked r reply g = true := by
  unfold acknowledge
  cases r.requester with
  | server => exact h
  | goal g' =>
      dsimp only
      split
      · by_cases hg : g = g'
        · subst hg; exact Function.update_self ..
        · rw [Function.update_of_ne hg]; exact h
      · exact h

theorem acknowledge_stop {acked : Nat → Bool} {r : Request} {reply : DashboardReply} {g : Nat}
    (hr : r.requester = .goal g) (hc : r.command = .stop) (hs : reply.success = true) :
    acknowledge acked r reply g = true := by
  simp [acknowledge, hr, hc, hs]

namespace Shared

variable {F : Type}

def init [Zero F] : Shared F where
  ds := DriverState.new
  keys := {}
  localAddr := false
  goalBox := fun _ => none
  handshakeBox := fun _ => none
  feedbackBox := fun _ => []
  cancelBox := fun _ => false
  resumeBox := fun _ => false
  queue := []
  nextRequest := 0
  reply := fun _ => none
  backlog := []
  running := []
  program := fun _ => none
  cleared := false
  cancelDelivered := fun _ => false
  resumeSignalled := fun _ => false
  resolvedBy := fun _ => none
  stopAcked := fun _ => false
  sent := []

/-- Resolve the goal whose sender is in `DriverState`, if there is one. -/
def resolveGoal (s : Shared F) (v : Bool) (by_ : Resolver) : Shared F :=
  match s.ds.goalSender with
  | some ch =>
      { s with
        ds := { s.ds with goalSender := none }
        goalBox := Function.update s.goalBox ch (some v)
        resolvedBy := Function.update s.resolvedBy ch (some by_) }
  | none => s

/-- All that resolving a goal can change. -/
theorem resolveGoal_eq (s : Shared F) (v : Bool) (by_ : Resolver) :
    ∃ box by', s.resolveGoal v by_ = { s with
      ds := { s.ds with goalSender := none }, goalBox := box, resolvedBy := by' } := by
  unfold resolveGoal
  split
  · exact ⟨_, _, rfl⟩
  · rename_i h
    exact ⟨s.goalBox, s.resolvedBy, by rw [← h]⟩

/-- What a closed script socket and a safety stop do once the goal is resolved. -/
def clearGoal (s : Shared F) : Shared F :=
  { s with ds := { s.ds with feedbackSender := none, goalId := none }, cleared := true }

/-- Queue a command for the dashboard task. -/
def submit (s : Shared F) (cmd : DashboardCommand) (requester : Requester) (up : Bool) :
    Shared F :=
  { s with
    queue := s.queue ++ [⟨cmd, s.nextRequest, requester, up⟩]
    nextRequest := s.nextRequest + 1
    sent := s.sent ++ [⟨cmd, s.nextRequest, requester, up⟩] }

end Shared

end UrRedisDriver
