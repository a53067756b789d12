import UrRedisDriver.Proof.Counters

/-!
# What a confirmed cancel ends in

The stop of a cancel makes two things happen: the dashboard answers it, and the script's
socket closes. `handle_request` takes whichever it sees first, and calls the goal cancelled
on the one and aborted on the other, with a success's counters on the one and a failure's on
the other.
-/

namespace UrRedisDriver.Proof

open UrRedisDriver

variable {F : Type} {cfg : Config F} {w w' e : World F} {g : Nat} {t : Task F}

/-! ## The terminal publication, left to itself -/

/-- Only the Redis operations of goal `g`'s task lead from `w` to `e`, and they are all done. -/
def Ended (cfg : Config F) (g : Nat) (w e : World F) : Prop :=
  ∃ acts : List (Action F), (∀ a ∈ acts, ∃ keys, a = .task g (.redis keys))
    ∧ Lts.run (World.step cfg) w acts = some e
    ∧ ∃ t, e.task g = some t ∧ t.phase = .teardown

/-- Left to itself, goal `g`'s task publishes these keys. -/
def EndsIn (cfg : Config F) (g : Nat) (w : World F) (keys : RequestKeys) : Prop :=
  ∃ e, Ended cfg g w e ∧ e.shared.keys = keys

theorem endsIn_done (ht : w.task g = some t) (hp : t.phase = .teardown) :
    EndsIn cfg g w w.shared.keys :=
  ⟨w, ⟨[], fun _ ha => absurd ha List.not_mem_nil, rfl, t, ht, hp⟩, rfl⟩

/-- What a Redis operation of goal `g`'s task leads to. -/
def afterRedis (w : World F) (g : Nat) (keys : RequestKeys) (t : Task F) : World F :=
  { w with
    shared := { w.shared with keys := keys }
    task := Function.update w.task g (some t) }

theorem afterRedis_task {keys : RequestKeys} : (afterRedis w g keys t).task g = some t :=
  Function.update_self ..

/-- A task on its way to the teardown can always do its next operation. -/
theorem step_redis {keys : RequestKeys} {t' : Task F} (hs : w.socket ≠ .stopped)
    (ht : w.task g = some t) (hop : t.redisOp w.shared.keys = some (keys, t')) :
    World.step cfg w (.task g (.redis w.shared.keys)) = some (afterRedis w g keys t') := by
  have hstep : t.step cfg.render (.redis w.shared.keys) = some t' := by
    rw [step_redis_eq, hop]
    rfl
  -- a Redis operation is made on the keys as they are, so it is always ready
  have hready : w.ready g t (.redis w.shared.keys) = true := decide_eq_true rfl
  have heffect : World.effect cfg w.dashboard.up w.shared g t (.redis w.shared.keys)
      = { w.shared with keys := keys } := by
    unfold World.effect
    dsimp only
    rw [hop]
  simp only [World.step, if_neg hs, World.taskStep, ht, hready, if_true, hstep, Option.map_some,
    heffect]
  rfl

theorem endsIn_redis {keys keys' : RequestKeys} {t' : Task F} (hs : w.socket ≠ .stopped)
    (ht : w.task g = some t) (hop : t.redisOp w.shared.keys = some (keys, t'))
    (h : EndsIn cfg g (afterRedis w g keys t') keys') : EndsIn cfg g w keys' := by
  obtain ⟨e, ⟨acts, hacts, hrun, hend⟩, hkeys⟩ := h
  refine ⟨e, ⟨.task g (.redis w.shared.keys) :: acts, ?_, ?_, hend⟩, hkeys⟩
  · intro a ha
    rcases List.mem_cons.mp ha with rfl | ha
    · exact ⟨w.shared.keys, rfl⟩
    · exact hacts a ha
  · rw [Lts.run_cons, step_redis hs ht hop]
    exact hrun

/-- The keys once a goal has been published as succeeded. -/
def succeededKeys (keys : RequestKeys) (message : String) : RequestKeys :=
  { keys with requestResult := message, requestState := .succeeded, subsequentFailCounter := 0 }

/-- The keys once a goal has been published as failed. -/
def failedKeys (keys : RequestKeys) (message : String) : RequestKeys :=
  { keys with
    requestResult := message, requestState := .failed
    totalFailCounter := keys.totalFailCounter + 1
    subsequentFailCounter := keys.subsequentFailCounter + 1 }

theorem endsIn_succeeded (hs : w.socket ≠ .stopped) (ht : w.task g = some t)
    (hp : t.phase = .publishResult) :
    EndsIn cfg g w (succeededKeys w.shared.keys t.message) := by
  obtain ⟨phase⟩ := t
  cases hp
  refine endsIn_redis hs ht rfl ?_
  refine endsIn_redis hs afterRedis_task rfl ?_
  refine endsIn_redis hs afterRedis_task rfl ?_
  exact endsIn_done afterRedis_task rfl

theorem endsIn_failed (hs : w.socket ≠ .stopped) (ht : w.task g = some t)
    (hp : t.phase = .failing .read) :
    EndsIn cfg g w (failedKeys w.shared.keys t.message) := by
  obtain ⟨phase⟩ := t
  cases hp
  -- the five operations of `fail_request`
  refine endsIn_redis hs ht rfl ?_
  refine endsIn_redis hs afterRedis_task rfl ?_
  refine endsIn_redis hs afterRedis_task rfl ?_
  refine endsIn_redis hs afterRedis_task rfl ?_
  refine endsIn_redis hs afterRedis_task rfl ?_
  exact endsIn_done afterRedis_task rfl

/-! ## The two orders -/

/-- Goal `g` was cancelled while its script ran, its stop has been confirmed, and the script's
socket has closed without a verdict: both are there to be seen. -/
structure StopRace (w : World F) (g : Nat) (t : Task F) (reply : DashboardReply) : Prop where
  task : w.task g = some t
  waits : t.phase = .stopPending
  replied : w.shared.reply t.stopRequest = some reply
  confirmed : reply.success = true
  closed : w.shared.goalBox ⟨g, t.attempt⟩ = some false

/-- What a client can tell two endings apart by. -/
structure SameEnding (keys keys' : RequestKeys) : Prop where
  requestState : keys.requestState = keys'.requestState
  requestResult : keys.requestResult = keys'.requestResult
  totalFailCounter : keys.totalFailCounter = keys'.totalFailCounter
  subsequentFailCounter : keys.subsequentFailCounter = keys'.subsequentFailCounter

/-- The goal ends in the same way whether the stop's reply is seen first or the verdict. -/
def OneOutcome (cfg : Config F) (w : World F) (g : Nat) (reply : DashboardReply) : Prop :=
  ∀ w₁ w₂ keys₁ keys₂, World.step cfg w (.task g (.stopReply (some reply))) = some w₁ →
    EndsIn cfg g w₁ keys₁ → World.step cfg w (.task g (.goal (some false))) = some w₂ →
    EndsIn cfg g w₂ keys₂ → SameEnding keys₁ keys₂

section Orders

variable {reply : DashboardReply}

/-- The reply first: the goal has been cancelled. -/
theorem StopRace.replyFirst (h : StopRace w g t reply) (hs : w.socket ≠ .stopped) :
    ∃ w₁, World.step cfg w (.task g (.stopReply (some reply))) = some w₁
      ∧ EndsIn cfg g w₁ (succeededKeys w.shared.keys "cancelled") := by
  have hready : w.ready g t (.stopReply (some reply)) = true := decide_eq_true h.replied
  have hstep : t.step cfg.render (.stopReply (some reply))
      = some (t.leave (.stopAnswered reply)) := by
    simp only [Task.step, h.waits]
  refine ⟨afterRedis w g w.shared.keys (t.leave (.stopAnswered reply)), ?_, ?_⟩
  · simp only [World.step, if_neg hs, World.taskStep, h.task, hready, if_true, hstep,
      Option.map_some]
    rfl
  · exact endsIn_succeeded (t := t.leave (.stopAnswered reply)) hs afterRedis_task rfl

/-- The verdict first: the goal has been aborted. -/
theorem StopRace.verdictFirst (h : StopRace w g t reply) (hs : w.socket ≠ .stopped) :
    ∃ w₂, World.step cfg w (.task g (.goal (some false))) = some w₂
      ∧ EndsIn cfg g w₂ (failedKeys w.shared.keys "aborted before reaching the goal") := by
  -- the close of the connection has left its verdict in the channel
  have hready : w.ready g t (.goal (some false)) = true := beq_iff_eq.mpr h.closed
  have hstep : t.step cfg.render (.goal (some false))
      = some (t.leave (.verdict (some false))) := by
    simp only [Task.step, h.waits]
  refine ⟨{ w with
    shared := { w.shared with
      goalBox := Function.update w.shared.goalBox ⟨g, t.attempt⟩ none }
    task := Function.update w.task g (some (t.leave (.verdict (some false)))) }, ?_, ?_⟩
  · simp only [World.step, if_neg hs, World.taskStep, h.task, hready, if_true, hstep,
      Option.map_some]
    rfl
  · exact endsIn_failed (t := t.leave (.verdict (some false))) hs (Function.update_self ..) rfl

/-- The two endings agree on neither the state nor the result. -/
theorem StopRace.endings (h : StopRace w g t reply) (hs : w.socket ≠ .stopped) :
    ¬ OneOutcome cfg w g reply := by
  intro hone
  obtain ⟨w₁, hs₁, he₁⟩ := @StopRace.replyFirst F cfg w g t reply h hs
  obtain ⟨w₂, hs₂, he₂⟩ := @StopRace.verdictFirst F cfg w g t reply h hs
  have hsame := hone w₁ w₂ _ _ hs₁ he₁ hs₂ he₂
  exact ActionRequestState.noConfusion hsame.requestState

/--
**A cancel has two outcomes.** Whenever a cancelled goal's stop has been confirmed and its
script's socket has closed without a verdict, the goal is published as succeeded and
"cancelled", with the streak cleared, if the reply is seen first, and as failed and aborted,
with a failure more on both counters, if the verdict is: it never has one outcome.
-/
theorem two_outcomes (h : StopRace w g t reply) (hs : w.socket ≠ .stopped) :
    ¬ OneOutcome cfg w g reply
    ∧ (∃ w₁, World.step cfg w (.task g (.stopReply (some reply))) = some w₁
      ∧ EndsIn cfg g w₁ (succeededKeys w.shared.keys "cancelled"))
    ∧ ∃ w₂, World.step cfg w (.task g (.goal (some false))) = some w₂
      ∧ EndsIn cfg g w₂ (failedKeys w.shared.keys "aborted before reaching the goal") :=
  ⟨h.endings hs, h.replyFirst hs, h.verdictFirst hs⟩

end Orders

open Scenario

namespace Scenario

/-- A goal cancelled while its script runs, its stop answered and its socket closed. -/
def stopped : List (Action Int) :=
  start ++ dashboardUp ++ request "a" ++ launch 0 ++ shake ⟨0, 0⟩ "a" ++ askCancel
    ++ [.command .cancel, .task 0 .cancel, .task 0 (.sendStop (some 0)),
      .dashboard (.take ⟨.stop, 0, .goal 0, true⟩)] ++ trip "Stopped"
    ++ [.dashboard .answer, .socket (.line none)]

/-- What a `StopRace` looks at. -/
def racing (w : World Int) : Bool :=
  w.socket == .accepting && (w.task 0).any fun t =>
    t.phase == .stopPending && w.shared.goalBox ⟨0, t.attempt⟩ == some false
      && (w.shared.reply t.stopRequest).any (·.success)

theorem stopped_racing :
    ∃ (w : World Int) (t : Task Int) (reply : DashboardReply),
      Lts.Reachable (World.step config) World.init w ∧ w.socket ≠ .stopped
        ∧ StopRace w 0 t reply := by
  -- the stop is acknowledged, and the program it stops closes its connection
  have hrun : (Lts.run (World.step config) World.init stopped).any racing = true := by decide
  obtain ⟨w, hw, hp⟩ := Lts.exists_of_run hrun
  obtain ⟨hsocket, hp⟩ := Bool.and_eq_true_iff.mp hp
  obtain ⟨t, ht, hp⟩ := (Option.any_eq_true _ _).mp hp
  obtain ⟨hp, hreply⟩ := Bool.and_eq_true_iff.mp hp
  obtain ⟨hphase, hbox⟩ := Bool.and_eq_true_iff.mp hp
  obtain ⟨reply, hr, hsuccess⟩ := (Option.any_eq_true _ _).mp hreply
  refine ⟨w, t, reply, hw, ?_, ht, eq_of_beq hphase, hr, hsuccess, eq_of_beq hbox⟩
  rw [eq_of_beq hsocket]
  exact SocketPhase.noConfusion

end Scenario

/-- Such a goal, with the two orders still open. -/
theorem not_oneOutcome :
    ¬ ∀ (w : World Int) (t : Task Int) (reply : DashboardReply),
      Lts.Reachable (World.step config) World.init w → StopRace w 0 t reply →
      OneOutcome config w 0 reply := by
  intro h
  obtain ⟨w, t, reply, hw, hs, hrace⟩ := stopped_racing
  exact hrace.endings hs (h w t reply hw hrace)

/-- The same goal ends in both ways. -/
theorem two_outcomes_trace : ∃ (w : World Int) (reply : DashboardReply),
    Lts.Reachable (World.step config) World.init w ∧ ¬ OneOutcome config w 0 reply := by
  obtain ⟨w, t, reply, hw, hs, hrace⟩ := stopped_racing
  exact ⟨w, reply, hw, (two_outcomes hrace hs).1⟩

end UrRedisDriver.Proof
