import UrRedisDriver.Proof.Admission

/-!
# What a goal is reported as

The attempt loop is left with a result that is read a second time when it is published:
`CANCELED` is written as `succeeded` whatever the stop came back with. So `succeeded` says
what it should except after a cancel whose stop the controller refused.

Everything here is about one goal's task alone, under every sequence of inputs.
-/

namespace UrRedisDriver.Proof

open UrRedisDriver

variable {F : Type} {render : RobotCommand F → Except String String}

/-- The goal channel gives the script's `ok`. -/
def ReportsOk (i : TaskInput) : Prop := i = .goal (some true)

/-- The stop of the goal's cancel is answered with `reply`. -/
def StopReplied (reply : DashboardReply) (p : Phase) (i : TaskInput) : Prop :=
  p = .stopPending ∧ i = .stopReply (some reply)

theorem Exit.requestState_cases (e : Exit) :
    e.requestState = .succeeded ∨ e.requestState = .failed := by
  cases e with
  | verdict v =>
      rcases v with _ | _ | _ <;>
        simp [Exit.requestState, Exit.result, ResultType.requestState]
  | _ => simp [Exit.requestState, Exit.result, ResultType.requestState]

/-- The two exits that are published as `succeeded`. -/
theorem Exit.requestState_succeeded {e : Exit} (h : e.requestState = .succeeded) :
    e = .verdict (some true) ∨ ∃ reply, e = .stopAnswered reply := by
  cases e with
  | verdict v =>
      rcases v with _ | _ | _ <;>
        simp_all [Exit.requestState, Exit.result, ResultType.requestState]
  | stopAnswered reply => exact .inr ⟨reply, rfl⟩
  | _ => simp [Exit.requestState, Exit.result, ResultType.requestState] at h

/-- How far the publication of an exit has got. -/
def Publishing (e : Exit) (published : Option ActionRequestState) : Phase → Prop
  | .publishResult | .publishState => e.requestState = .succeeded ∧ published = none
  | .publishCounter => e.requestState = .succeeded ∧ published = some .succeeded
  | .failing _ => e.requestState = .failed ∧ published = none
  | .teardown | .done => published = some e.requestState
  | _ => False

/-- Inside the attempt loop. -/
def Phase.looping (p : Phase) : Prop := p.publishing = false ∧ p ≠ .teardown ∧ p ≠ .done

theorem looping_of_inAttempt {p : Phase} (h : p.inAttempt = true) : Phase.looping p := by
  refine ⟨?_, ?_, ?_⟩
  · cases p <;> first | rfl | cases h
  · rintro rfl
    cases h
  · rintro rfl
    cases h

theorem not_inAttempt_of_publishing {p : Phase} (h : p.publishing = true) :
    p.inAttempt = false := by
  unfold Phase.publishing at h
  split at h <;> first | rfl | cases h

/-- A task leaves the attempt loop for good. -/
theorem Move.inAttempt {t t' : Task F} {i : TaskInput} (h : Task.Move t i t')
    (hl : t'.phase.inAttempt = true) : t.phase.inAttempt = true := by
  cases h with
  | hop i p hh =>
      generalize t.phase = q at hh
      cases hh with
      | teardown => cases hl
      | _ => rfl
  | leave i e hh =>
      rw [not_inAttempt_of_publishing (leave_phase t e)] at hl
      cases hl
  | publish keys p written hh =>
      rcases hh.publishing.2 with hp | rfl
      · rw [not_inAttempt_of_publishing hp] at hl
        cases hl
      · cases hl
  | feedback m hp => rw [hp]; rfl
  | install hp | write hp | handshake hp | stop id hp | restop id hp | measure n next hp
  | activate remaining nextScript hp => rw [hp]; rfl

theorem not_publishing_of_looping {e : Exit} {published : Option ActionRequestState} {p : Phase}
    (h : Phase.looping p) : ¬ Publishing e published p := by
  obtain ⟨h1, h2, h3⟩ := h
  cases p <;> simp_all [Publishing, Phase.publishing]

theorem Leaves.looping {p : Phase} {i : TaskInput} {e : Exit} (h : Task.Leaves p i e) :
    Phase.looping p := by
  cases h with
  | verdict p v h => rcases h with rfl | rfl | rfl <;> exact ⟨rfl, nofun, nofun⟩
  | _ => exact ⟨rfl, nofun, nofun⟩

theorem leave_publishing (t : Task F) (e : Exit) :
    Publishing e none (t.leave e).phase := by
  unfold Task.leave
  dsimp only
  split
  · rename_i h
    exact ⟨h, rfl⟩
  · rename_i h
    exact ⟨(Exit.requestState_cases e).resolve_left h, rfl⟩

theorem Publishing.step {e : Exit} {published written : Option ActionRequestState} {p p' : Phase}
    (h : Publishing e published p) (hp : Task.Publishes p p' written) :
    Publishing e (written.or published) p' := by
  cases hp with
  | result => exact h
  | state => exact ⟨h.1, rfl⟩
  | counter => exact h.2.trans (congrArg some h.1.symm)
  | failing step step' => exact h
  | failed step => exact congrArg some h.1.symm

theorem Leaves.reportsOk_iff {p : Phase} {i : TaskInput} {e : Exit} (h : Task.Leaves p i e) :
    ReportsOk i ↔ e = .verdict (some true) := by
  cases h <;> simp [ReportsOk]

theorem Leaves.stopReplied_iff {p : Phase} {i : TaskInput} {e : Exit} (h : Task.Leaves p i e)
    (reply : DashboardReply) : StopReplied reply p i ↔ e = .stopAnswered reply := by
  cases h <;> simp [StopReplied, eq_comm]

theorem Hops.looping {p p' : Phase} {i : TaskInput} (h : Task.Hops p i p') :
    (p = .teardown ∧ p' = .done) ∨ (Phase.looping p ∧ Phase.looping p') := by
  cases h <;> first | exact .inl ⟨rfl, rfl⟩ | exact .inr ⟨⟨rfl, nofun, nofun⟩, ⟨rfl, nofun, nofun⟩⟩

/-- A step neither of the two exits that count is taken by. -/
def Silent (p : Phase) (i : TaskInput) : Prop :=
  ¬ ReportsOk i ∧ ∀ reply, ¬ StopReplied reply p i

theorem Hops.silent {p p' : Phase} {i : TaskInput} (h : Task.Hops p i p') : Silent p i := by
  cases h <;> simp [Silent, ReportsOk, StopReplied]

/-- A step leaves the loop, stays in it, or moves the publication on. -/
theorem Move.kind {t t' : Task F} {i : TaskInput} (h : Task.Move t i t') :
    (∃ e, Task.Leaves t.phase i e ∧ t' = t.leave e)
    ∨ Silent t.phase i ∧ t'.exit = t.exit
      ∧ ((Phase.looping t.phase ∧ Phase.looping t'.phase ∧ t'.published = t.published)
        ∨ (¬ Phase.looping t.phase
          ∧ ∀ e, Publishing e t.published t.phase → Publishing e t'.published t'.phase)) := by
  cases h with
  | leave i e hh => exact .inl ⟨e, hh, rfl⟩
  | hop i p hh =>
      refine .inr ⟨Hops.silent hh, rfl, ?_⟩
      -- a hop stays in the loop, but for the last one, from the teardown
      rcases Hops.looping hh with ⟨hp, rfl⟩ | ⟨hp, hp'⟩
      · rw [hp]
        exact .inr ⟨fun hl => hl.2.1 rfl, fun e he => he⟩
      · exact .inl ⟨hp, hp', rfl⟩
  | publish keys p written hp =>
      refine .inr ⟨⟨nofun, nofun⟩, rfl, .inr ⟨fun hl => ?_, fun e he => he.step hp⟩⟩
      have hpub := hp.publishing.1
      rw [hl.1] at hpub
      cases hpub
  | feedback m hp hf =>
      have hl : Phase.looping t.phase := by rw [hp]; exact ⟨rfl, nofun, nofun⟩
      exact .inr ⟨⟨nofun, nofun⟩, rfl, .inl ⟨hl, hl, rfl⟩⟩
  | install hp | write hp | handshake hp | stop id hp | restop id hp | measure n next hp
  | activate remaining nextScript hp =>
      rw [hp]
      exact .inr ⟨⟨nofun, nofun⟩, rfl, .inl ⟨⟨rfl, nofun, nofun⟩, ⟨rfl, nofun, nofun⟩, rfl⟩⟩

/-- The phase, the exit and what is published go together. -/
structure Consistent (t : Task F) : Prop where
  looping : t.exit = none → t.published = none ∧ Phase.looping t.phase
  left : ∀ e, t.exit = some e → Publishing e t.published t.phase

theorem Consistent.exit_none {t : Task F} (h : Consistent t) (hl : Phase.looping t.phase) :
    t.exit = none := by
  by_contra hne
  obtain ⟨e, he⟩ := Option.ne_none_iff_exists'.mp hne
  exact not_publishing_of_looping hl (h.left e he)

/-- A goal that has written its terminal state is out of the loop. -/
theorem Consistent.not_looping {t : Task F} (h : Consistent t)
    (hp : t.published.isSome = true) : ¬ Phase.looping t.phase := by
  intro hl
  rw [(h.looping (h.exit_none hl)).1] at hp
  cases hp

theorem Consistent.step {t t' : Task F} {i : TaskInput} (h : Consistent t)
    (hm : Task.Move t i t') : Consistent t' := by
  rcases Move.kind hm with ⟨e, hl, rfl⟩ | ⟨-, hexit, hphase⟩
  · -- it leaves now, and nothing has been published while it was in the loop
    have hpub : t.published = none := (h.looping (h.exit_none (Leaves.looping hl))).1
    refine ⟨nofun, fun e' he' => ?_⟩
    cases he'
    exact (show (t.leave e).published = none from hpub) ▸ leave_publishing t e
  · refine ⟨fun hn => ?_, fun e he => ?_⟩
    · -- still without an exit: it stays in the loop
      rw [hexit] at hn
      obtain ⟨hpub, hloop⟩ := h.looping hn
      rcases hphase with ⟨-, hloop', hsame⟩ | ⟨hnl, -⟩
      · exact ⟨hsame ▸ hpub, hloop'⟩
      · exact absurd hloop hnl
    · rw [hexit] at he
      rcases hphase with ⟨hloop, -, -⟩ | ⟨-, hstep⟩
      · exact absurd (h.left e he) (not_publishing_of_looping hloop)
      · exact hstep e (h.left e he)

/-- What a run of a goal's task has come to, with what it has seen on the way. -/
structure Outcome (ok : Prop) (replied : DashboardReply → Prop) (t : Task F) : Prop extends
    Consistent t where
  ok_iff : ok ↔ t.exit = some (.verdict (some true))
  replied_iff : ∀ reply, replied reply ↔ t.exit = some (.stopAnswered reply)

theorem Outcome.step {ok : Prop} {replied : DashboardReply → Prop} {t t' : Task F}
    {i : TaskInput} (h : Outcome ok replied t) (hm : Task.Move t i t') :
    Outcome (ok ∨ ReportsOk i) (fun reply => replied reply ∨ StopReplied reply t.phase i) t' := by
  refine ⟨h.toConsistent.step hm, ?_, fun reply => ?_⟩
  · rcases Move.kind hm with ⟨e, hl, rfl⟩ | ⟨⟨hok, -⟩, hexit, -⟩
    · -- the loop is left once: nothing had been seen that counts
      rw [h.ok_iff, h.exit_none (Leaves.looping hl), Leaves.reportsOk_iff hl]
      simp [Task.leave]
    · rw [hexit, ← h.ok_iff]
      exact or_iff_left hok
  · rcases Move.kind hm with ⟨e, hl, rfl⟩ | ⟨⟨-, hreply⟩, hexit, -⟩
    · rw [h.replied_iff, h.exit_none (Leaves.looping hl), Leaves.stopReplied_iff hl]
      simp [Task.leave]
    · rw [hexit, ← h.replied_iff]
      exact or_iff_left (hreply reply)

/-! ## Every run -/

section Runs

variable {uuid script : String} {command : RobotCommand F} {is : List TaskInput} {t : Task F}

/-- The states a spawned task goes through. -/
abbrev TaskRun (render : RobotCommand F → Except String String) (uuid script : String)
    (command : RobotCommand F) (is : List TaskInput) (t : Task F) : Prop :=
  Lts.run (Task.step render) (Task.accepted uuid script command).spawn is = some t

/-- Some step of the run was taken like this. -/
abbrev TaskTook (render : RobotCommand F → Except String String) (uuid script : String)
    (command : RobotCommand F) (is : List TaskInput) (P : Phase → TaskInput → Prop) : Prop :=
  Lts.Took (Task.step render) (Task.accepted uuid script command).spawn is fun t i => P t.phase i

theorem outcome_run (h : TaskRun render uuid script command is t) :
    Outcome (TaskTook render uuid script command is fun _ i => ReportsOk i)
      (fun reply => TaskTook render uuid script command is (StopReplied reply)) t := by
  refine Lts.run_induction (P := fun is t => Outcome
    (TaskTook render uuid script command is fun _ i => ReportsOk i)
    (fun reply => TaskTook render uuid script command is (StopReplied reply)) t) ?_ ?_ h
  · exact ⟨⟨fun _ => ⟨rfl, rfl, nofun, nofun⟩, nofun⟩,
      ⟨fun ht => absurd ht Lts.not_took_nil, nofun⟩,
      fun _ => ⟨fun ht => absurd ht Lts.not_took_nil, nofun⟩⟩
  · intro is t i t' hrun hI hs
    have hstep := hI.step (Task.step_move hs)
    refine ⟨hstep.toConsistent, ?_, fun reply => ?_⟩
    · rw [← hstep.ok_iff]; exact Lts.took_snoc hrun
    · rw [← hstep.replied_iff]; exact Lts.took_snoc hrun

theorem Publishing.written {e : Exit} {published : Option ActionRequestState} {p : Phase}
    (h : Publishing e published p) (hp : published.isSome = true) :
    published = some e.requestState := by
  cases p with
  | publishCounter => exact h.2.trans (congrArg some h.1.symm)
  | teardown => exact h
  | done => exact h
  | publishResult => rw [h.2] at hp; cases hp
  | publishState => rw [h.2] at hp; cases hp
  | failing step => rw [h.2] at hp; cases hp
  | _ => exact absurd h (by simp [Publishing])

/-- A terminal state that is written is the one of the exit the loop was left by. -/
theorem Consistent.exit (h : Consistent t)
    (hp : t.published.isSome = true) :
    ∃ e, t.exit = some e ∧ t.published = some e.requestState := by
  cases he : t.exit with
  | none => rw [(h.looping he).1] at hp; cases hp
  | some e => exact ⟨e, rfl, (h.left e he).written hp⟩

/--
**Success is truthful, unless the stop of a cancel was refused.** In every run of a goal's
task that has written its terminal state: `succeeded` was written only on the script's `ok`
or on a stop that was answered with success, if and only if no stop of a cancel was answered
otherwise.
-/
theorem succeeded_truthful_iff (h : TaskRun render uuid script command is t)
    (hp : t.published.isSome = true) :
    (t.published = some .succeeded →
      (TaskTook render uuid script command is fun _ i => ReportsOk i)
      ∨ ∃ reply, TaskTook render uuid script command is (StopReplied reply)
          ∧ reply.success = true)
    ↔ ∀ reply, TaskTook render uuid script command is (StopReplied reply) →
        reply.success = true := by
  have hO := outcome_run h
  obtain ⟨e, he, hpub⟩ := hO.exit hp
  constructor
  · intro htrue reply hreply
    have hexit := (hO.replied_iff reply).mp hreply
    rw [he] at hexit
    cases hexit
    -- an exit is one thing: an ok and an answered stop exclude each other
    rcases htrue hpub with hok | ⟨reply', hreply', hsuccess⟩
    · have := hO.ok_iff.mp hok
      rw [he] at this
      cases this
    · have := (hO.replied_iff reply').mp hreply'
      rw [he] at this
      cases this
      exact hsuccess
  · intro hall hsucc
    rw [hpub] at hsucc
    rcases Exit.requestState_succeeded (Option.some.inj hsucc) with rfl | ⟨reply, rfl⟩
    · exact .inl (hO.ok_iff.mpr he)
    · have hreply := (hO.replied_iff reply).mpr he
      exact .inr ⟨reply, hreply, hall reply hreply⟩

end Runs

namespace Scenario

/-- A goal cancelled while its script runs, up to `succeeded` being written. -/
def cancelled (reply : DashboardReply) : List TaskInput :=
  [.connect (.ok ()), .install, .write (.ok ()), .handshake (.value true), .cancel,
    .sendStop (some 0), .stopReply (some reply), .redis {}, .redis {}]

def refused : DashboardReply := .fail "Failed to execute: stop (robot is in Local control)"

/-- Where that leaves the task. -/
def afterCancel (reply : DashboardReply) : Task Int :=
  { phase := .publishCounter, uuid := "a", script := program, command := move
    exit := some (.stopAnswered reply)
    installed := true, scripts := 1, published := some .succeeded }

theorem cancelled_run (reply : DashboardReply) :
    TaskRun config.render "a" program move (cancelled reply) (afterCancel reply) := rfl

end Scenario

open Scenario

/-- The controller refuses the stop, the script keeps running, and `succeeded` is written. -/
theorem not_succeeded_truthful :
    ¬ ∀ (is : List TaskInput) (t : Task Int), TaskRun config.render "a" program move is t →
      t.published = some .succeeded →
      (TaskTook config.render "a" program move is fun _ i => ReportsOk i)
      ∨ ∃ reply, TaskTook config.render "a" program move is (StopReplied reply)
          ∧ reply.success = true := by
  intro h
  have hO := outcome_run (cancelled_run refused)
  rcases h _ _ (cancelled_run refused) rfl with hok | ⟨reply, hreply, hs⟩
  · cases hO.ok_iff.mp hok
  · cases (hO.replied_iff reply).mp hreply
    cases hs

/-- The same run with the stop acknowledged. -/
theorem succeeded_truthful_trace :
    (TaskTook config.render "a" program move (cancelled (.ok "Stopped")) fun _ i => ReportsOk i)
    ∨ ∃ reply, TaskTook config.render "a" program move (cancelled (.ok "Stopped"))
        (StopReplied reply) ∧ reply.success = true := by
  have hrun := cancelled_run (.ok "Stopped")
  refine (succeeded_truthful_iff hrun rfl).mpr (fun reply hreply => ?_) rfl
  cases ((outcome_run hrun).replied_iff reply).mp hreply
  rfl

end UrRedisDriver.Proof
