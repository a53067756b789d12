import UrRedisDriver.Proof.Balance
import UrRedisDriver.Proof.Feedback
import UrRedisDriver.Proof.Serving

/-!
# A cancel brings the driver to rest

Wherever a run has got to, no goal is stuck there. Nothing of the robot is needed to end it but
a Dashboard Server that can be connected to: no script has to answer, no port has to take a
connection or a write. Each task has a rank here that one of its own steps can lower. Only a
goal waiting on its script has none, and that is the one a cancel gets through to.
-/

namespace UrRedisDriver.Proof

open UrRedisDriver

variable {F : Type} {cfg : Config F} {w w' : World F} {g : Nat} {t : Task F}

/-- What is left when nothing of the robot answers but the Dashboard Server, and the client
does nothing but cancel. -/
def unaided : Action F → Prop
  | .client (.requestCancel v) => v = true
  | .command _ | .dashboard _ => True
  | .task _ (.connect (.ok _)) | .task _ (.write (.ok _)) => False
  | .task _ _ => True
  | _ => False

/-! ## `command_server` -/

/-- How much of `fail_request` is left. -/
def FailStep.left : FailStep → Nat
  | .read => 4
  | .setTotal _ _ => 3
  | .setSubsequent _ => 2
  | .publishResult => 1
  | .publishState => 0

/-- How far `command_server` is from its tick. -/
def commandLeft : CommandPhase F → Nat
  | .idle => 0
  | .storing _ _ => 1
  | .announcing _ _ => 2
  | .failing _ step => 1 + FailStep.left step
  | .checking _ _ => 6
  | .preparing => 7
  | .consuming _ => 8
  | .cancelling _ _ => 9
  | .clearing _ _ => 10

/-- It is never stuck on the way there. -/
theorem command_lower (n : Nat) (s : Shared F) {p : CommandPhase F} (hp : p ≠ .idle) :
    ∃ i s' p', CommandServer.step n s p i = some (s', p') ∧ commandLeft p' < commandLeft p := by
  cases p with
  | idle => exact absurd rfl hp
  | clearing triggered state => exact ⟨.redis, _, _, rfl, by simp [commandLeft]⟩
  | cancelling triggered state =>
      exact ⟨.cancel, _, _, rfl, by cases triggered <;> simp [commandLeft]⟩
  | consuming state => exact ⟨.redis, _, _, rfl, by cases state <;> simp [commandLeft]⟩
  -- whatever the request is, it may turn out not to be preparable
  | preparing => exact ⟨.prepare (.error ""), _, _, rfl, by simp [commandLeft, FailStep.left]⟩
  | checking command script =>
      -- which way it goes is for the block to say; both ways lead down
      cases hr : CommandServer.rejection s with
      | none => exact ⟨.admission "", s, .announcing n command, by simp [CommandServer.step, hr],
          by simp [commandLeft]⟩
      | some reason => exact ⟨.admission "", s, .failing reason .read,
          by simp [CommandServer.step, hr], by simp [commandLeft, FailStep.left]⟩
  | announcing g command => exact ⟨.redis, _, _, rfl, by simp [commandLeft]⟩
  | storing g command => exact ⟨.store, _, _, rfl, by simp [commandLeft]⟩
  | failing reason step =>
      cases step <;> exact ⟨.redis, _, _, rfl, by simp [commandLeft, FailStep.left]⟩

theorem World.step_command_some {i : CommandInput F} {s : Shared F} {p : CommandPhase F}
    (hs : w.socket ≠ .stopped)
    (h : CommandServer.step w.goals w.shared w.command i = some (s, p)) :
    ∃ w', World.step cfg w (.command i) = some w' ∧ w'.command = p := by
  obtain ⟨w', hw⟩ : ∃ w', World.step cfg w (.command i) = some w' := by
    simp [World.step, hs, World.commandStep, h]
  obtain ⟨s', p', hstep, -, hp⟩ := World.step_command_eq hw
  rw [h] at hstep
  cases hstep
  exact ⟨w', hw, hp⟩

/-- A step of `command_server` that neither accepts nor spawns a goal. -/
theorem World.step_command_plain {i : CommandInput F} {s : Shared F} {p : CommandPhase F}
    (hs : w.socket ≠ .stopped) (ha : ∀ uuid, i ≠ .admission uuid) (hi : i ≠ .store)
    (h : CommandServer.step w.goals w.shared w.command i = some (s, p)) :
    World.step cfg w (.command i) = some { w with shared := s, command := p } := by
  simp only [World.step, if_neg hs, World.commandStep, h, Option.map_some]
  split
  · exact absurd rfl (ha _)
  · exact absurd rfl hi
  · rfl

/-! ## The dashboard task -/

/-- How far the dashboard task is from serving the next command. -/
def dashLeft : DashPhase → Nat
  | .serving => 0
  | .identified _ | .polled _ => 1
  | .awaiting (.identity _) .model => 6
  | .awaiting (.identity _) .serial => 4
  | .awaiting (.identity _) _ => 2
  | .sending (.identity _) .model => 7
  | .sending (.identity _) .serial => 5
  | .sending (.identity _) _ => 3
  | .greeting => 8
  | .connecting => 9
  | .dropped => 10
  | .answering _ _ => 11
  | .sending _ _ | .awaiting _ _ | .latching _ _ | .confirming _ | .signalling _ _ => 12
  | .releasing _ _ _ _ | .reading _ => 13

/-- How far it is from having served everything that is queued. -/
def serveLeft (s : Shared F) (p : DashPhase) : Nat := 14 * s.queue.length + dashLeft p

theorem dashLeft_start (r : Request) : dashLeft (DashPhase.start r) < 14 := by
  unfold DashPhase.start
  split <;> simp [dashLeft]

/-- It is never stuck with a command: a socket that fails is an answer too. -/
theorem dashboard_lower (h : w.dashboard ≠ .serving ∨ w.shared.queue ≠ []) :
    ∃ i s ds p, World.dashboardEffect w i = some s
      ∧ DashPhase.step w.shared.ds w.dashboard i = some (ds, p)
      ∧ serveLeft s p < serveLeft w.shared w.dashboard := by
  cases hd : w.dashboard with
  | serving =>
      cases hq : w.shared.queue with
      | nil => simp [hd, hq] at h
      | cons r rest =>
          refine ⟨.take r, { w.shared with queue := rest }, w.shared.ds, DashPhase.start r,
            by simp [World.dashboardEffect, hd, hq], rfl, ?_⟩
          have := dashLeft_start r
          show 14 * rest.length + dashLeft (DashPhase.start r) < 14 * w.shared.queue.length + 0
          rw [hq, List.length_cons]
          omega
  | connecting =>
      exact ⟨.connect, w.shared, _, _, by simp [World.dashboardEffect, hd], rfl,
        by simp [serveLeft, dashLeft]⟩
  | greeting =>
      exact ⟨.greet true, w.shared, _, _, by simp [World.dashboardEffect, hd], rfl,
        by simp [serveLeft, dashLeft]⟩
  | identified _ | polled _ | dropped | latching _ _ =>
      exact ⟨.lock false, w.shared, _, _, by simp [World.dashboardEffect, hd], rfl,
        by simp [serveLeft, dashLeft]⟩
  | sending j t =>
      cases j with
      | identity i =>
          exact ⟨.write (.ok ()), w.shared, _, _, by simp [World.dashboardEffect, hd], rfl,
            by cases t <;> simp [serveLeft, dashLeft]⟩
      | keepalive s | request r sender play =>
          exact ⟨.write (.error ""), w.shared, _, _, by simp [World.dashboardEffect, hd], rfl,
            by simp [serveLeft, dashLeft, DashPhase.failed]⟩
  | awaiting j t =>
      cases j with
      | identity i =>
          exact ⟨.reply (.ok "") false, w.shared, _, _, by simp [World.dashboardEffect, hd], rfl,
            by cases t <;> simp [serveLeft, dashLeft, DashPhase.after]⟩
      | keepalive s | request r sender play =>
          exact ⟨.reply (.error "") false, w.shared, _, _, by simp [World.dashboardEffect, hd],
            rfl, by simp [serveLeft, dashLeft, DashPhase.failed]⟩
  | reading r =>
      obtain ⟨⟨ds, p⟩, hp⟩ : ∃ x, DashPhase.step w.shared.ds (.reading r) (.lock false) = some x := by
        simp only [DashPhase.step]
        split <;> split <;> exact ⟨_, rfl⟩
      refine ⟨.lock false, w.shared, ds, p, by simp [World.dashboardEffect, hd], hp, ?_⟩
      simp only [DashPhase.step] at hp
      split at hp <;> split at hp <;> cases hp <;> simp [serveLeft, dashLeft]
  | releasing r sender play resumed =>
      refine ⟨.lock false, w.shared, _, _, by simp [World.dashboardEffect, hd], rfl, ?_⟩
      split
      · simp [serveLeft, dashLeft]
      · split <;> simp [serveLeft, dashLeft]
  | signalling r g =>
      -- the mailbox takes the signal or refuses it
      cases hb : w.alive g && !w.shared.resumeBox g with
      | true => exact ⟨.signal (.ok ()), _, _, _, by simp [World.dashboardEffect, hd, hb]; rfl, rfl,
          by simp [serveLeft, dashLeft]⟩
      | false => exact ⟨.signal (.error ""), w.shared, _, _,
          by simp [World.dashboardEffect, hd, hb], rfl, by simp [serveLeft, dashLeft]⟩
  | confirming r =>
      obtain ⟨p, hp, hl⟩ : ∃ p, DashPhase.step w.shared.ds (.confirming r) (.lock true)
          = some (w.shared.ds, p) ∧ dashLeft p = 11 := by
        simp only [DashPhase.step]
        split <;> exact ⟨_, rfl, rfl⟩
      refine ⟨.lock true, w.shared, _, p, by simp [World.dashboardEffect, hd], hp, ?_⟩
      show 14 * w.shared.queue.length + dashLeft p < 14 * w.shared.queue.length + 12
      omega
  | answering r result =>
      cases result <;> exact ⟨.answer, _, _, _, by simp only [World.dashboardEffect, hd]; rfl, rfl,
        by simp [serveLeft, dashLeft]⟩

/-- What the dashboard task's own steps leave alone. -/
structure Beside (w w' : World F) : Prop where
  task : w'.task = w.task
  goals : w'.goals = w.goals
  command : w'.command = w.command
  socket : w'.socket = w.socket
  realtime : w'.realtime = w.realtime
  server : w'.server = w.server

/-- Everything that is queued can be served without a step of anybody else. -/
theorem dashboard_serves (cfg : Config F) (hs : w.socket ≠ .stopped) :
    ∃ w', Lts.Leads (World.step cfg) (fun a => ∃ i, a = .dashboard i) w w' ∧ Beside w w'
      ∧ w'.dashboard = .serving ∧ w'.shared.queue = [] := by
  refine Lts.Leads.of_rank (I := Beside w) (m := fun w => serveLeft w.shared w.dashboard) ?_
    ⟨rfl, rfl, rfl, rfl, rfl, rfl⟩
  intro v hv hP
  obtain ⟨i, s, ds, p, he, hp, hlt⟩ := dashboard_lower (not_and_or.mp hP)
  have hstep : World.step cfg v (.dashboard i)
      = some { v with shared := { s with ds := ds }, dashboard := p } := by
    simp only [World.step, if_neg (hv.socket ▸ hs), World.dashboardStep, he, hp]
  exact ⟨_, .single ⟨i, rfl⟩ hstep, { hv with }, hlt⟩

/-! ## A goal's task -/

/-- How far a goal is from having run its teardown block. -/
def phaseLeft : Phase → Nat
  | .done => 0
  | .teardown => 1
  | .publishCounter => 2
  | .publishState => 3
  | .publishResult => 4
  | .failing step => 2 + FailStep.left step
  | .connecting | .writing | .stopPending => 7
  | .installing | .cancelling | .activating => 8
  | .waiting | .resetting => 9
  | .handshaking | .draining => 10
  | .restopPending => 11
  | .restopping => 12
  | .claiming => 13
  | .measuring => 14
  | .admitted => 15

theorem phaseLeft_leave (t : Task F) (e : Exit) : phaseLeft (t.leave e).phase < 7 := by
  unfold Task.leave
  dsimp only
  split <;> simp [phaseLeft, FailStep.left]

theorem leave_lower (e : Exit) (h : 7 ≤ phaseLeft t.phase) :
    phaseLeft (t.leave e).phase < phaseLeft t.phase :=
  (phaseLeft_leave t e).trans_le h

theorem phaseLeft_measure (render : RobotCommand F → Except String String) (t : Task F) (n : Nat) :
    phaseLeft (t.measure render n).phase < 14 := by
  unfold Task.measure
  split
  · exact (phaseLeft_leave t _).trans (by decide)
  · split
    · exact (phaseLeft_leave t _).trans (by decide)
    · simp [phaseLeft]

/-- Goal `g` has got further. `command_server` is at its tick and every other goal where it was. -/
structure Further (w w' : World F) (g : Nat) (t : Task F) : Prop where
  goals : w'.goals = w.goals
  command : w'.command = .idle
  socket : w'.socket ≠ .stopped
  task : ∃ t', w'.task = Function.update w.task g (some t') ∧ phaseLeft t'.phase < phaseLeft t.phase

theorem World.step_task_some {i : TaskInput} {t' : Task F} (hs : w.socket ≠ .stopped)
    (ht : w.task g = some t) (hr : w.ready g t i = true) (hm : t.step cfg.render i = some t') :
    World.step cfg w (.task g i) = some { w with
      shared := World.effect cfg w.dashboard.up w.shared g t i
      task := Function.update w.task g (some t') } := by
  simp only [World.step, if_neg hs, World.taskStep, ht, if_pos hr, hm, Option.map_some]

section Task

variable (hs : w.socket ≠ .stopped) (hidle : w.command = .idle) (ht : w.task g = some t)
include hs hidle ht

/-- One step of the task that it is ready for. -/
theorem further_step {i : TaskInput} {t' : Task F} (hi : unaided (.task (F := F) g i))
    (hr : w.ready g t i = true) (hm : t.step cfg.render i = some t')
    (hlt : phaseLeft t'.phase < phaseLeft t.phase) :
    ∃ w', Lts.Leads (World.step cfg) unaided w w' ∧ Further w w' g t :=
  ⟨_, .single hi (World.step_task_some hs ht hr hm), rfl, hidle, hs, t', rfl, hlt⟩

/-- A stop is queued or refused. -/
theorem further_sendStop (hp : t.phase = .cancelling ∨ t.phase = .restopping) :
    ∃ w', Lts.Leads (World.step cfg) unaided w w' ∧ Further w w' g t := by
  by_cases hq : w.shared.queue.length < dashboardCapacity
  · have hr : w.ready g t (.sendStop (some w.shared.nextRequest)) = true := by
      simp [World.ready, hq]
    rcases hp with hp | hp
    · exact further_step hs hidle ht (i := .sendStop (some w.shared.nextRequest)) trivial hr
        (by simp only [Task.step, hp]; rfl) (by simp [phaseLeft, hp])
    · exact further_step hs hidle ht (i := .sendStop (some w.shared.nextRequest)) trivial hr
        (by simp only [Task.step, hp]; rfl) (by simp [phaseLeft, hp])
  · -- the channel is full, and the stop is given up
    have hr : w.ready g t (.sendStop none) = true := by
      simpa [World.ready] using hq
    rcases hp with hp | hp
    · exact further_step hs hidle ht (i := .sendStop none) trivial hr
        (by simp only [Task.step, hp]; rfl)
        (leave_lower _ (by rw [hp]; decide))
    · exact further_step hs hidle ht (i := .sendStop none) trivial hr
        (by simp only [Task.step, hp]; rfl) (by simp [phaseLeft, hp])

/-- Where the goal waits on nobody but itself. -/
theorem further_alone (hadm : t.phase ≠ .admitted) (hdone : t.phase ≠ .done)
    (hstop : t.phase ≠ .stopPending ∧ t.phase ≠ .restopPending) (hwait : t.phase ≠ .waiting)
    (hnext : t.phase = .activating → t.next.isSome = true) :
    ∃ w', Lts.Leads (World.step cfg) unaided w w' ∧ Further w w' g t := by
  cases hp : t.phase with
  | admitted => exact absurd hp hadm
  | done => exact absurd hp hdone
  | stopPending => exact absurd hp hstop.1
  | restopPending => exact absurd hp hstop.2
  | waiting => exact absurd hp hwait
  | connecting =>
      -- nobody has to help: a connection that fails is a way on
      exact further_step hs hidle ht (i := .connect (.error "")) trivial rfl
        (by simp only [Task.step, hp]; rfl) (leave_lower _ (by rw [hp]; decide))
  | installing =>
      exact further_step hs hidle ht (i := .install) trivial rfl
        (by simp only [Task.step, hp]; rfl) (by simp [phaseLeft, hp])
  | writing =>
      exact further_step hs hidle ht (i := .write (.error "")) trivial rfl
        (by simp only [Task.step, hp]; rfl) (leave_lower _ (by rw [hp]; decide))
  | handshaking =>
      -- the timeout may win only while no echo is there
      cases hb : w.shared.handshakeBox ⟨g, t.attempt⟩ with
      | none =>
          exact further_step hs hidle ht (i := .handshake .timeout) trivial
            (by simp [World.ready, hb]) (by simp only [Task.step, hp]; rfl)
            (leave_lower _ (by rw [hp]; decide))
      | some v =>
          have hr : w.ready g t (.handshake (.value v)) = true := by simp [World.ready, hb]
          cases v with
          | true =>
            exact further_step hs hidle ht (i := .handshake (.value true)) trivial hr
              (by simp only [Task.step, hp]; rfl) (by simp [phaseLeft, hp])
          | false =>
            exact further_step hs hidle ht (i := .handshake (.value false)) trivial hr
              (by simp only [Task.step, hp]; rfl) (leave_lower _ (by rw [hp]; decide))
  | cancelling => exact further_sendStop hs hidle ht (.inl hp)
  | restopping => exact further_sendStop hs hidle ht (.inr hp)
  | measuring =>
      exact further_step hs hidle ht (i := .measure w.shared.ds.waypointsCompleted) trivial
        (by simp [World.ready]) (by simp only [Task.step, hp]; rfl)
        (by rw [hp]; exact phaseLeft_measure ..)
  | claiming =>
      exact further_step hs hidle ht (i := .claim) trivial rfl
        (by simp only [Task.step, hp]; rfl) (by simp [phaseLeft, hp])
  | draining =>
      -- likewise the wait for the old script ends by itself if nothing resolves it
      cases hb : w.shared.goalBox ⟨g, t.attempt⟩ with
      | none =>
          exact further_step hs hidle ht (i := .drain none) trivial (by simp [World.ready, hb])
            (by simp only [Task.step, hp]; rfl) (by simp [phaseLeft, hp])
      | some b =>
          exact further_step hs hidle ht (i := .drain (some (some b))) trivial
            (by simp [World.ready, World.goalResolves, hb]) (by simp only [Task.step, hp]; rfl)
            (by simp [phaseLeft, hp])
  | resetting =>
      exact further_step hs hidle ht (i := .reset) trivial rfl
        (by simp only [Task.step, hp]; rfl) (by simp [phaseLeft, hp])
  | activating =>
      obtain ⟨⟨remaining, nextScript⟩, hn⟩ := Option.isSome_iff_exists.mp (hnext hp)
      exact further_step hs hidle ht (i := .activate) trivial rfl
        (by simp only [Task.step, hp, hn]; rfl) (by simp [phaseLeft, hp])
  | publishResult | publishState | publishCounter =>
      exact further_step hs hidle ht (i := .redis w.shared.keys) trivial (by simp [World.ready])
        (by simp only [Task.step, hp, Task.redisOp, Option.map_some]; rfl)
        (by simp [phaseLeft, hp])
  | failing step =>
      cases step <;> exact further_step hs hidle ht (i := .redis w.shared.keys) trivial
        (by simp [World.ready])
        (by simp only [Task.step, hp, Task.redisOp, failRequest, Option.map_some]; rfl)
        (by simp [phaseLeft, FailStep.left, hp])
  | teardown =>
      exact further_step hs hidle ht (i := .teardown) trivial rfl
        (by simp only [Task.step, hp]; rfl) (by simp [phaseLeft, hp])

end Task

/-! ## A goal that waits on its script -/

/-- `command_server` past a cancel: it may still have a trigger to turn away. -/
def turning : CommandPhase F → Bool
  | .idle | .consuming _ | .preparing | .failing _ _ => true
  | _ => false

theorem turning_lower (n : Nat) (s : Shared F) {p : CommandPhase F} (hp : turning p = true)
    (hidle : p ≠ .idle) : ∃ i keys p', (∀ uuid, i ≠ .admission uuid) ∧ i ≠ .store
      ∧ CommandServer.step n s p i = some ({ s with keys := keys }, p') ∧ turning p' = true
      ∧ commandLeft p' < commandLeft p := by
  cases p with
  | idle => exact absurd rfl hidle
  | consuming state =>
      exact ⟨.redis, _, _, nofun, nofun, rfl, by cases state <;> rfl,
        by cases state <;> simp [commandLeft]⟩
  | preparing =>
      exact ⟨.prepare (.error ""), s.keys, _, nofun, nofun, rfl, rfl,
        by simp [commandLeft, FailStep.left]⟩
  | failing reason step =>
      cases step <;> exact ⟨.redis, _, _, nofun, nofun, rfl, rfl,
        by simp [commandLeft, FailStep.left]⟩
  | _ => cases hp

/-- The cancel has come through to goal `g`, and nothing has become of the goals meanwhile. -/
structure Called (w w' : World F) (g : Nat) : Prop where
  task : w'.task = w.task
  goals : w'.goals = w.goals
  socket : w'.socket = w.socket
  cancelBox : w'.shared.cancelBox g = true

/-- A cancel from the client gets through to the goal whose sender is there. -/
theorem cancel_called (cfg : Config F) (hs : w.socket ≠ .stopped) (hidle : w.command = .idle)
    (hc : w.shared.ds.cancelSender = some g) :
    ∃ w', Lts.Leads (World.step cfg) unaided w w' ∧ Called w w' g ∧ w'.command = .idle := by
  let keys : RequestKeys := { w.shared.keys with requestCancel := true }
  let asked : World F := { w with shared := { w.shared with keys := keys } }
  let noticed : World F :=
    { asked with command := .clearing keys.requestTrigger keys.requestState }
  let cleared : World F := { w with
    shared := { w.shared with keys := { keys with requestCancel := false } }
    command := .cancelling keys.requestTrigger keys.requestState }
  let called : World F := { cleared with
    shared := CommandServer.deliverCancel cleared.shared
    command := if keys.requestTrigger then .consuming keys.requestState else .idle }
  have h1 : Lts.Leads (World.step cfg) unaided w asked :=
    .single (a := .client (.requestCancel true)) rfl (by simp [World.step, hs]; rfl)
  have h2 : Lts.Leads (World.step cfg) unaided asked noticed :=
    .single (a := .command .tick) trivial (World.step_command_plain hs (by simp) (by simp)
      (by simp [asked, hidle, CommandServer.step, keys]))
  have h3 : Lts.Leads (World.step cfg) unaided noticed cleared :=
    .single (a := .command .redis) trivial (World.step_command_plain hs (by simp) (by simp) rfl)
  have h4 : Lts.Leads (World.step cfg) unaided cleared called :=
    .single (a := .command .cancel) trivial (World.step_command_plain hs (by simp) (by simp) rfl)
  have hbox : called.shared.cancelBox g = true := by
    simp [called, cleared, CommandServer.deliverCancel, hc]
  have hturn : turning called.command = true := by
    simp only [called]
    split <;> rfl
  -- what is left is at most a trigger to turn away
  obtain ⟨w', h5, ⟨hcalled, -⟩, hrest⟩ : ∃ w', Lts.Leads (World.step cfg) unaided called w'
      ∧ (Called w w' g ∧ turning w'.command = true) ∧ w'.command = .idle := by
    refine Lts.Leads.of_rank (m := fun v => commandLeft v.command) ?_ ⟨⟨rfl, rfl, rfl, hbox⟩, hturn⟩
    rintro v ⟨hv, hvt⟩ hne
    obtain ⟨i, keys', p', ha, hi, hstep, hturn', hlt⟩ := turning_lower v.goals v.shared hvt hne
    exact ⟨_, .single (a := .command i) trivial
      (World.step_command_plain (hv.socket ▸ hs) ha hi hstep), ⟨{ hv with }, hturn'⟩, hlt⟩
  exact ⟨w', ((h1.trans h2).trans (h3.trans h4)).trans h5, hcalled, hrest⟩

/-- A goal in its wait loop can be cancelled. -/
theorem further_waiting (hs : w.socket ≠ .stopped) (hidle : w.command = .idle)
    (ht : w.task g = some t) (hp : t.phase = .waiting) :
    ∃ w', Lts.Leads (World.step cfg) unaided w w' ∧ Further w w' g t := by
  have hcancel {v : World F} (hvs : v.socket ≠ .stopped) (hvi : v.command = .idle)
      (hvt : v.task g = some t) (hr : v.ready g t .cancel = true) :
      ∃ w', Lts.Leads (World.step cfg) unaided v w' ∧ Further v w' g t :=
    further_step hvs hvi hvt (i := .cancel) trivial hr (by simp only [Task.step, hp]; rfl)
      (by simp [phaseLeft, hp])
  by_cases hheld : w.shared.ds.cancelSender = some g
  · obtain ⟨v, hwv, hv, hvi⟩ := cancel_called cfg hs hidle hheld
    obtain ⟨w', hvw, hf⟩ := hcancel (hv.socket ▸ hs) hvi (hv.task ▸ ht)
      (by simp [World.ready, hv.cancelBox])
    obtain ⟨t', htask, hlt⟩ := hf.task
    exact ⟨w', hwv.trans hvw, hf.goals.trans hv.goals, hf.command, hf.socket, t',
      by rw [htask, hv.task], hlt⟩
  · exact hcancel hs hidle ht (by simp [World.ready, World.cancelHeld, hheld])

section Reachable

variable [Zero F]

/-- A goal that waits on a stop of its own gets its answer from the dashboard task. -/
theorem further_stop (hrun : Run cfg (fun _ _ => True) w) (hs : w.socket ≠ .stopped)
    (hidle : w.command = .idle) (ht : w.task g = some t)
    (hp : t.phase = .stopPending ∨ t.phase = .restopPending) :
    ∃ w', Lts.Leads (World.step cfg) unaided w w' ∧ Further w w' g t := by
  obtain ⟨v, hwv, hv, hserving, hqueue⟩ := dashboard_serves cfg hs
  have hrunv : Run cfg (fun _ _ => True) v := hwv.reachable hrun
  have hvt : v.task g = some t := by rw [hv.task, ht]
  -- with nothing held and nothing queued, everything that was sent is answered
  obtain ⟨reply, hreply⟩ : ∃ reply, v.shared.reply t.stopRequest = some reply := by
    obtain ⟨n, hS⟩ := servedTo_reachable hrunv
    obtain ⟨up, hsent⟩ := stopsQueued_reachable hrunv g t hvt hp
    have hrest := hS.rest
    rw [hserving, outstanding, hqueue] at hrest
    have hlen : v.shared.sent.length ≤ n := List.drop_eq_nil_iff.mp hrest.symm
    have hlt := (List.getElem?_eq_some_iff.mp hsent).1
    exact Option.isSome_iff_exists.mp ((hS.answered _).mpr (by omega))
  have hready : v.ready g t (.stopReply (some reply)) = true := by simp [World.ready, hreply]
  obtain ⟨w', hvw, hf⟩ : ∃ w', Lts.Leads (World.step cfg) unaided v w' ∧ Further v w' g t := by
    rcases hp with hp | hp
    · exact further_step (hv.socket ▸ hs) (hv.command ▸ hidle) hvt (i := .stopReply (some reply))
        trivial hready (by simp only [Task.step, hp]; rfl) (leave_lower _ (by rw [hp]; decide))
    · exact further_step (hv.socket ▸ hs) (hv.command ▸ hidle) hvt (i := .stopReply (some reply))
        trivial hready (by simp only [Task.step, hp]; rfl) (by simp [phaseLeft, hp])
  obtain ⟨t', htask, hlt⟩ := hf.task
  refine ⟨w', (hwv.mono ?_).trans hvw, hf.goals.trans hv.goals, hf.command, hf.socket, t',
    by rw [htask, hv.task], hlt⟩
  rintro a ⟨i, rfl⟩
  trivial

/-! ## All of them -/

/-- Only the goal `command_server` is about to spawn is not spawned. -/
def AdmittedPending (w : World F) : Prop :=
  ∀ g t, w.task g = some t → t.phase = .admitted → w.command.pending = some g

omit [Zero F] in
theorem admittedPending_step {a : Action F} (hA : AdmittedPending w) (hp : PendingAdmitted w)
    (h : World.step cfg w a = some w') : AdmittedPending w' := by
  intro g t' ht' hadm
  cases task_origin hp h ht' with
  | same ht =>
      have hpend := hA g t' ht hadm
      cases a with
      | command i =>
          cases World.step_command h with
          | accept command script uuid hc => rw [hc] at hpend; cases hpend
          | store g' command hc =>
              -- it is the goal that is spawned here
              rw [hc] at hpend
              cases hpend
              simp only [Function.update_self, ht, Option.map_some, Option.some.injEq] at ht'
              rw [← ht'] at hadm
              cases hadm
          | cancel p hn => rw [hn] at hpend; cases hpend
          | other i keys p _ hn => exact hn ▸ hpend
      | task g' i => obtain ⟨_, _, _, _, _, rfl⟩ := World.step_task h; exact hpend
      | _ => rw [(step_others h (by simp) (by simp)).2.2]; exact hpend
  | moved t i _ _ _ hm => exact absurd hadm (Move.ne_admitted hm)
  | accepted command script uuid ha hn hg _ =>
      subst ha hg
      cases World.step_command h with
      | accept => rfl
      | other i keys p _ _ hrej => exact absurd hn (hrej uuid rfl)
  | spawned t _ _ _ _ he => rw [he] at hadm; cases hadm

theorem admittedPending_reachable (h : Run cfg (fun _ _ => True) w) : AdmittedPending w :=
  h.invariant (fun _ _ ht => by cases ht) fun _ _ _ hr hA _ hs =>
    admittedPending_step hA (pendingAdmitted_reachable hr) hs

/-- On the way from a resume to the attempt it starts. -/
def resuming : Phase → Bool
  | .claiming | .restopping | .restopPending | .draining | .resetting | .activating => true
  | _ => false

theorem not_resuming_of_publishing {p : Phase} (h : p.publishing = true) : resuming p = false := by
  cases p <;> first | rfl | cases h

/-- What a resume is about to run is there until it runs. -/
theorem next_reachable (h : Run cfg (fun _ _ => True) w) : ∀ g t, w.task g = some t →
    resuming t.phase = true → t.next.isSome = true := by
  refine task_invariant (I := fun t => resuming t.phase = true → t.next.isSome = true)
    (fun _ _ _ hr => by cases hr) (fun _ _ _ hr => by cases hr) ?_ h
  intro t i t' hI hm hr
  cases hm with
  | hop i p hh =>
      refine hI ?_
      generalize t.phase = q at hh ⊢
      cases hh <;> first | rfl | cases hr
  | leave i e =>
      rw [not_resuming_of_publishing (leave_phase t e)] at hr
      cases hr
  | publish keys p written hh =>
      generalize t.phase = q at hh
      cases hh <;> cases hr
  | feedback m hq => exact hI hr
  | restop id hq => exact hI (by rw [hq]; rfl)
  | measure n next hq => rfl
  | _ => cases hr

/-- Any goal that is not over can be got further. -/
theorem goal_further (hrun : Run cfg (fun _ _ => True) w) (hs : w.socket ≠ .stopped)
    (hidle : w.command = .idle) (ht : w.task g = some t) (hdone : t.phase ≠ .done) :
    ∃ w', Lts.Leads (World.step cfg) unaided w w' ∧ Further w w' g t := by
  have hadm : t.phase ≠ .admitted := by
    intro hadm
    have := admittedPending_reachable hrun g t ht hadm
    rw [hidle] at this
    cases this
  by_cases hstop : t.phase = .stopPending ∨ t.phase = .restopPending
  · exact further_stop hrun hs hidle ht hstop
  · by_cases hwait : t.phase = .waiting
    · exact further_waiting hs hidle ht hwait
    · exact further_alone hs hidle ht hadm hdone (not_or.mp hstop) hwait
        fun hp => next_reachable hrun g t ht (by rw [hp]; rfl)

omit [Zero F] in
/-- `command_server` can always get back to its tick. -/
theorem command_rests (cfg : Config F) (hs : w.socket ≠ .stopped) :
    ∃ w', Lts.Leads (World.step cfg) unaided w w' ∧ w'.socket ≠ .stopped
      ∧ w'.command = .idle := by
  refine Lts.Leads.of_rank (I := fun v : World F => v.socket ≠ .stopped)
    (m := fun v => commandLeft v.command) ?_ hs
  intro v hv hne
  obtain ⟨i, s, p, hstep, hlt⟩ := command_lower v.goals v.shared hne
  obtain ⟨v', hv', hp⟩ : ∃ v', World.step cfg v (.command i) = some v' ∧ v'.command = p :=
    World.step_command_some hv hstep
  exact ⟨v', .single (a := .command i) trivial hv', World.socket_of_ne hv' nofun ▸ hv, hp ▸ hlt⟩

/-- How far all goals together are from being over. -/
def goalsLeft (w : World F) : Nat :=
  ∑ g ∈ Finset.range w.goals, ((w.task g).map fun t => phaseLeft t.phase).getD 0

omit [Zero F] in
theorem Further.goalsLeft_lt (hf : Further w w' g t) (ht : w.task g = some t)
    (hg : g < w.goals) : goalsLeft w' < goalsLeft w := by
  obtain ⟨t', htask, hlt⟩ := hf.task
  have hsum := sum_update hg (fun t : Option (Task F) => (t.map fun t => phaseLeft t.phase).getD 0)
    w.task (some t')
  simp only [ht, Option.map_some, Option.getD_some] at hsum
  simp only [goalsLeft, hf.goals, htask]
  omega

theorem goals_rest (hrun : Run cfg (fun _ _ => True) w) (hs : w.socket ≠ .stopped) :
    ∃ w', Lts.Leads (World.step cfg) unaided w w' ∧ w'.socket ≠ .stopped ∧ w'.command = .idle
      ∧ ∀ g, ¬ Live w' g := by
  obtain ⟨v, hwv, hvs, hvi⟩ := command_rests cfg hs
  obtain ⟨w', hvw, ⟨-, hs', hi'⟩, hdone⟩ : ∃ w', Lts.Leads (World.step cfg) unaided v w'
      ∧ (Run cfg (fun _ _ => True) w' ∧ w'.socket ≠ .stopped ∧ w'.command = .idle)
      ∧ ∀ g, ¬ Live w' g := by
    -- some live goal can always be brought further, and what is left of all goals shrinks
    refine Lts.Leads.of_rank (m := goalsLeft) ?_ ⟨hwv.reachable hrun, hvs, hvi⟩
    rintro u ⟨hu, hus, hui⟩ hP
    obtain ⟨g, hg⟩ := not_forall.mp hP
    obtain ⟨t, ht, hd⟩ := live_iff.mp (not_not.mp hg)
    have hlt : g < u.goals := by
      by_contra hge
      rw [fresh_reachable hu g (by omega)] at ht
      cases ht
    obtain ⟨u', huu', hf⟩ := goal_further hu hus hui ht hd
    exact ⟨u', huu', ⟨huu'.reachable hu, hf.socket, hf.command⟩, hf.goalsLeft_lt ht hlt⟩
  exact ⟨w', hwv.trans hvw, hs', hi', hdone⟩

omit [Zero F] in
/-- No run loses a goal. -/
theorem Leads.task {kind : Action F → Prop} (h : Lts.Leads (World.step cfg) kind w w')
    (ht : w.task g = some t) : ∃ t', w'.task g = some t' := by
  obtain ⟨as, -, hr⟩ := h
  refine Lts.run_keeps (I := fun u : World F => ∃ t', u.task g = some t') ?_ .init ⟨t, ht⟩ hr
  rintro u a v - ⟨t', ht'⟩ hs
  exact task_persists hs ht'

/--
**A cancel always brings the driver to rest.** From wherever a run has got to, short of the
driver having stopped, there is a way on from which nothing of the robot takes part but its
Dashboard Server, and the client does nothing but cancel, and at the end of it
`command_server` is at its tick and every goal that was accepted is over, its terminal
`request_state` written.
-/
theorem cancel_brings_rest {ok : World F → Action F → Prop} (h : Run cfg ok w)
    (hs : w.socket ≠ .stopped) :
    ∃ w', Lts.Leads (World.step cfg) unaided w w' ∧ w'.command = .idle
      ∧ (∀ g t, w.task g = some t → ∃ t', w'.task g = some t')
      ∧ ∀ g t, w'.task g = some t → t.phase = .done ∧ t.published.isSome = true := by
  have hrun : Run cfg (fun _ _ => True) w := h.reachable
  obtain ⟨w', hww', -, hidle, hrest⟩ := goals_rest hrun hs
  refine ⟨w', hww', hidle, fun g t ht => Leads.task hww' ht, ?_⟩
  intro g t ht
  have hdone : t.phase = .done := by
    by_contra hd
    exact hrest g (live_iff.mpr ⟨t, ht, hd⟩)
  refine ⟨hdone, ?_⟩
  -- a goal that is done has left its loop, and its exit says what it has published
  have hc := consistent_reachable (hww'.reachable hrun) g t ht
  cases he : t.exit with
  | none => exact absurd hdone (hc.looping he).2.2.2
  | some e =>
      have := hc.left e he
      rw [hdone] at this
      rw [show t.published = some e.requestState from this]
      rfl

end Reachable

open Scenario

/-- A goal whose script has shaken hands and then says nothing more. -/
theorem cancel_brings_rest_trace : ∃ w : World Int, Run config (fun _ _ => True) w
    ∧ (∃ t, w.task 0 = some t ∧ t.phase = .waiting)
    ∧ ∃ w', Lts.Leads (World.step config) unaided w w'
      ∧ ∃ t, w'.task 0 = some t ∧ t.phase = .done ∧ t.published.isSome = true := by
  have hrun : (Lts.run (World.step config) World.init
      (start ++ request "a" ++ launch 0 ++ shake ⟨0, 0⟩ "a")).any (fun w =>
        (w.task 0).any (fun t => t.phase == .waiting) && w.socket != .stopped) = true := by
    decide
  obtain ⟨w, hw, hp⟩ := Lts.exists_of_run hrun
  simp only [Bool.and_eq_true, Option.any_eq_true, beq_iff_eq, bne_iff_ne] at hp
  obtain ⟨⟨t, ht, hwait⟩, hs⟩ := hp
  have hw' : Run config (fun _ _ => True) w := hw
  obtain ⟨w', hww', -, hkeeps, hdone⟩ := cancel_brings_rest hw' hs
  obtain ⟨t', ht'⟩ := hkeeps 0 t ht
  exact ⟨w, hw', ⟨t, ht, hwait⟩, w', hww', t', ht', hdone 0 t' ht'⟩

end UrRedisDriver.Proof
