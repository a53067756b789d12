import UrRedisDriver.Proof.Progress

/-!
# The driver can always be made to accept again

What keeps a request out is a connection that is down, a safety mode, a goal that is not over
and a hold that was left behind. None of them needs a restart: cancelling ends the goal, the
realtime stream reports the robot back, and a `resume` takes the hold away, also with nothing
there to resume.
-/

namespace UrRedisDriver.Proof

open UrRedisDriver

variable {F : Type} {cfg : Config F} {w w' : World F} {a : Action F}

/-- The client may do what it likes and the realtime stream may come and go, besides. -/
def tended (a : Action F) : Prop :=
  unaided a ∨ match a with
    | .client _ | .server _ | .realtime _ => True
    | _ => False

/-! ## What is left in the way of the next goal -/

/-- Whose value the guard carries is not over. -/
def GuardLive (w : World F) : Prop :=
  w.shared.ds.goalId.isSome = true ∨ w.shared.ds.reissuing = true → ∃ g, Live w g

theorem guardLive_step (hG : GuardLive w) (hf : Fresh w) (h : World.step cfg w a = some w') :
    GuardLive w' := by
  intro hup
  have hlow := lowers_step h
  by_cases ha : installs a = none ∧ claims a = none
  · have hup' : w.shared.ds.goalId.isSome = true ∨ w.shared.ds.reissuing = true :=
      hup.imp (hlow.goalId ha.1) fun hr => (hlow.reissuing ha.2 hr).1
    obtain ⟨g, hg⟩ := hG hup'
    by_cases htear : a = .task g .teardown
    · -- the teardown that ends it takes both down
      subst htear
      obtain ⟨t, t', -, -, -, rfl⟩ := World.step_task h
      rcases hup with hup | hup <;> cases hup
    · exact ⟨g, live_of_step hf h hg htear⟩
  · obtain ⟨g, i, rfl, hi⟩ : ∃ g i, a = .task g i ∧ i ≠ .teardown := by
      cases a with
      | task g i => exact ⟨g, i, rfl, by rintro rfl; exact ha ⟨rfl, rfl⟩⟩
      | _ => exact absurd ⟨rfl, rfl⟩ ha
    obtain ⟨t, t', ht, -, hm, rfl⟩ := World.step_task h
    exact ⟨g, live_iff.mpr ⟨t', Function.update_self .., Move.done hm hi⟩⟩

/-- The local address is there from the first connection on. -/
def Addressed (w : World F) : Prop := w.realtime = .starting ∨ w.shared.localAddr = true

theorem resolveGoal_localAddr (s : Shared F) (v : Bool) (by_ : Resolver) :
    (s.resolveGoal v by_).localAddr = s.localAddr := by
  obtain ⟨box, r, he⟩ := s.resolveGoal_eq v by_
  rw [he]

theorem SocketMove.localAddr {s s' : Shared F} {p p' : SocketPhase}
    (h : SocketServer.Move s p s' p') : s'.localAddr = s.localAddr := by
  cases h with
  | ok | error | close => exact resolveGoal_localAddr ..
  | _ => rfl

theorem effect_localAddr {up : Bool} {s : Shared F} {g : Nat} {t : Task F} {i : TaskInput} :
    (World.effect cfg up s g t i).localAddr = s.localAddr := by
  cases i with
  | write r => cases r <;> rfl
  | feedback m => cases m <;> rfl
  | sendStop r => cases r <;> rfl
  | redis keys =>
      simp only [World.effect]
      split <;> rfl
  | _ => rfl

theorem RealtimeStep.addressed {s s' : Shared F} {p p' : RtPhase} {i : RtInput F}
    (h : RealtimeReader.step s p i = some (s', p')) (hA : p = .starting ∨ s.localAddr = true) :
    s'.localAddr = true := by
  cases p <;> cases i <;> simp only [RealtimeReader.step] at h <;> cases h
  case starting.connect => rfl
  case aborting.abort =>
    exact (resolveGoal_localAddr ..).trans (hA.resolve_left (by simp))
  all_goals exact hA.resolve_left (by simp)

theorem addressed_step (hA : Addressed w) (h : World.step cfg w a = some w') : Addressed w' := by
  cases a with
  | client i | robot i | server i =>
      obtain ⟨_, _, _, _, _, _, _, rfl⟩ := World.step_outside h rfl
      exact hA
  | command i =>
      obtain ⟨_, _, _, _, _, _, _, _, _, _, rfl⟩ := World.step_command_frame h
      exact hA
  | task g i =>
      obtain ⟨t, t', -, -, -, rfl⟩ := World.step_task h
      exact hA.imp_right fun hl => effect_localAddr.trans hl
  | socket i =>
      obtain ⟨s, p, hm, rfl⟩ := World.step_socket h
      exact hA.imp_right fun hl => (SocketMove.localAddr hm).trans hl
  | realtime i =>
      obtain ⟨s, p, hm, rfl⟩ := World.step_realtime_eq h
      -- whoever connects has written the address before
      exact .inr (RealtimeStep.addressed hm hA)
  | dashboard i =>
      cases World.step_dashboard h <;> exact hA

section Reachable

variable [Zero F] {ok : World F → Action F → Prop}

theorem guardLive_reachable (h : Run cfg ok w) : GuardLive w :=
  h.invariant (by rintro (h | h) <;> cases h) fun _ _ _ hr hG _ hs =>
    guardLive_step hG (fresh_reachable hr) hs

theorem addressed_reachable (h : Run cfg ok w) : Addressed w :=
  h.invariant (.inl rfl) fun _ _ _ _ hA _ hs => addressed_step hA hs

end Reachable

/-! ## The client's side -/

/-- What the steps below leave alone. -/
structure Alike (w w' : World F) : Prop where
  task : w'.task = w.task
  command : w'.command = w.command
  socket : w'.socket = w.socket

theorem Alike.trans {u : World F} (h : Alike w w') (h' : Alike w' u) : Alike w u :=
  ⟨h'.task.trans h.task, h'.command.trans h.command, h'.socket.trans h.socket⟩

theorem Beside.alike (h : Beside w w') : Alike w w' := ⟨h.task, h.command, h.socket⟩

theorem leads_server (hs : w.socket ≠ .stopped) {i : ServerInput} {s : Shared F} {p : ServerPhase}
    (h : DashboardServer.step w.dashboard.up w.shared w.server i = some (s, p)) :
    Lts.Leads (World.step cfg) tended w { w with shared := s, server := p } :=
  .single (a := .server i) (.inr trivial) (by
    simp only [World.step, if_neg hs, World.serverStep, h, Option.map_some])

theorem leads_dashboard (hs : w.socket ≠ .stopped) {i : DashInput}
    (h : World.dashboardStep w i = some w') : Lts.Leads (World.step cfg) tended w w' :=
  .single (a := .dashboard i) (.inl trivial) (by simp only [World.step, if_neg hs, h])

/-- A client can write any number of keys. -/
theorem leads_client (hs : w.socket ≠ .stopped) (is : List ClientWrite) :
    Lts.Leads (World.step cfg) tended w
      { w with shared := { w.shared with keys := is.foldl World.clientStep w.shared.keys } } := by
  induction is generalizing w with
  | nil => exact .refl _
  | cons i is ih =>
      have hwrite : World.step cfg w (.client i) = some
          { w with shared := { w.shared with keys := World.clientStep w.shared.keys i } } := by
        simp only [World.step, if_neg hs]
      exact (Lts.Leads.single (.inr trivial) hwrite).trans (ih hs)

/-- How far `dashboard_server` is from its tick. -/
def serverLeft : ServerPhase → Nat
  | .idle => 0
  | .closing _ => 1
  | .finishing _ _ => 2
  | .waiting _ _ => 3
  | .submitting _ => 4
  | .starting _ => 5
  | .consuming _ _ _ => 6

/-- With room in the channel it is never stuck: a reply that does not come times out. -/
theorem server_lower (up : Bool) {s : Shared F} {p : ServerPhase} (hq : s.queue = [])
    (hp : p ≠ .idle) :
    ∃ i s' p', DashboardServer.step up s p i = some (s', p') ∧ serverLeft p' < serverLeft p := by
  cases p with
  | idle => exact absurd rfl hp
  | consuming state name arg =>
      refine ⟨.redis, _, _, rfl, ?_⟩
      split
      · split <;> simp [serverLeft]
      · simp [serverLeft]
  | submitting cmd =>
      -- with the queue empty there is room
      exact ⟨.submit, _, _, by simp only [DashboardServer.step, hq]; rfl, by simp [serverLeft]⟩
  | waiting id cmd =>
      -- either the reply is there or the timeout may run out
      cases hr : s.reply id with
      | some r =>
          exact ⟨.reply, _, _, by simp only [DashboardServer.step, hr]; rfl, by simp [serverLeft]⟩
      | none =>
          exact ⟨.timeout, _, _, by simp only [DashboardServer.step, hr]; rfl,
            by simp [serverLeft]⟩
  | starting cmd | finishing success response | closing success =>
      exact ⟨.redis, _, _, rfl, by simp [serverLeft]⟩

theorem dashboard_serves_tended (cfg : Config F) (hs : w.socket ≠ .stopped) :
    ∃ w', Lts.Leads (World.step cfg) tended w w' ∧ Beside w w' ∧ w'.dashboard = .serving
      ∧ w'.shared.queue = [] := by
  obtain ⟨w', hww', h⟩ := dashboard_serves cfg hs
  refine ⟨w', hww'.mono ?_, h⟩
  rintro a ⟨i, rfl⟩
  exact .inl trivial

/-- `dashboard_server` can always get back to its tick. -/
theorem server_rests (cfg : Config F) (hs : w.socket ≠ .stopped) :
    ∃ w', Lts.Leads (World.step cfg) tended w w' ∧ Alike w w' ∧ w'.server = .idle := by
  refine Lts.Leads.of_rank (I := Alike w) (m := fun v => serverLeft v.server) ?_ ⟨rfl, rfl, rfl⟩
  intro v hv hne
  have hvs : v.socket ≠ .stopped := hv.socket ▸ hs
  obtain ⟨u, hvu, hb, -, hq⟩ := dashboard_serves_tended cfg hvs
  obtain ⟨i, s, p, hstep, hlt⟩ := server_lower u.dashboard.up hq hne
  rw [← hb.server] at hstep
  exact ⟨_, hvu.trans (leads_server (hb.socket ▸ hvs) hstep), { hv.trans hb.alike with }, hlt⟩

/-! ## The hold -/

/-- A `resume` that is queued is taken and its hold released, whether `play` does anything or
not. -/
theorem resume_releases (cfg : Config F) {r : Request} (hs : w.socket ≠ .stopped)
    (hd : w.dashboard = .serving) (hq : w.shared.queue = [r]) (hr : r.command = .resume) :
    ∃ w', Lts.Leads (World.step cfg) tended w w' ∧ Beside w w'
      ∧ w'.shared.ds.motionPaused = false := by
  let taken : World F :=
    { w with shared := { w.shared with queue := [] }, dashboard := .reading r }
  have h1 : Lts.Leads (World.step cfg) tended w taken :=
    leads_dashboard (i := .take r) hs (by
      simp only [World.dashboardStep, World.dashboardEffect, hd, hq, if_pos, DashPhase.step,
        DashPhase.start, hr]
      rfl)
  by_cases hpaused : w.shared.ds.motionPaused = true
  · -- a controller that answers nothing sensible to `play` is enough: the flag comes down whatever
    -- it says
    let sender := w.shared.ds.resumeSender
    let playing : World F := { taken with dashboard := .sending (.request r sender "") .play }
    let played : World F := { taken with dashboard := .awaiting (.request r sender "") .play }
    let refused : World F := { taken with dashboard := .releasing r sender "" false }
    have h2 : Lts.Leads (World.step cfg) tended taken playing :=
      leads_dashboard (i := .lock false) hs (by
        simp only [World.dashboardStep, World.dashboardEffect, taken, DashPhase.step, hr, hpaused,
          if_true]
        rfl)
    have h3 : Lts.Leads (World.step cfg) tended playing played :=
      leads_dashboard (i := .write (.ok ())) hs rfl
    have h4 : Lts.Leads (World.step cfg) tended played refused :=
      leads_dashboard (i := .reply (.ok "") false) hs (by
        have hplay : DashboardCommand.toReply .play "" = ⟨false, "", none⟩ := by decide
        simp only [World.dashboardStep, World.dashboardEffect, played, DashPhase.step,
          DashPhase.after, DashPhase.afterRequest, Trip.sends, hplay]
        rfl)
    obtain ⟨w', h5, hw'⟩ : ∃ w', World.dashboardStep refused (.lock false) = some w'
        ∧ Beside w w' ∧ w'.shared.ds.motionPaused = false :=
      ⟨_, rfl, ⟨rfl, rfl, rfl, rfl, rfl, rfl⟩, rfl⟩
    exact ⟨w', ((h1.trans h2).trans (h3.trans h4)).trans (leads_dashboard hs h5), hw'⟩
  · -- nothing to release
    exact ⟨taken, h1, ⟨rfl, rfl, rfl, rfl, rfl, rfl⟩, by simpa [taken] using hpaused⟩

/-- The client asks for a `resume`. -/
theorem resume_queued (cfg : Config F) (hs : w.socket ≠ .stopped) (hsrv : w.server = .idle)
    (hq : w.shared.queue = []) : ∃ w' r, Lts.Leads (World.step cfg) tended w w' ∧ Alike w w'
      ∧ w'.dashboard = w.dashboard ∧ w'.shared.queue = [r] ∧ r.command = .resume := by
  let keys : RequestKeys := { w.shared.keys with
    dashboardCommand := "resume", dashboardCommandArg := ""
    dashboardRequestState := .initial, dashboardRequestTrigger := true }
  let asked : World F := { w with shared := { w.shared with keys := keys } }
  let noticed : World F := { asked with server := .consuming .initial "resume" "" }
  let consumed : World F := { w with
    shared := { w.shared with keys := { keys with dashboardRequestTrigger := false } }
    server := .starting .resume }
  let started : World F := { w with
    shared := { w.shared with keys := { keys with
      dashboardRequestTrigger := false, dashboardRequestState := .executing } }
    server := .submitting .resume }
  -- the client asks, the server takes the trigger, and its command is the only one queued
  have h1 : Lts.Leads (World.step cfg) tended w asked :=
    leads_client hs [.dashboardRequest "resume" "", .dashboardRequestState .initial,
      .dashboardRequestTrigger true]
  have h2 : Lts.Leads (World.step cfg) tended asked noticed :=
    leads_server (w := asked) (i := .tick) hs (by rw [show asked.server = .idle from hsrv]; rfl)
  have h3 : Lts.Leads (World.step cfg) tended noticed consumed :=
    leads_server (w := noticed) (i := .redis) hs (by
      have hparse : DashboardCommand.parse "resume" "" = .ok .resume := by decide
      simp only [noticed, DashboardServer.step, hparse]
      rfl)
  have h4 : Lts.Leads (World.step cfg) tended consumed started :=
    leads_server (w := consumed) (i := .redis) hs rfl
  have h5 : Lts.Leads (World.step cfg) tended started
      { started with
        shared := started.shared.submit .resume .server w.dashboard.up
        server := .waiting started.shared.nextRequest .resume } :=
    leads_server (w := started) (i := .submit) hs (by simp only [started, DashboardServer.step, hq]; rfl)
  exact ⟨_, ⟨.resume, w.shared.nextRequest, .server, w.dashboard.up⟩,
    ((h1.trans h2).trans (h3.trans h4)).trans h5, ⟨rfl, rfl, rfl⟩, rfl,
    by simp [started, Shared.submit, hq], rfl⟩

/-- A hold can be taken away, whoever left it. -/
theorem hold_released (cfg : Config F) (hs : w.socket ≠ .stopped) :
    ∃ w', Lts.Leads (World.step cfg) tended w w' ∧ Alike w w'
      ∧ w'.shared.ds.motionPaused = false := by
  obtain ⟨u, hwu, hu, hidle⟩ := server_rests cfg hs
  obtain ⟨v, huv, hv, hserving, hempty⟩ :=
    dashboard_serves_tended cfg (hu.socket ▸ hs)
  have hvs : v.socket ≠ .stopped := hv.socket ▸ hu.socket ▸ hs
  obtain ⟨x, r, hvx, hx, hdash, hqueue, hr⟩ :=
    resume_queued cfg hvs (hv.server.trans hidle) hempty
  obtain ⟨w', hxw, hw', hfree⟩ := resume_releases cfg (hx.socket ▸ hvs)
    (hdash.trans hserving) hqueue hr
  exact ⟨w', (hwu.trans huv).trans (hvx.trans hxw),
    (hu.trans hv.alike).trans (hx.trans hw'.alike), hfree⟩

/-! ## The robot reported back -/

theorem leads_realtime (cfg : Config F) (hs : w.socket ≠ .stopped) {i : RtInput F} {s : Shared F}
    {p : RtPhase} (h : RealtimeReader.step w.shared w.realtime i = some (s, p)) :
    Lts.Leads (World.step cfg) tended w { w with shared := s, realtime := p } :=
  .single (a := .realtime i) (.inr trivial) (by
    simp only [World.step, if_neg hs, World.realtimeStep, h, Option.map_some])

/-- What the realtime stream needs to report for a goal to be let in. -/
structure Reported (w w' : World F) : Prop extends Alike w w' where
  localAddr : w'.shared.localAddr = true
  connected : w'.shared.ds.connected = true
  motionPaused : w'.shared.ds.motionPaused = w.shared.ds.motionPaused

/-- A connection that is lost can be had again, in the middle of a safety stop too. -/
theorem realtime_connects (cfg : Config F) (hs : w.socket ≠ .stopped) (hA : Addressed w) :
    ∃ w', Lts.Leads (World.step cfg) tended w w' ∧ Reported w w' ∧ w'.realtime = .reading := by
  -- a lost connection is only asked for again once it has failed
  have hlost {v : World F} (hv : Alike w v) (hp : v.realtime = .reading)
      (hl : v.shared.localAddr = true)
      (hm : v.shared.ds.motionPaused = w.shared.ds.motionPaused) :
      ∃ w', Lts.Leads (World.step cfg) tended v w' ∧ Reported w w'
        ∧ w'.realtime = .reading := by
    have hvs : v.socket ≠ .stopped := hv.socket ▸ hs
    let lost : World F := { v with
      shared := { v.shared with ds := { v.shared.ds with connected := false } }
      realtime := .reconnecting }
    have hfail : Lts.Leads (World.step cfg) tended v lost :=
      leads_realtime cfg (i := .fail) hvs (by rw [hp]; rfl)
    have hback := leads_realtime cfg (w := lost) (i := .connect) hvs rfl
    exact ⟨_, hfail.trans hback, ⟨{ hv with }, hl, rfl, hm⟩, rfl⟩
  cases hp : w.realtime with
  | starting =>
      have hconnect := leads_realtime cfg (i := .connect) hs (by rw [hp]; rfl)
      exact ⟨_, hconnect, ⟨⟨rfl, rfl, rfl⟩, rfl, rfl, rfl⟩, rfl⟩
  | reading => exact hlost ⟨rfl, rfl, rfl⟩ hp (hA.resolve_left (by rw [hp]; nofun)) rfl
  | reconnecting =>
      have hconnect := leads_realtime cfg (i := .connect) hs (by rw [hp]; rfl)
      exact ⟨_, hconnect, ⟨⟨rfl, rfl, rfl⟩, hA.resolve_left (by rw [hp]; nofun), rfl, rfl⟩, rfl⟩
  | aborting =>
      have habort := leads_realtime cfg (i := .abort) hs (by rw [hp]; rfl)
      obtain ⟨w', hw', hrep⟩ := hlost (v := { w with
          shared := (w.shared.resolveGoal false .safetyStop).clearGoal, realtime := .reading })
        ⟨rfl, rfl, rfl⟩ rfl
        ((resolveGoal_localAddr ..).trans (hA.resolve_left (by rw [hp]; nofun)))
        (resolveGoal_gates w.shared false .safetyStop).motionPaused
      exact ⟨w', habort.trans hw', hrep⟩

/-- The robot can report back in normal mode. -/
theorem robot_reports [Zero F] (cfg : Config F) (hs : w.socket ≠ .stopped) (hA : Addressed w) :
    ∃ w', Lts.Leads (World.step cfg) tended w w' ∧ Reported w w'
      ∧ w'.shared.ds.safetyMode = 1 := by
  obtain ⟨u, hwu, hu, hp⟩ := realtime_connects cfg hs hA
  let f : RtFrame F := {
    joints := [], speeds := [], tcpPose := [], forces := [], digitalInputs := 0
    digitalOutputs := 0, robotMode := 7, safetyMode := 1, speedScaling := 0, programStateRaw := 0 }
  have hframe := leads_realtime cfg (i := .frame f) (hu.socket ▸ hs) (by rw [hp]; rfl)
  exact ⟨_, hwu.trans hframe, ⟨{ hu.toAlike with }, hu.localAddr, hu.connected, hu.motionPaused⟩,
    rfl⟩

/-! ## Accepting again -/

theorem rejection_eq_none {s : Shared F} (ha : s.localAddr = true) (hc : s.ds.connected = true)
    (hm : s.ds.motionPaused = false) (hmode : safetyModeAcceptsGoal s.ds.safetyMode = true)
    (hg : s.ds.goalId.isSome = false) (hr : s.ds.reissuing = false) :
    CommandServer.rejection s = none := by
  simp [CommandServer.rejection, ha, hc, hm, hmode, hg, hr]

theorem Leads.tended (h : Lts.Leads (World.step cfg) unaided w w') :
    Lts.Leads (World.step cfg) tended w w' :=
  h.mono fun _ => .inl

section Reachable

variable [Zero F] {ok : World F → Action F → Prop}

/--
**No state needs a restart.** From wherever a run has got to, short of the driver having
stopped, there is a way on by which the next request is let in: no goal is left, `command_server`
is at its tick, and its admission block finds nothing to reject. The robot needs to answer on
none of its other ports for it, and no script has to.
-/
theorem accepts_again (h : Run cfg ok w) (hs : w.socket ≠ .stopped) :
    ∃ w', Lts.Leads (World.step cfg) tended w w' ∧ w'.command = .idle
      ∧ (∀ g, ¬ Live w' g) ∧ CommandServer.rejection w'.shared = none := by
  have hrun : Run cfg (fun _ _ => True) w := h.reachable
  -- first every goal ends, then the hold is released, then the robot reports a mode that admits
  obtain ⟨u, hwu, hus, hidle, hrest⟩ := goals_rest hrun hs
  obtain ⟨v, huv, hv, hfree⟩ := hold_released cfg hus
  have hwv := (Leads.tended hwu).trans huv
  obtain ⟨w', hvw, hw', hmode⟩ := robot_reports cfg (hv.socket ▸ hus)
    (addressed_reachable (hwv.reachable hrun))
  have hww' := hwv.trans hvw
  have hdead : ∀ g, ¬ Live w' g := by
    intro g hg
    refine hrest g ?_
    rwa [Live, World.alive, hw'.task, hv.task] at hg
  refine ⟨w', hww', (hw'.command.trans hv.command).trans hidle, hdead, ?_⟩
  have hguard := guardLive_reachable (hww'.reachable hrun)
  refine rejection_eq_none hw'.localAddr hw'.connected (hw'.motionPaused.trans hfree)
    (by rw [hmode]; rfl) ?_ ?_
  · -- a guard that is up belongs to a live goal, and there is none
    by_contra hg
    obtain ⟨g, hg⟩ := hguard (.inl (Bool.not_eq_false _ ▸ hg))
    exact hdead g hg
  · by_contra hr
    obtain ⟨g, hg⟩ := hguard (.inr (Bool.not_eq_false _ ▸ hr))
    exact hdead g hg

end Reachable

open Scenario

/-- A safety stop in the middle of a motion, with the connection lost after it. -/
theorem accepts_again_trace : ∃ w : World Int, Run config (fun _ _ => True) w
    ∧ CommandServer.rejection w.shared = some "not connected to the robot"
    ∧ ∃ w', Lts.Leads (World.step config) tended w w'
      ∧ CommandServer.rejection w'.shared = none := by
  have hrun : (Lts.run (World.step config) World.init
      (start ++ request "a" ++ launch 0 ++ shake ⟨0, 0⟩ "a"
        ++ [.realtime (.frame (frame 3)), .realtime .abort, .realtime .fail])).any (fun w =>
          CommandServer.rejection w.shared == some "not connected to the robot"
            && w.socket != .stopped) = true := by
    decide
  obtain ⟨w, hw, hp⟩ := Lts.exists_of_run hrun
  simp only [Bool.and_eq_true, beq_iff_eq, bne_iff_ne] at hp
  have hw' : Run config (fun _ _ => True) w := hw
  obtain ⟨w', hww', -, -, haccepts⟩ := accepts_again hw' hp.2
  exact ⟨w, hw', hp.1, w', hww', haccepts⟩

end UrRedisDriver.Proof
