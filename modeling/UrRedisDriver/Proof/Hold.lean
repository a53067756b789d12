import UrRedisDriver.Proof.Release
import UrRedisDriver.Proof.Gates

/-!
# A hold and the motion it holds

`pause_motion` sets `motion_paused` up to a second after the controller has acknowledged the
pause, without a look at which goal is live, and a goal's teardown clears it once. A hold
belongs to the goal that was live at the acknowledgement as long as there was one and none
comes or goes until the latch is set.
-/

namespace UrRedisDriver.Proof

open UrRedisDriver

variable {F : Type} {cfg : Config F} {w w' : World F}

/-! ## From the acknowledgement to the latch -/

/-- This reply acknowledges a pause. -/
def acknowledges : DashPhase → DashInput → Bool
  | .awaiting (.request _ _ _) .pause, .reply (.ok line) _ =>
      (DashboardCommand.pause.toReply line).success
  | _, _ => false

/-- A pause has been acknowledged, and `motion_paused` is still to be set for it. -/
def pausing : DashPhase → Bool
  | .sending (.request _ _ _) .pauseState | .awaiting (.request _ _ _) .pauseState
  | .latching _ _ => true
  | _ => false

theorem pausing_start (r : Request) : pausing (DashPhase.start r) = false := by
  unfold DashPhase.start
  split <;> rfl

theorem pausing_failed (e : String) (j : Job) : pausing (DashPhase.failed e j) = false := by
  cases j <;> rfl

theorem pausing_after {j : Job} {t : Trip} {line : String} {late : Bool}
    (h : pausing (DashPhase.after j t ((t.sends j.command).toReply line) late) = true) :
    pausing (.awaiting j t) = true
      ∨ acknowledges (.awaiting j t) (.reply (.ok line) late) = true := by
  cases j with
  | identity id => cases t <;> cases h
  | keepalive s => cases t <;> cases h
  | request r sender play =>
      cases t with
      | pause =>
          -- the acknowledgement is what starts the wait
          right
          simp only [DashPhase.after, DashPhase.afterRequest] at h
          split at h
          · rename_i hs
            exact hs
          · cases h
      | pauseState => exact .inl rfl
      | play | resumeRunning | resumeState | unlock =>
          simp only [DashPhase.after, DashPhase.afterRequest] at h
          split at h
          · cases h
          · first | cases h | (split at h <;> cases h)
      | _ => cases h

/-- Only an acknowledgement leads into the window before the latch. -/
theorem pausing_step {ds ds' : DriverState F} {p p' : DashPhase} {i : DashInput}
    (h : DashPhase.step ds p i = some (ds', p')) (hp : pausing p' = true) :
    pausing p = true ∨ acknowledges p i = true := by
  unfold DashPhase.step at h
  split at h
  case h_2 ok =>
    cases h
    cases ok <;> cases hp
  case h_4 r =>
    cases h
    rw [pausing_start] at hp
    cases hp
  case h_6 j t _ =>
    cases h
    left
    cases j <;> cases t <;> exact hp
  case h_7 j t e | h_9 j t e late =>
    cases h
    rw [pausing_failed] at hp
    cases hp
  case h_8 j t line late =>
    cases h
    exact pausing_after hp
  -- the critical sections and the answer lead nowhere near a pause
  all_goals first
    | (cases h; done)
    | (cases h; cases hp)
    | (split at h <;> first
        | (cases h; cases hp)
        | (split at h <;> (cases h; cases hp)))

theorem pausing_of_latches {p : DashPhase} {i : DashInput} (h : latches p i = true) :
    pausing p = true := by
  unfold latches at h
  split at h
  · rfl
  · cases h

/-! ## The record of pauses -/

/-- The controller acknowledges a pause by this step. -/
def acked (w : World F) : Action F → Bool
  | .dashboard i => acknowledges w.dashboard i
  | _ => false

/-- The latch is set by this step. -/
def latched (w : World F) : Action F → Bool
  | .dashboard i => latches w.dashboard i
  | _ => false

/-- What is remembered of the pauses of a run. -/
structure Pauses where
  /-- The goals that were live when the last pause was acknowledged. -/
  atAck : Nat → Bool := fun _ => false
  /-- Those of the pause that the latch was last set for. -/
  held : Nat → Bool := fun _ => false

/-- Remember who is live at an acknowledgement, and whom the latch is set for. -/
def notePause (w : World F) (a : Action F) (r : Pauses) : Pauses where
  atAck := if acked w a then w.alive else r.atAck
  held := if latched w a then r.atAck else r.held

theorem atAck_of_acked {a : Action F} {r : Pauses} (h : acked w a = true) :
    (notePause w a r).atAck = w.alive := if_pos h

theorem atAck_of_not {a : Action F} {r : Pauses} (h : acked w a = false) :
    (notePause w a r).atAck = r.atAck := by
  unfold notePause
  rw [h]
  rfl

theorem held_of_latched {a : Action F} {r : Pauses} (h : latched w a = true) :
    (notePause w a r).held = r.atAck := if_pos h

theorem held_of_not {a : Action F} {r : Pauses} (h : latched w a = false) :
    (notePause w a r).held = r.held := by
  unfold notePause
  rw [h]
  rfl

/-- A goal's teardown, or a request passing the admission block. -/
def comesOrGoes (w : World F) : Action F → Bool
  | .task _ .teardown => true
  | a => passes w a

/--
The controller acknowledges a pause only while a goal is live, and no goal comes or goes
between that and the latch.
-/
def steady (w : World F) (a : Action F) : Bool :=
  (!acked w a || (List.range w.goals).any w.alive)
    && (!pausing w.dashboard || !comesOrGoes w a)

abbrev Steady (w : World F) (a : Action F) : Prop := steady w a = true

/-- There are live goals, and they are these. -/
def TheLive (w : World F) (goals : Nat → Bool) : Prop :=
  (∃ g, goals g = true) ∧ ∀ g, Live w g ↔ goals g = true

/-- The goals at the acknowledgement stay until the latch is set, and then as long as it is. -/
structure Holding (w : World F) (r : Pauses) : Prop where
  atAck : pausing w.dashboard = true → TheLive w r.atAck
  held : w.shared.ds.motionPaused = true → TheLive w r.held

/-- The same goals are live when none comes or goes. -/
theorem live_same {a : Action F} (hf : Fresh w) (hp : PendingAdmitted w)
    (h : World.step cfg w a = some w') (hc : comesOrGoes w a = false) (g : Nat) :
    Live w' g ↔ Live w g := by
  constructor
  · intro hl
    rcases live_step hp h hl with hl | ⟨uuid, rfl, hn, -⟩
    · exact hl
    · -- whoever comes has passed the block
      have hpass : passes w (.command (.admission uuid)) = true := by rw [passes, hn]; rfl
      rw [comesOrGoes, hpass] at hc
      · cases hc
      · intro i he
        cases he
  · intro hl
    refine live_of_step hf h hl ?_
    intro ha
    rw [ha] at hc
    cases hc

theorem TheLive.same {goals : Nat → Bool} (h : TheLive w goals)
    (hs : ∀ g, Live w' g ↔ Live w g) : TheLive w' goals :=
  ⟨h.1, fun g => (hs g).trans (h.2 g)⟩

/-- What takes a goal away or brings one leaves no hold behind. -/
theorem comesOrGoes_released {a : Action F} (h : World.step cfg w a = some w')
    (hc : comesOrGoes w a = true) : w'.shared.ds.motionPaused = false := by
  cases a with
  | task g i =>
      cases i with
      | teardown => exact (teardown_gates h).2.1
      | _ => cases hc
  | command i =>
      cases i with
      | admission uuid =>
          -- a goal is only admitted while nothing is held
          have hn : CommandServer.rejection w.shared = none := Option.isNone_iff_eq_none.mp hc
          have hsame := step_gates h nofun nofun nofun
          rw [hsame.motionPaused]
          exact (rejection_none_gates hn).2.1
      | _ => cases hc
  | _ => cases hc

/-- Neither of the two is a step of the dashboard task. -/
theorem comesOrGoes_ne_dashboard {a : Action F} (hc : comesOrGoes w a = true) (i : DashInput) :
    a ≠ .dashboard i := by
  intro ha
  rw [ha] at hc
  cases hc

/-- A step of the dashboard task. -/
theorem holding_dashboard {i : DashInput} {r : Pauses} (hI : Holding w r)
    (hsame : ∀ g, Live w' g ↔ Live w g)
    (hsomebody : acked w (.dashboard i) = true → ∃ g, Live w g)
    (h : World.step cfg w (.dashboard i) = some w') :
    Holding w' (notePause w (.dashboard i) r) := by
  obtain ⟨hphase, -, -⟩ := step_dashboard_phase h
  constructor
  · intro hpause
    cases hack : acked w (.dashboard i) with
    | true =>
        rw [atAck_of_acked hack]
        exact ⟨hsomebody hack, hsame⟩
    | false =>
        rw [atAck_of_not hack]
        -- the window was open before, since only an acknowledgement opens it
        have hpause' : pausing w.dashboard = true := by
          refine (pausing_step hphase hpause).resolve_right ?_
          exact Bool.eq_false_iff.mp hack
        exact (hI.atAck hpause').same hsame
  · intro hpaused
    cases dashPhase_latch hphase with
    | same hl hm =>
        rw [held_of_not (a := .dashboard i) hl]
        exact (hI.held (hm ▸ hpaused)).same hsame
    | set hl _ =>
        rw [held_of_latched (a := .dashboard i) hl]
        exact (hI.atAck (pausing_of_latches hl)).same hsame
    | clear _ hm =>
        rw [hm] at hpaused
        cases hpaused

theorem holding_step {a : Action F} {r : Pauses} (hI : Holding w r) (hf : Fresh w)
    (hp : PendingAdmitted w) (hok : Steady w a) (h : World.step cfg w a = some w') :
    Holding w' (notePause w a r) := by
  obtain ⟨hsomebody, hnone⟩ := Bool.and_eq_true_iff.mp hok
  cases hc : comesOrGoes w a with
  | true =>
      constructor
      · intro hpause
        rw [World.dashboard_of_ne h (comesOrGoes_ne_dashboard hc)] at hpause
        -- `Steady` lets no goal come or go between the acknowledgement and the latch
        rw [hpause, hc] at hnone
        cases hnone
      · intro hpaused
        rw [comesOrGoes_released h hc] at hpaused
        cases hpaused
  | false =>
      have hsame := live_same hf hp h hc
      by_cases hd : ∃ i, a = .dashboard i
      · obtain ⟨i, rfl⟩ := hd
        refine holding_dashboard hI hsame ?_ h
        intro hack
        rw [hack] at hsomebody
        obtain ⟨g, -, hg⟩ := List.any_eq_true.mp hsomebody
        exact ⟨g, hg⟩
      · have hne : ∀ i, a ≠ .dashboard i := fun i ha => hd ⟨i, ha⟩
        -- a step of somebody else: the record and the latch stay as they are
        have hquiet : acked w a = false ∧ latched w a = false := by
          cases a with
          | dashboard i => exact absurd rfl (hne i)
          | _ => exact ⟨rfl, rfl⟩
        have hteardown : ∀ g, a ≠ .task g .teardown := by
          intro g ha
          rw [ha] at hc
          cases hc
        constructor
        · intro hpause
          rw [World.dashboard_of_ne h hne] at hpause
          rw [atAck_of_not hquiet.1]
          exact (hI.atAck hpause).same hsame
        · intro hpaused
          rw [step_motionPaused h hne hteardown] at hpaused
          rw [held_of_not hquiet.2]
          exact (hI.held hpaused).same hsame

/-! ## Every run -/

section Reachable

variable [Zero F]

/-- The driver with the record of its pauses, from its start, under a condition on the steps. -/
abbrev PausedRun (cfg : Config F) (ok : World F → Action F → Prop) (x : World F × Pauses) :
    Prop :=
  Lts.ReachableBy (Lts.recorded (World.step cfg) notePause) (fun x a => ok x.1 a)
    (World.init, {}) x

theorem holding_init : Holding (World.init (F := F)) {} where
  atAck h := by cases h
  held h := by cases h

/--
**A hold belongs to a live motion.** In every run in which the controller acknowledges a pause
only while a goal is live and no goal comes or goes until the latch is set for it, whenever
`motion_paused` is set there is a goal that was live when that pause was acknowledged, and the
goals that were are those that still are.
-/
theorem held_live {x : World F × Pauses} (h : PausedRun cfg Steady x)
    (hp : x.1.shared.ds.motionPaused = true) : TheLive x.1 x.2.held := by
  have hI : Holding x.1 x.2 := by
    refine h.invariant (I := fun x => Holding x.1 x.2) holding_init ?_
    intro x a x' hr hI hok hs
    obtain ⟨hstep, hnote⟩ := Lts.recorded_eq_some.mp hs
    have hrun : Run cfg Steady x.1 := hr.forget fun _ _ hok => hok
    rw [hnote]
    exact holding_step hI (fresh_reachable hrun) (pendingAdmitted_reachable hrun) hok hstep
  exact hI.held hp

end Reachable

open Scenario

/-- A pause asked for and acknowledged, the reply of the controller's state still to come. -/
def pauseAcked : List (Action Int) :=
  askDashboard "pause" "" ++ [.dashboard (.take ⟨.pause, 0, .server, true⟩)]
    ++ trip "Pausing program"

/-- A goal that succeeds while its pause is being confirmed: the latch is set for nobody. -/
theorem not_held_live :
    ¬ ∀ x : World Int × Pauses, PausedRun config (fun _ _ => True) x →
      x.1.shared.ds.motionPaused = true → TheLive x.1 x.2.held := by
  intro h
  have hrun : (Lts.runBy (Lts.recorded (World.step config) notePause) (fun _ _ => True)
      (World.init, {}) (start ++ dashboardUp ++ request "a" ++ launch 0 ++ shake ⟨0, 0⟩ "a"
        ++ pauseAcked ++ [.socket (.line (some "ok")), .task 0 (.goal (some true))]
        ++ succeed 0 {
          requestState := .executing, dashboardCommand := "pause"
          dashboardCommandArg := "", dashboardRequestState := .executing }
        ++ [.task 0 .teardown] ++ trip "STOPPED" ++ [.dashboard (.lock false)])).any (fun x =>
        x.1.shared.ds.motionPaused && x.2.held 0 && !x.1.alive 0) = true := by
    decide
  obtain ⟨x, hx, hp⟩ := Lts.exists_of_runBy hrun
  obtain ⟨hp, hdead⟩ := Bool.and_eq_true_iff.mp hp
  obtain ⟨hp, hheld⟩ := Bool.and_eq_true_iff.mp hp
  -- the flag is put up after the goal it was for has been torn down
  have hlive : Live x.1 0 := ((h x hx hp).2 0).mpr hheld
  rw [hlive] at hdead
  cases hdead

/-- A pause of a goal that stays. -/
theorem held_live_trace : ∃ x : World Int × Pauses, PausedRun config Steady x
    ∧ x.1.shared.ds.motionPaused = true ∧ TheLive x.1 x.2.held := by
  have hrun : (Lts.runBy (Lts.recorded (World.step config) notePause)
      (fun x a => Steady x.1 a) (World.init, {}) (start ++ dashboardUp ++ request "a" ++ launch 0
        ++ shake ⟨0, 0⟩ "a" ++ pauseAcked ++ trip "PAUSED" ++ [.dashboard (.lock false)])).any
      (fun x => x.1.shared.ds.motionPaused) = true := by
    decide
  obtain ⟨x, hx, hp⟩ := Lts.exists_of_runBy hrun
  exact ⟨x, hx, hp, held_live hx hp⟩

end UrRedisDriver.Proof
