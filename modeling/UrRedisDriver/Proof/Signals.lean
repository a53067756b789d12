import UrRedisDriver.Proof.Admission
import UrRedisDriver.Proof.Senders

/-!
# Cancels and resumes

The wait loop takes any return of `cancel_receiver.recv()` for a cancel and any return of
`resume_receiver.recv()` for a resume, and `recv` also returns when the last sender is gone.
So a signal is genuine as long as nobody drops the sender of a goal that is still running:
an acceptance that overwrites the slot, or another goal's teardown.
-/

namespace UrRedisDriver.Proof

open UrRedisDriver

variable {F : Type} {cfg : Config F} {w w' : World F}

/-- In the attempt loop with the cancel channel still to be read. -/
def Phase.listening : Phase → Bool
  | .connecting | .installing | .writing | .handshaking | .waiting | .measuring | .claiming
  | .restopping | .restopPending | .draining | .resetting | .activating => true
  | _ => false

/-- The goal whose step overwrites the cancel and resume senders. -/
def overwriter (w : World F) : Action F → Option Nat
  | .command .store => w.command.pending
  | .task g .teardown => some g
  | _ => none

/-- The goal may still read its signals. -/
def listens (w : World F) (g : Nat) : Bool :=
  match w.task g with
  | some t => Phase.listening t.phase
  | none => false

/-- The step drops no cancel or resume sender of another goal that may still read it. -/
def KeepsSenders (w : World F) (a : Action F) : Prop :=
  ∀ g ∈ overwriter w a,
    (∀ g' ∈ w.shared.ds.cancelSender, g' = g ∨ listens w g' = false)
      ∧ (∀ g' ∈ w.shared.ds.resumeSender, g' = g ∨ listens w g' = false)

instance (w : World F) (a : Action F) : Decidable (KeepsSenders w a) :=
  inferInstanceAs (Decidable (∀ g ∈ overwriter w a, _))

/--
A goal in its attempt loop is still listened to: somebody can cancel it or has, and its
resume sender is where `resume_motion` looks for it.
-/
def Listening (w : World F) : Prop :=
  ∀ g t, w.task g = some t → Phase.listening t.phase = true →
    (w.shared.ds.cancelSender = some g ∨ w.shared.cancelBox g = true)
      ∧ w.shared.ds.resumeSender = some g

/-- What is in a signal mailbox was sent by the one who sends it. -/
structure SignalsSent (s : Shared F) : Prop where
  cancel : ∀ g, s.cancelBox g = true → s.cancelDelivered g = true
  resume : ∀ g, s.resumeBox g = true → s.resumeSignalled g = true

/-- The step takes a cancel or a resume only where one is waiting that was sent. -/
def Genuine (w : World F) (a : Action F) : Prop :=
  ∀ g, (a = .task g .cancel → w.shared.cancelBox g = true ∧ w.shared.cancelDelivered g = true)
    ∧ (a = .task g .resume → w.shared.resumeBox g = true ∧ w.shared.resumeSignalled g = true)

/-! ## What leaves the signals alone -/

structure SameSignals (s s' : Shared F) : Prop where
  cancelSender : s'.ds.cancelSender = s.ds.cancelSender
  resumeSender : s'.ds.resumeSender = s.ds.resumeSender
  cancelBox : s'.cancelBox = s.cancelBox
  resumeBox : s'.resumeBox = s.resumeBox
  cancelDelivered : s'.cancelDelivered = s.cancelDelivered
  resumeSignalled : s'.resumeSignalled = s.resumeSignalled

theorem SameSignals.refl (s : Shared F) : SameSignals s s := ⟨rfl, rfl, rfl, rfl, rfl, rfl⟩

theorem resolveGoal_sameSignals (s : Shared F) (v : Bool) (r : Resolver) :
    SameSignals s (s.resolveGoal v r) := by
  obtain ⟨box, by_, he⟩ := s.resolveGoal_eq v r
  rw [he]
  exact ⟨rfl, rfl, rfl, rfl, rfl, rfl⟩

theorem SocketMove.sameSignals {s s' : Shared F} {p p' : SocketPhase}
    (h : SocketServer.Move s p s' p') : SameSignals s s' := by
  cases h with
  | ok c ch _ => exact resolveGoal_sameSignals ..
  | error c ch _ => exact resolveGoal_sameSignals ..
  | close c ch _ => exact { resolveGoal_sameSignals s false (.closed c.script) with }
  | _ => exact ⟨rfl, rfl, rfl, rfl, rfl, rfl⟩

theorem RealtimeMove.sameSignals {s s' : Shared F} {p p' : RtPhase}
    (h : RealtimeReader.Move s p s' p') : SameSignals s s' := by
  cases h with
  | abort => exact { resolveGoal_sameSignals s false .safetyStop with }
  | _ => exact ⟨rfl, rfl, rfl, rfl, rfl, rfl⟩

/-- A goal's task touches its signals only by taking one and by its teardown. -/
theorem effect_sameSignals {up : Bool} {s : Shared F} {g : Nat} {t : Task F} {i : TaskInput}
    (hc : i ≠ .cancel) (hr : i ≠ .resume) (ht : i ≠ .teardown) :
    SameSignals s (World.effect cfg up s g t i) := by
  cases i with
  | cancel => exact absurd rfl hc
  | resume => exact absurd rfl hr
  | teardown => exact absurd rfl ht
  | write r => cases r <;> exact ⟨rfl, rfl, rfl, rfl, rfl, rfl⟩
  | feedback m => cases m <;> exact ⟨rfl, rfl, rfl, rfl, rfl, rfl⟩
  | sendStop r => cases r <;> exact ⟨rfl, rfl, rfl, rfl, rfl, rfl⟩
  | redis keys =>
      simp only [World.effect]
      split <;> exact ⟨rfl, rfl, rfl, rfl, rfl, rfl⟩
  | _ => exact ⟨rfl, rfl, rfl, rfl, rfl, rfl⟩

/-- Nothing but `command_server`, the goals' tasks and `resume_motion` has to do with them. -/
theorem sameSignals_step {a : Action F} (h : World.step cfg w a = some w')
    (hc : ∀ i, a ≠ .command i) (ht : ∀ g i, a ≠ .task g i) (hd : ∀ i, a ≠ .dashboard i) :
    SameSignals w.shared w'.shared := by
  cases a with
  | client i | robot i | server i =>
      obtain ⟨_, _, _, _, _, _, _, rfl⟩ := World.step_outside h rfl
      exact ⟨rfl, rfl, rfl, rfl, rfl, rfl⟩
  | command i => exact absurd rfl (hc i)
  | task g i => exact absurd rfl (ht g i)
  | socket i =>
      obtain ⟨s, p, hm, rfl⟩ := World.step_socket h
      exact SocketMove.sameSignals hm
  | realtime i =>
      obtain ⟨s, p, hm, rfl⟩ := World.step_realtime h
      exact RealtimeMove.sameSignals hm
  | dashboard i => exact absurd rfl (hd i)

theorem SignalsSent.of_same {s s' : Shared F} (hs : SignalsSent s) (h : SameSignals s s') :
    SignalsSent s' where
  cancel g hg := by
    rw [h.cancelBox] at hg
    rw [h.cancelDelivered]
    exact hs.cancel g hg
  resume g hg := by
    rw [h.resumeBox] at hg
    rw [h.resumeSignalled]
    exact hs.resume g hg

/-! ## What is in a mailbox was sent -/

theorem update_true {f : Nat → Bool} {g g' : Nat} {b : Bool}
    (h : Function.update f g b g' = true) : (g' = g ∧ b = true) ∨ f g' = true := by
  by_cases hg : g' = g
  · subst hg
    rw [Function.update_self] at h
    exact .inl ⟨rfl, h⟩
  · rw [Function.update_of_ne hg] at h
    exact .inr h

theorem update_true_of {f : Nat → Bool} {g g' : Nat} (h : g' = g ∨ f g' = true) :
    Function.update f g true g' = true := by
  by_cases hg : g' = g
  · subst hg; exact Function.update_self ..
  · rw [Function.update_of_ne hg]
    exact h.resolve_left hg

theorem deliverCancel_signalsSent {s : Shared F} (hs : SignalsSent s) :
    SignalsSent (CommandServer.deliverCancel s) := by
  unfold CommandServer.deliverCancel
  split
  · refine ⟨fun g' hg => update_true_of ?_, hs.resume⟩
    exact (update_true hg).imp And.left (hs.cancel g')
  · exact hs

theorem effect_signalsSent {up : Bool} {s : Shared F} {g : Nat} {t : Task F} {i : TaskInput}
    (hs : SignalsSent s) : SignalsSent (World.effect cfg up s g t i) := by
  by_cases hc : i = .cancel
  · subst hc
    exact ⟨fun g' hg => hs.cancel g' ((update_true hg).resolve_left (by simp)), hs.resume⟩
  by_cases hr : i = .resume
  · subst hr
    exact ⟨hs.cancel, fun g' hg => hs.resume g' ((update_true hg).resolve_left (by simp))⟩
  by_cases ht : i = .teardown
  · subst ht
    exact ⟨hs.cancel, hs.resume⟩
  · exact hs.of_same (effect_sameSignals hc hr ht)

theorem signalsSent_step {a : Action F} (hs : SignalsSent w.shared)
    (h : World.step cfg w a = some w') : SignalsSent w'.shared := by
  cases a with
  | command i =>
      cases World.step_command h with
      -- the cancel that is delivered is recorded in the same step
      | cancel => exact deliverCancel_signalsSent hs
      | _ => exact ⟨hs.cancel, hs.resume⟩
  | task g i =>
      obtain ⟨t, t', -, -, -, rfl⟩ := World.step_task h
      exact effect_signalsSent hs
  | dashboard i =>
      cases World.step_dashboard h with
      | signal r g result _ _ =>
          exact ⟨hs.cancel, fun g' hg => update_true_of
            ((update_true hg).imp And.left (hs.resume g'))⟩
      | _ => exact ⟨hs.cancel, hs.resume⟩
  | _ => exact hs.of_same (sameSignals_step h (by simp) (by simp) (by simp))

/-! ## A goal in its attempt loop is listened to -/

theorem Hops.listening {p p' : Phase} {i : TaskInput} (h : Task.Hops p i p')
    (hl : Phase.listening p' = true) : Phase.listening p = true ∧ i ≠ .cancel := by
  cases h <;> simp_all [Phase.listening]

theorem publishing_not_listening {p : Phase} (h : p.publishing = true) :
    Phase.listening p = false := by
  cases p <;> first | rfl | cases h

/-- A task that still listens did so before, and did not just take its cancel. -/
theorem Move.listening {t t' : Task F} {i : TaskInput} (h : Task.Move t i t')
    (hl : Phase.listening t'.phase = true) : Phase.listening t.phase = true ∧ i ≠ .cancel := by
  cases h with
  | hop i p hh => exact Hops.listening hh hl
  | leave i e hh =>
      rw [publishing_not_listening (leave_phase t e)] at hl
      cases hl
  | publish keys p written hp =>
      rcases hp.publishing.2 with hp' | rfl
      · rw [publishing_not_listening hp'] at hl; cases hl
      · cases hl
  | stop id hp => cases hl
  | feedback m hp hf => exact ⟨hl, nofun⟩
  | install hp | write hp | handshake hp | restop id hp | measure n next hp
  | activate remaining nextScript hp => rw [hp]; exact ⟨rfl, nofun⟩

/-- A cancel stays in its channel until its goal takes it. -/
theorem cancelBox_step {a : Action F} {g : Nat} (h : World.step cfg w a = some w')
    (ha : a ≠ .task g .cancel) (hb : w.shared.cancelBox g = true) :
    w'.shared.cancelBox g = true := by
  cases a with
  | command i =>
      cases World.step_command h with
      | cancel p _ _ =>
          dsimp only
          unfold CommandServer.deliverCancel
          split
          · exact update_true_of (.inr hb)
          · exact hb
      | _ => exact hb
  | task g' i =>
      obtain ⟨t, t', -, -, -, rfl⟩ := World.step_task h
      by_cases hc : i = .cancel
      · subst hc
        -- another goal takes its own signal, not this one
        have hg : g ≠ g' := by rintro rfl; exact ha rfl
        simpa [World.effect, hg] using hb
      by_cases hr : i = .resume
      · subst hr
        exact hb
      by_cases ht : i = .teardown
      · subst ht
        exact hb
      · have hs : SameSignals w.shared (World.effect cfg w.dashboard.up w.shared g' t i) :=
          effect_sameSignals hc hr ht
        exact hs.cancelBox ▸ hb
  | dashboard i => cases World.step_dashboard h <;> exact hb
  | _ => exact (sameSignals_step h (by simp) (by simp) (by simp)).cancelBox ▸ hb

/-- A step that is not an overwriting one drops a cancel sender only for a cancel, and
leaves the resume sender alone. -/
theorem senders_step {a : Action F} {g : Nat} (h : World.step cfg w a = some w')
    (ho : overwriter w a = none) :
    (w.shared.ds.cancelSender = some g →
      w'.shared.ds.cancelSender = some g ∨ w'.shared.cancelBox g = true)
    ∧ w'.shared.ds.resumeSender = w.shared.ds.resumeSender := by
  cases a with
  | command i =>
      cases World.step_command h with
      -- storing the senders of a goal overwrites the ones before them
      | store g' command hc => rw [overwriter, hc] at ho; cases ho
      | cancel p _ _ =>
          dsimp only
          -- a taken sender has put its signal in the goal's mailbox
          unfold CommandServer.deliverCancel
          split
          · rename_i g' hg'
            refine ⟨fun hs => .inr (update_true_of (.inl ?_)), rfl⟩
            rw [hg'] at hs
            exact (Option.some.inj hs).symm
          · exact ⟨.inl, rfl⟩
      | accept => exact ⟨.inl, rfl⟩
      | other => exact ⟨.inl, rfl⟩
  | task g' i =>
      obtain ⟨t, t', -, -, -, rfl⟩ := World.step_task h
      have ht : i ≠ .teardown := by rintro rfl; cases ho
      by_cases hc : i = .cancel
      · subst hc
        exact ⟨.inl, rfl⟩
      by_cases hr : i = .resume
      · subst hr
        exact ⟨.inl, rfl⟩
      · have hs : SameSignals w.shared (World.effect cfg w.dashboard.up w.shared g' t i) :=
          effect_sameSignals hc hr ht
        exact ⟨fun hg => .inl (hs.cancelSender ▸ hg), hs.resumeSender⟩
  | dashboard i =>
      cases World.step_dashboard h with
      | other i ds p hf =>
          obtain ⟨_, _, _, _, _, _, _, rfl⟩ := hf.writes
          exact ⟨.inl, rfl⟩
      | _ => exact ⟨.inl, rfl⟩
  | _ =>
      have hs := sameSignals_step h (by simp) (by simp) (by simp)
      exact ⟨fun hg => .inl (hs.cancelSender ▸ hg), hs.resumeSender⟩

/-- A goal in reach of a cancel stays so until it takes one. -/
theorem reach_step {a : Action F} {g : Nat} (h : World.step cfg w a = some w')
    (ho : overwriter w a = none) (ha : a ≠ .task g .cancel)
    (hg : w.shared.ds.cancelSender = some g ∨ w.shared.cancelBox g = true) :
    w'.shared.ds.cancelSender = some g ∨ w'.shared.cancelBox g = true := by
  rcases hg with hc | hb
  · exact (senders_step h ho).1 hc
  · exact .inr (cancelBox_step h ha hb)

/-- A step that overwrites the senders of a goal in its loop is that goal's own. -/
theorem KeepsSenders.own {a : Action F} {g g' : Nat} {t : Task F} (hk : KeepsSenders w a)
    (ho : overwriter w a = some g') (hr : w.shared.ds.resumeSender = some g)
    (ht : w.task g = some t) (hl : Phase.listening t.phase = true) : g = g' := by
  rcases (hk g' ho).2 g hr with hg | hg
  · exact hg
  · rw [listens, ht] at hg
    rw [show Phase.listening t.phase = false from hg] at hl
    cases hl

theorem listening_step {a : Action F} (hL : Listening w) (hp : PendingAdmitted w)
    (hk : KeepsSenders w a) (h : World.step cfg w a = some w') : Listening w' := by
  intro g t' ht' hl
  cases task_origin hp h ht' with
  -- a goal that is being accepted has no task in its loop yet
  | accepted command script uuid _ _ _ he => rw [he] at hl; cases hl
  | spawned t ha hpend ht hta he =>
      subst ha
      cases World.step_command h with
      | store g' command hc =>
          rw [hc] at hpend
          cases hpend
          exact ⟨.inl rfl, rfl⟩
      | other _ keys p hplain => cases hplain
  -- the goal's own step: it was in its loop before and took no cancel
  | moved t i ha ht _ hm =>
      subst ha
      obtain ⟨hlt, hic⟩ := Move.listening hm hl
      have hit : i ≠ .teardown := by
        rintro rfl
        rw [(Move.of_teardown hm).2] at hl
        cases hl
      have ho : overwriter w (.task g i) = none := by
        cases i <;> first | rfl | exact absurd rfl hit
      obtain ⟨hc, hr⟩ := hL g t ht hlt
      exact ⟨reach_step h ho (by simp [hic]) hc, (senders_step (g := g) h ho).2 ▸ hr⟩
  -- another's step: it either leaves the senders alone or overwrites them
  | same ht =>
      obtain ⟨hc, hr⟩ := hL g t' ht hl
      cases ho : overwriter w a with
      | none =>
          have ha : a ≠ .task g .cancel := by
            rintro rfl
            obtain ⟨u, u', hu, -, hm, rfl⟩ := World.step_task h
            simp only [Function.update_self, Option.some.injEq] at ht'
            exact (Move.listening hm (ht' ▸ hl)).2 rfl
          exact ⟨reach_step h ho ha hc, (senders_step (g := g) h ho).2 ▸ hr⟩
      | some g' =>
          -- the senders were this goal's, so the step that overwrites them is its own
          have hg := hk.own ho hr ht hl
          subst hg
          cases a with
          | command i =>
              cases World.step_command h with
              | store g' command hc' =>
                  rw [overwriter, hc'] at ho
                  cases ho
                  exact ⟨.inl rfl, rfl⟩
              | other _ keys p hplain => cases i <;> first | cases ho | cases hplain
              | _ => cases ho
          | task g' i =>
              cases i with
              | teardown =>
                  cases ho
                  obtain ⟨u, u', hu, -, hm, rfl⟩ := World.step_task h
                  simp only [Function.update_self, Option.some.injEq] at ht'
                  rw [← ht', (Move.of_teardown hm).2] at hl
                  cases hl
              | _ => cases ho
          | _ => cases ho

/-- With its senders in place, `recv` only returns for a signal. -/
theorem Listening.genuine {a : Action F} (hL : Listening w) (hs : SignalsSent w.shared)
    (h : World.step cfg w a = some w') : Genuine w a := by
  intro g
  constructor
  · rintro rfl
    obtain ⟨t, t', ht, hready, hm, -⟩ := World.step_task h
    have hp := (Move.of_cancel hm).2
    have hbox : w.shared.cancelBox g = true := by
      rcases (hL g t ht (by rw [hp]; rfl)).1 with hc | hb
      -- a live sender does not let `recv` return with nothing
      · simpa [World.ready, World.cancelHeld, hc] using hready
      · exact hb
    exact ⟨hbox, hs.cancel g hbox⟩
  · rintro rfl
    obtain ⟨t, t', ht, hready, hm, -⟩ := World.step_task h
    have hp := (Move.of_resume hm).2
    have hres := (hL g t ht (by rw [hp]; rfl)).2
    have hbox : w.shared.resumeBox g = true := by
      simpa [World.ready, World.resumeHeld, hres] using hready
    exact ⟨hbox, hs.resume g hbox⟩

section Reachable

variable [Zero F] {ok : World F → Action F → Prop}

theorem signalsSent_reachable (h : Run cfg ok w) : SignalsSent w.shared :=
  h.invariant ⟨nofun, nofun⟩ fun _ _ _ _ hs _ hstep => signalsSent_step hs hstep

theorem listening_reachable (h : Run cfg KeepsSenders w) : Listening w :=
  h.invariant (fun _ _ ht => by cases ht) fun _ _ _ hr hL hk hs =>
    listening_step hL (pendingAdmitted_reachable hr) hk hs

/--
**Cancels and resumes are genuine.** In every run in which no acceptance and no teardown
drops a sender of another goal, the wait loop takes a cancel only where `command_server`
sent one and a resume only where `resume_motion` did.
-/
theorem signals_genuine {a : Action F} (h : Run cfg KeepsSenders w)
    (hs : World.step cfg w a = some w') : Genuine w a :=
  (listening_reachable h).genuine (signalsSent_reachable h) hs

end Reachable

open Scenario

/-- The second acceptance overwrites the first goal's cancel sender: the first goal takes
that for a cancel nobody sent. -/
theorem not_signals_genuine :
    ¬ ∀ (w w' : World Int) (a : Action Int), Lts.Reachable (World.step config) World.init w →
      World.step config w a = some w' → Genuine w a := by
  intro h
  have hrun : (Lts.run (World.step config) World.init
      (start ++ request "a" ++ request "b" ++ launch 0 ++ shake ⟨0, 0⟩ "a")).any (fun w =>
        !w.shared.cancelBox 0 && (World.step config w (.task 0 .cancel)).isSome) = true := by
    decide
  obtain ⟨w, hw, hp⟩ := Lts.exists_of_run hrun
  obtain ⟨hbox, hstep⟩ := Bool.and_eq_true_iff.mp hp
  obtain ⟨w', hs⟩ := Option.isSome_iff_exists.mp hstep
  have hg := ((h w w' _ hw hs 0).1 rfl).1
  rw [hg] at hbox
  cases hbox

/-- A goal that is cancelled by its client while its script runs. -/
theorem signals_genuine_trace : ∃ w w' : World Int, Run config KeepsSenders w
    ∧ World.step config w (.task 0 .cancel) = some w' ∧ Genuine w (.task 0 .cancel) := by
  have hrun : (Lts.runBy (World.step config) KeepsSenders World.init
      (start ++ request "a" ++ launch 0 ++ shake ⟨0, 0⟩ "a" ++ askCancel
        ++ [.command .cancel])).any (fun w =>
        (World.step config w (.task 0 .cancel)).isSome) = true := by
    decide
  obtain ⟨w, hw, hp⟩ := Lts.exists_of_runBy hrun
  obtain ⟨w', hs⟩ := Option.isSome_iff_exists.mp hp
  exact ⟨w, w', hw, hs, signals_genuine hw hs⟩

end UrRedisDriver.Proof
