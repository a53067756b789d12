import UrRedisDriver.Proof.Admission
import UrRedisDriver.Proof.Gates

/-!
# What a script is sent under

The admission block checks the connection, the hold and the safety mode once. Several
`await`s lie between that and the goal's channels being installed and its script written, and
a resume comes back to the same two steps without passing the block again. Whether a script
is sent under the three conditions is then a matter of what the realtime reader and the
dashboard task do meanwhile.
-/

namespace UrRedisDriver.Proof

open UrRedisDriver

variable {F : Type} {cfg : Config F} {w w' : World F}

/-- The admission conditions: the robot is connected, not held, and in a safety mode that
accepts goals. -/
structure GatesOpen (s : Shared F) : Prop where
  connected : s.ds.connected = true
  running : s.ds.motionPaused = false
  safety : safetyModeAcceptsGoal s.ds.safetyMode = true

theorem gatesOpen_iff {s : Shared F} : GatesOpen s ↔ s.ds.connected = true
    ∧ s.ds.motionPaused = false ∧ safetyModeAcceptsGoal s.ds.safetyMode = true :=
  ⟨fun h => ⟨h.1, h.2, h.3⟩, fun h => ⟨h.1, h.2.1, h.2.2⟩⟩

instance (s : Shared F) : Decidable (GatesOpen s) := decidable_of_iff _ gatesOpen_iff.symm

theorem SameGates.open {s s' : Shared F} (h : SameGates s s') (ho : GatesOpen s) :
    GatesOpen s' where
  connected := h.connected.trans ho.connected
  running := h.motionPaused.trans ho.running
  safety := by rw [h.safetyMode]; exact ho.safety

/-- The step installs an attempt's channels, or writes its script. -/
def sends : Action F → Bool
  | .task _ .install | .task _ (.write (.ok _)) => true
  | _ => false

/-- The task is on its way to writing a script: accepted, or started over by a resume. -/
def launching : Phase → Bool
  | .admitted | .connecting | .installing | .writing => true
  | _ => false

/-- The step closes one of the gates, if they were not closed already. -/
def closes (w : World F) : Action F → Bool
  | .realtime .fail => true
  | .realtime (.frame f) => !safetyModeAcceptsGoal f.safetyMode
  | .dashboard i => latches w.dashboard i
  | _ => false

/-- Some goal is on its way to writing a script. -/
def anyLaunching (w : World F) : Bool :=
  (List.range w.goals).any fun g => (w.task g).any fun t => launching t.phase

/-- A resume starts its goal over by this step. -/
def startsOver : Action F → Bool
  | .task _ .activate => true
  | _ => false

/--
No gate is closed while a goal is on its way to writing a script, and a resume starts its goal
over only while they are open.
-/
def undisturbed (w : World F) (a : Action F) : Bool :=
  (!closes w a || !anyLaunching w) && (!startsOver a || decide (GatesOpen w.shared))

abbrev Undisturbed (w : World F) (a : Action F) : Prop := undisturbed w a = true

theorem anyLaunching_of {g : Nat} {t : Task F} (hf : Fresh w) (ht : w.task g = some t)
    (hl : launching t.phase = true) : anyLaunching w = true := by
  have hg : g < w.goals := by
    by_contra hg
    rw [hf g (by omega)] at ht
    cases ht
  refine List.any_eq_true.mpr ⟨g, List.mem_range.mpr hg, ?_⟩
  rw [ht]
  exact hl

/-- The gates stay open unless the step closes one. -/
theorem open_step {a : Action F} (h : World.step cfg w a = some w')
    (hc : closes w a = false) (ho : GatesOpen w.shared) : GatesOpen w'.shared := by
  cases a with
  | realtime i =>
      cases step_realtime_gates h with
      | skip hs | abort hs => exact hs.open ho
      | connect hcon hm hs => exact ⟨hcon, hm.trans ho.running, by rw [hs]; exact ho.safety⟩
      | fail => cases hc
      | frame f hcon hm hs =>
          -- a frame opens no gate and closes one by its safety mode alone
          refine ⟨hcon.trans ho.connected, hm.trans ho.running, ?_⟩
          rw [hs]
          simpa [closes] using hc
  | dashboard i =>
      obtain ⟨hcon, hs⟩ := step_dashboard_gates h
      have hlatch : latches w.dashboard i = false := hc
      refine ⟨hcon.trans ho.connected, ?_, by rw [hs]; exact ho.safety⟩
      cases dashPhase_latch (step_dashboard_phase h).1 with
      | same _ hm => exact hm.trans ho.running
      | set hl _ => rw [hl] at hlatch; cases hlatch
      | clear _ hm => exact hm
  | task g i =>
      -- the teardown takes the hold off, which can only open
      by_cases hi : i = .teardown
      · subst hi
        obtain ⟨hcon, hm, hs⟩ := teardown_gates h
        exact ⟨hcon.trans ho.connected, hm, by rw [hs]; exact ho.safety⟩
      · refine (step_gates h nofun nofun ?_).open ho
        intro g' he
        cases he
        exact hi rfl
  | _ => exact (step_gates h nofun nofun nofun).open ho

theorem not_launching_of_publishing {p : Phase} (h : p.publishing = true) :
    launching p = false := by
  unfold Phase.publishing at h
  split at h <;> first | rfl | cases h

/-- A task gets on its way to a script by starting over. -/
theorem Move.launching {t t' : Task F} {i : TaskInput} (h : Task.Move t i t')
    (hl : launching t'.phase = true) : Proof.launching t.phase = true ∨ i = .activate := by
  cases h with
  | hop i p hh =>
      generalize t.phase = q at hh
      cases hh with
      | connect => exact .inl rfl
      | _ => cases hl
  | leave i e hh =>
      -- whoever leaves is not on its way to writing a script
      rw [not_launching_of_publishing (leave_phase t e)] at hl
      cases hl
  | publish keys p written hh =>
      rcases hh.publishing.2 with hp | rfl
      · rw [not_launching_of_publishing hp] at hl
        cases hl
      · cases hl
  | install hp => rw [hp]; exact .inl rfl
  | activate => exact .inr rfl
  | feedback m hp => rw [hp] at hl; cases hl
  | _ => cases hl

/-- The gates are open whenever a goal is on its way to writing a script. -/
def LaunchedOpen (w : World F) : Prop :=
  ∀ g t, w.task g = some t → launching t.phase = true → GatesOpen w.shared

theorem launchedOpen_step {a : Action F} (hI : LaunchedOpen w) (hf : Fresh w)
    (hp : PendingAdmitted w) (hok : Undisturbed w a) (h : World.step cfg w a = some w') :
    LaunchedOpen w' := by
  intro g t' ht' hl
  obtain ⟨hclose, hover⟩ := Bool.and_eq_true_iff.mp hok
  -- a goal that is on its way already has open gates that this step leaves open
  have hkeep (t : Task F) (ht : w.task g = some t) (hl : launching t.phase = true) :
      GatesOpen w'.shared := by
    refine open_step h ?_ (hI g t ht hl)
    rw [anyLaunching_of hf ht hl] at hclose
    simpa using hclose
  cases task_origin hp h ht' with
  | same ht => exact hkeep t' ht hl
  | moved t i ha ht _ hm =>
      rcases Move.launching hm hl with hl | rfl
      · exact hkeep t ht hl
      · subst ha
        exact open_step h rfl (by simpa [startsOver] using hover)
  | accepted command script uuid ha hn _ _ =>
      subst ha
      obtain ⟨hcon, hm, hs⟩ := rejection_none_gates hn
      exact open_step h rfl ⟨hcon, hm, hs⟩
  | spawned t ha _ ht hta _ =>
      exact hkeep t ht (by rw [hta]; rfl)

/-- Sending is the task's own next step, from one of two phases. -/
theorem sender_launching {a : Action F} (hs : sends a = true)
    (h : World.step cfg w a = some w') :
    ∃ g t, w.task g = some t ∧ launching t.phase = true := by
  cases a with
  | task g i =>
      obtain ⟨t, t', ht, -, hm, -⟩ := World.step_task h
      refine ⟨g, t, ht, ?_⟩
      cases hm with
      | install hp | write hp => rw [hp]; rfl
      | hop i p hh => generalize t.phase = q at hh; cases hh <;> cases hs
      | leave i e hh => generalize t.phase = q at hh; cases hh <;> cases hs
      | _ => cases hs
  | _ => cases hs

/-- A step that closes a gate leaves it closed. -/
theorem closed_step {a : Action F} (h : World.step cfg w a = some w') (hc : closes w a = true) :
    ¬ GatesOpen w'.shared := by
  intro ho
  cases a with
  | realtime i =>
      cases step_realtime_gates h with
      | skip | abort | connect => cases hc
      | fail hcon _ _ =>
          -- each step that closes leaves one of the three gates shut
          have hopen := ho.connected
          rw [hcon] at hopen
          cases hopen
      | frame f _ _ hs =>
          have hopen := ho.safety
          rw [hs] at hopen
          simp [closes, hopen] at hc
  | dashboard i =>
      have hlatch : latches w.dashboard i = true := hc
      cases dashPhase_latch (step_dashboard_phase h).1 with
      | same hl _ | clear hl _ => rw [hl] at hlatch; cases hlatch
      | set _ hm =>
          have hopen := ho.running
          rw [hm] at hopen
          cases hopen
  | _ => cases hc

/-- Only the realtime reader and the dashboard task close a gate. -/
theorem closes_others {a : Action F} (h : World.step cfg w a = some w')
    (hc : closes w a = true) : w'.task = w.task ∧ w'.socket = w.socket := by
  cases a with
  | realtime i => obtain ⟨s, p, -, rfl⟩ := World.step_realtime h; exact ⟨rfl, rfl⟩
  | dashboard i => cases World.step_dashboard h <;> exact ⟨rfl, rfl⟩
  | _ => cases hc

/-- A task that is about to install its channels or write its script can do so. -/
theorem sends_enabled {g : Nat} {t : Task F} (hrun : w.socket ≠ .stopped)
    (ht : w.task g = some t) (hp : t.phase = .installing ∨ t.phase = .writing) :
    ∃ a w', World.step cfg w a = some w' ∧ sends a = true := by
  rcases hp with hp | hp
  · have henabled : (World.step cfg w (.task g .install)).isSome = true := by
      simp [World.step, hrun, World.taskStep, ht, World.ready, Task.step, hp]
    obtain ⟨w', hs⟩ := Option.isSome_iff_exists.mp henabled
    exact ⟨_, w', hs, rfl⟩
  · have henabled : (World.step cfg w (.task g (.write (.ok ())))).isSome = true := by
      simp [World.step, hrun, World.taskStep, ht, World.ready, Task.step, hp]
    obtain ⟨w', hs⟩ := Option.isSome_iff_exists.mp henabled
    exact ⟨_, w', hs, rfl⟩

section Reachable

variable [Zero F]

theorem launchedOpen_reachable (h : Run cfg Undisturbed w) : LaunchedOpen w :=
  h.invariant (fun _ _ ht => by cases ht) fun _ _ _ hr hI hok hs =>
    launchedOpen_step hI (fresh_reachable hr) (pendingAdmitted_reachable hr) hok hs

/--
**Scripts are sent under the admission conditions.** In every run in which no gate is closed
while a goal is on its way to writing a script and a resume starts its goal over only while
they are open, they are open at every step that installs a goal's channels or writes its
script. Where a goal is about to take one of the two, a step that closes a gate leaves it
about to take it with that gate closed.
-/
theorem sent_open (h : Run cfg Undisturbed w) :
    (∀ a w', World.step cfg w a = some w' → sends a = true → GatesOpen w.shared)
    ∧ ∀ a w', World.step cfg w a = some w' → closes w a = true →
        ∀ g t, w.task g = some t → (t.phase = .installing ∨ t.phase = .writing) →
          ∃ b w'', World.step cfg w' b = some w'' ∧ sends b = true ∧ ¬ GatesOpen w'.shared := by
  constructor
  · intro a w' hs ha
    obtain ⟨g, t, ht, hl⟩ := sender_launching ha hs
    exact launchedOpen_reachable h g t ht hl
  · intro a w' hs hc g t ht hp
    obtain ⟨htask, hsocket⟩ := closes_others hs hc
    have hrun : w'.socket ≠ .stopped := by rw [hsocket]; exact World.step_running hs
    obtain ⟨b, w'', hb, hsend⟩ : ∃ b w'', World.step cfg w' b = some w'' ∧ sends b = true :=
      sends_enabled hrun (htask ▸ ht) hp
    exact ⟨b, w'', hb, hsend, closed_step hs hc⟩

end Reachable

open Scenario

/-- The realtime connection fails while an accepted goal is opening its own. -/
theorem not_sent_open :
    ¬ ∀ (w : World Int) (a : Action Int) (w' : World Int),
      Lts.Reachable (World.step config) World.init w → World.step config w a = some w' →
      sends a = true → GatesOpen w.shared := by
  intro h
  have hrun : (Lts.run (World.step config) World.init
      (start ++ request "a" ++ [.task 0 (.connect (.ok ())), .realtime .fail])).any (fun w =>
        (World.step config w (.task 0 .install)).isSome && !w.shared.ds.connected) = true := by
    decide
  obtain ⟨w, hw, hp⟩ := Lts.exists_of_run hrun
  obtain ⟨hstep, hcon⟩ := Bool.and_eq_true_iff.mp hp
  obtain ⟨w', hs⟩ := Option.isSome_iff_exists.mp hstep
  rw [(h w _ w' hw hs rfl).connected] at hcon
  cases hcon

/-- A goal that is accepted and installs its channels, nothing coming between. -/
theorem sent_open_trace : ∃ w w' : World Int, Run config Undisturbed w
    ∧ World.step config w (.task 0 .install) = some w' ∧ GatesOpen w.shared := by
  have hrun : (Lts.runBy (World.step config) Undisturbed World.init
      (start ++ request "a" ++ [.task 0 (.connect (.ok ()))])).any (fun w =>
        (World.step config w (.task 0 .install)).isSome) = true := by
    decide
  obtain ⟨w, hw, hp⟩ := Lts.exists_of_runBy hrun
  obtain ⟨w', hs⟩ := Option.isSome_iff_exists.mp hp
  exact ⟨w, w', hw, hs, (sent_open hw).1 _ w' hs rfl⟩

end UrRedisDriver.Proof
