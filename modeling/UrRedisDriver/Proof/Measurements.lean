import UrRedisDriver.Interfaces.Prepare
import UrRedisDriver.Proof.Gates
import UrRedisDriver.Proof.Admission

/-!
# What an admission is based on

`realtime_reader` raises `connected` as soon as its socket is open and leaves the measured
fields as they were until the first full frame has been decoded. The admission block reads
`safety_mode` there, and the planner has read `joint_values` a little earlier.
-/

namespace UrRedisDriver.Proof

open UrRedisDriver

variable {F : Type} {cfg : Config F} {w w' : World F} {a : Action F}

/-! ## Where the measured fields come from -/

/-- A frame, with the number of the connection it was received on. -/
abbrev Received (F : Type) := Nat × RtFrame F

/-- What is remembered of the realtime stream. -/
structure Readings (F : Type) where
  /-- How many times the socket has been opened: the number of the connection. -/
  connection : Nat := 0
  /-- The frame that was stored last. -/
  stored : Option (Received F) := none
  /-- `joint_values` as the last preparation found them, and the frame they came from. -/
  joints : List F := []
  planned : Option (Received F) := none

def noteReadings (w : World F) (a : Action F) (r : Readings F) : Readings F :=
  match a with
  | .realtime .connect => { r with connection := r.connection + 1 }
  | .realtime (.frame f) => { r with stored := some (r.connection, f) }
  | .command (.prepare _) =>
      { r with joints := w.shared.ds.jointValues, planned := r.stored }
  | _ => r

/-- A frame has been stored since the socket was opened. -/
def heard (r : Readings F) : Bool := r.stored.any fun f => f.1 == r.connection

/-- A planned trajectory has passed its planning and not the admission block yet. -/
def betweenReadings : CommandPhase F → Bool
  | .checking command _ => isPlannerCommand command.commandType
  | _ => false

/--
A trajectory is planned, and a request passes the admission block, only once a frame has been
stored since the socket was opened, and the socket is not opened again in between the two.
-/
def measured (x : World F × Readings F) (a : Action F) : Bool :=
  match a with
  | .command (.prepare (.ok (command, _))) => !isPlannerCommand command.commandType || heard x.2
  | .realtime .connect => !betweenReadings x.1.command
  | a => !passes x.1 a || heard x.2

abbrev Measured (x : World F × Readings F) (a : Action F) : Prop := measured x a = true

/-- An acceptance of `command` here would be based on frames of the connection that is up. -/
structure Current (w : World F) (r : Readings F) (command : RobotCommand F) : Prop where
  connected : w.shared.ds.connected = true
  safetyMode : ∃ f, r.stored = some (r.connection, f) ∧ w.shared.ds.safetyMode = f.safetyMode
  joints : isPlannerCommand command.commandType = true →
    ∃ f, r.planned = some (r.connection, f) ∧ r.joints = f.joints

/-- The two measured fields are as they were. -/
structure SameMeasurements (s s' : Shared F) : Prop where
  safetyMode : s'.ds.safetyMode = s.ds.safetyMode
  jointValues : s'.ds.jointValues = s.ds.jointValues

theorem resolveGoal_measurements (s : Shared F) (v : Bool) (by_ : Resolver) :
    SameMeasurements s (s.resolveGoal v by_) := by
  obtain ⟨box, r, he⟩ := s.resolveGoal_eq v by_
  rw [he]
  exact ⟨rfl, rfl⟩

theorem realtime_measurements {s s' : Shared F} {p p' : RtPhase} {i : RtInput F}
    (h : RealtimeReader.step s p i = some (s', p')) (hi : ∀ f, i ≠ .frame f) :
    SameMeasurements s s' := by
  cases p <;> cases i <;> simp only [RealtimeReader.step] at h <;> cases h
  case reading.frame f => exact absurd rfl (hi f)
  case aborting.abort =>
    obtain ⟨hs, hj⟩ := resolveGoal_measurements s false .safetyStop
    exact ⟨hs, hj⟩
  all_goals exact ⟨rfl, rfl⟩

/-- Nothing but a frame writes them. -/
theorem measurements_step (h : World.step cfg w a = some w') (ha : ∀ f, a ≠ .realtime (.frame f)) :
    SameMeasurements w.shared w'.shared := by
  cases a with
  | client i | robot i | server i =>
      obtain ⟨_, _, _, _, _, _, _, rfl⟩ := World.step_outside h rfl
      exact ⟨rfl, rfl⟩
  | command i =>
      obtain ⟨_, _, _, _, _, _, _, _, _, _, rfl⟩ := World.step_command_frame h
      exact ⟨rfl, rfl⟩
  | task g i =>
      obtain ⟨t, t', -, -, -, rfl⟩ := World.step_task h
      cases i with
      | write r => cases r <;> exact ⟨rfl, rfl⟩
      | feedback m => cases m <;> exact ⟨rfl, rfl⟩
      | sendStop r => cases r <;> exact ⟨rfl, rfl⟩
      | redis keys =>
          simp only [World.effect]
          split <;> exact ⟨rfl, rfl⟩
      | _ => exact ⟨rfl, rfl⟩
  | socket i =>
      obtain ⟨s, p, hm, rfl⟩ := World.step_socket h
      cases hm with
      | ok c | error c => exact resolveGoal_measurements w.shared _ _
      | close c =>
          -- a resolved goal touches its verdict and nothing that is measured
          obtain ⟨hs, hj⟩ := resolveGoal_measurements w.shared false (.closed c.script)
          exact ⟨hs, hj⟩
      | _ => exact ⟨rfl, rfl⟩
  | realtime i =>
      obtain ⟨s, p, hs, rfl⟩ := World.step_realtime_eq h
      exact realtime_measurements hs fun f hf => ha f (by rw [hf])
  | dashboard i =>
      cases World.step_dashboard h with
      | other i ds p hf =>
          obtain ⟨_, _, _, _, _, _, _, rfl⟩ := hf.writes
          exact ⟨rfl, rfl⟩
      | _ => exact ⟨rfl, rfl⟩

/-- And a frame writes both. -/
theorem measurements_frame {f : RtFrame F}
    (h : World.step cfg w (.realtime (.frame f)) = some w') :
    w'.shared.ds.safetyMode = f.safetyMode ∧ w'.shared.ds.jointValues = f.joints := by
  obtain ⟨s, p, hs, rfl⟩ := World.step_realtime_eq h
  cases hp : w.realtime <;> rw [hp] at hs <;> simp only [RealtimeReader.step] at hs <;> cases hs
  exact ⟨rfl, rfl⟩

/-! ## Every run -/

/-- The measured fields hold the stored frame, and so does what a trajectory was planned on. -/
structure Grounded (x : World F × Readings F) : Prop where
  stored : ∀ f, x.2.stored = some f → x.1.shared.ds.safetyMode = f.2.safetyMode
    ∧ x.1.shared.ds.jointValues = f.2.joints
  planned : betweenReadings x.1.command = true →
    ∃ f, x.2.planned = some (x.2.connection, f) ∧ x.2.joints = f.joints

theorem heard_iff {r : Readings F} :
    heard r = true ↔ ∃ f, r.stored = some (r.connection, f) := by
  unfold heard
  rw [Option.any_eq_true]
  constructor
  · rintro ⟨⟨n, f⟩, hs, hn⟩
    have hn : n = r.connection := eq_of_beq hn
    exact ⟨f, by rw [hs, hn]⟩
  · rintro ⟨f, hs⟩
    exact ⟨_, hs, beq_self_eq_true _⟩

/-- `command_server` gets to the admission block by a preparation, and by nothing else. -/
theorem command_betweenReadings {g : Nat} {s s' : Shared F} {p p' : CommandPhase F}
    {i : CommandInput F} (h : CommandServer.step g s p i = some (s', p'))
    (hb : betweenReadings p' = true) :
    ∃ command script, i = .prepare (.ok (command, script))
      ∧ isPlannerCommand command.commandType = true := by
  unfold CommandServer.step at h
  split at h
  case h_6 command script =>
    -- only a command that has been prepared is between two readings
    cases h
    exact ⟨command, script, rfl, hb⟩
  all_goals first
    | (cases h; done)
    | (cases h; cases hb)
    | (cases h; split at hb <;> cases hb)
    | (split at h <;> first
        | (cases h; cases hb)
        | (split at h <;> (cases h; cases hb)))

theorem betweenReadings_step (h : World.step cfg w a = some w')
    (hb : betweenReadings w'.command = true) :
    (∃ command script, a = .command (.prepare (.ok (command, script)))
        ∧ isPlannerCommand command.commandType = true)
      ∨ (∀ i, a ≠ .command i) ∧ betweenReadings w.command = true := by
  by_cases hc : ∃ i, a = .command i
  · obtain ⟨i, rfl⟩ := hc
    obtain ⟨s, p, hs, -, hp⟩ := World.step_command_eq h
    rw [hp] at hb
    obtain ⟨command, script, hi, hplan⟩ := command_betweenReadings hs hb
    exact .inl ⟨command, script, by rw [hi], hplan⟩
  · have hne : ∀ i, a ≠ .command i := fun i ha => hc ⟨i, ha⟩
    refine .inr ⟨hne, ?_⟩
    -- nobody but `command_server` changes its phase
    have hsame : w'.command = w.command := by
      by_cases ht : ∃ g i, a = .task g i
      · obtain ⟨g, i, rfl⟩ := ht
        obtain ⟨t, t', -, -, -, rfl⟩ := World.step_task h
        rfl
      · exact (step_others h hne fun g i ha => ht ⟨g, i, ha⟩).2.2
    rw [hsame] at hb
    exact hb

theorem grounded_step {x : World F × Readings F} (hI : Grounded x) (hok : Measured x a)
    (h : World.step cfg x.1 a = some w') : Grounded (w', noteReadings x.1 a x.2) where
  stored f hf := by
    by_cases hframe : ∃ f, a = .realtime (.frame f)
    · obtain ⟨f', rfl⟩ := hframe
      cases hf
      exact measurements_frame h
    · have hsame := measurements_step h fun f ha => hframe ⟨f, ha⟩
      have hold : x.2.stored = some f := by
        rw [← hf]
        unfold noteReadings
        split
        · rfl
        · exact absurd ⟨_, rfl⟩ hframe
        · rfl
        · rfl
      obtain ⟨hs, hj⟩ := hI.stored f hold
      exact ⟨hsame.safetyMode.trans hs, hsame.jointValues.trans hj⟩
  planned hb := by
    rcases betweenReadings_step h hb with ⟨command, script, rfl, hplan⟩ | ⟨hne, hbefore⟩
    · -- planned just now, on the frame that was stored last
      have hheard : heard x.2 = true := by
        have hor : (!isPlannerCommand command.commandType || heard x.2) = true := hok
        rw [hplan] at hor
        exact hor
      obtain ⟨f, hf⟩ := heard_iff.mp hheard
      exact ⟨f, hf, (hI.stored _ hf).2⟩
    · obtain ⟨f, hf, hj⟩ := hI.planned hbefore
      refine ⟨f, ?_⟩
      unfold noteReadings
      split
      · -- the socket is not opened between the two readings
        have hnot : (!betweenReadings x.1.command) = true := hok
        rw [hbefore] at hnot
        cases hnot
      · exact ⟨hf, hj⟩
      · exact absurd rfl (hne _)
      · exact ⟨hf, hj⟩

section Reachable

variable [Zero F]

/-- The driver with the record of its realtime stream. -/
abbrev ReadingsRun (cfg : Config F) (ok : World F × Readings F → Action F → Prop)
    (x : World F × Readings F) : Prop :=
  Lts.ReachableBy (Lts.recorded (World.step cfg) noteReadings) ok (World.init, {}) x

theorem grounded_reachable {x : World F × Readings F} (h : ReadingsRun cfg Measured x) :
    Grounded x := by
  refine h.invariant ⟨fun f hf => (by cases hf), fun hb => (by cases hb)⟩ ?_
  intro x a x' _ hI hok hs
  obtain ⟨hstep, hnote⟩ := Lts.recorded_eq_some.mp hs
  have hnext := grounded_step hI hok hstep
  rw [← hnote] at hnext
  exact hnext

/--
**Admission uses current measurements.** In every run in which no trajectory is planned and no
request accepted before a frame has been stored on the connection that is up, and the socket
is not opened again between the two: whenever `command_server` accepts a goal, the safety mode
it has looked at and the joints it has planned on came in on the connection that is up.
-/
theorem accepted_current {x : World F × Readings F} {uuid : String}
    (h : ReadingsRun cfg Measured x) (hok : Measured x (.command (.admission uuid)))
    (hs : World.step cfg x.1 (.command (.admission uuid)) = some w')
    (hpass : passes x.1 (.command (.admission uuid)) = true) :
    ∃ command script, x.1.command = .checking command script ∧ Current x.1 x.2 command := by
  have hI := grounded_reachable h
  have hn : CommandServer.rejection x.1.shared = none := Option.isNone_iff_eq_none.mp hpass
  -- the condition: a frame has been heard on the connection that is checked
  have hheard : heard x.2 = true := by
    have hor : (!passes x.1 (.command (.admission uuid)) || heard x.2) = true := hok
    rw [hpass] at hor
    exact hor
  obtain ⟨f, hf⟩ := heard_iff.mp hheard
  cases World.step_command hs with
  | accept command script _ hc =>
      refine ⟨command, script, hc, (rejection_none_gates hn).1, ⟨f, hf, (hI.stored _ hf).1⟩, ?_⟩
      intro hplan
      refine hI.planned ?_
      rw [hc]
      exact hplan
  | other _ keys p _ _ hne => exact absurd hn (hne uuid rfl)

end Reachable

open Scenario

namespace Scenario

/-- The realtime socket lost and opened again. -/
def reconnect : List (Action Int) := [.realtime .fail, .realtime .connect]

/-- A planned trajectory, up to the admission block. -/
def askPlanned : List (Action Int) :=
  [.client (.requestState .initial), .client (.requestTrigger true), .command .tick,
    .command .redis,
    .command (.prepare (.ok ({ move with commandType := "optimal_trajectory" }, program)))]

/-- It is accepted. -/
def accepts (x : World Int × Readings Int) : Bool :=
  passes x.1 (.command (.admission "a"))
    && (World.step config x.1 (.command (.admission "a"))).isSome

end Scenario

/-- The robot goes away and comes back: the next request is accepted before the first frame. -/
theorem not_accepted_current :
    ¬ ∀ (x : World Int × Readings Int) (uuid : String) (w' : World Int),
      ReadingsRun config (fun _ _ => True) x →
      World.step config x.1 (.command (.admission uuid)) = some w' →
      passes x.1 (.command (.admission uuid)) = true →
      ∃ command script, x.1.command = .checking command script ∧ Current x.1 x.2 command := by
  intro h
  -- reconnected, but not yet heard from
  have hrun : (Lts.runBy (Lts.recorded (World.step config) noteReadings) (fun _ _ => True)
      (World.init, {}) (start ++ reconnect ++ askPlanned)).any
        (fun x => accepts x && !heard x.2) = true := by
    decide
  obtain ⟨x, hx, hp⟩ := Lts.exists_of_runBy hrun
  obtain ⟨hacc, hnot⟩ := Bool.and_eq_true_iff.mp hp
  obtain ⟨hpass, hstep⟩ := Bool.and_eq_true_iff.mp hacc
  obtain ⟨w', hs⟩ := Option.isSome_iff_exists.mp hstep
  obtain ⟨command, script, -, hcurrent⟩ := h x "a" w' hx hs hpass
  obtain ⟨f, hf, -⟩ := hcurrent.safetyMode
  rw [heard_iff.mpr ⟨f, hf⟩] at hnot
  cases hnot

/-- The same with a frame in between. -/
theorem accepted_current_trace : ∃ x : World Int × Readings Int, ReadingsRun config Measured x
    ∧ passes x.1 (.command (.admission "a")) = true
    ∧ ∃ command script, x.1.command = .checking command script ∧ Current x.1 x.2 command := by
  have hrun : (Lts.runBy (Lts.recorded (World.step config) noteReadings) Measured
      (World.init, {}) (start ++ reconnect ++ [.realtime (.frame (frame 1))] ++ askPlanned)).any
        (fun x => accepts x && measured x (.command (.admission "a"))) = true := by
    decide
  obtain ⟨x, hx, hp⟩ := Lts.exists_of_runBy hrun
  obtain ⟨hacc, hok⟩ := Bool.and_eq_true_iff.mp hp
  obtain ⟨hpass, hstep⟩ := Bool.and_eq_true_iff.mp hacc
  obtain ⟨w', hs⟩ := Option.isSome_iff_exists.mp hstep
  exact ⟨x, hx, hpass, accepted_current hx hok hs hpass⟩

end UrRedisDriver.Proof
