import UrRedisDriver.Proof.Admission
import UrRedisDriver.Proof.Senders

/-!
# What a teardown leaves of another goal

The teardown block clears ten fields of `DriverState` without looking at whose they are, so
another goal keeps what it has there exactly if it has nothing: nothing of it was stored yet,
or somebody has cleared it before. Where the admission block saw every live goal, there is no
other goal.
-/

namespace UrRedisDriver.Proof

open UrRedisDriver

variable {F : Type} {cfg : Config F} {w w' : World F} {a b : Nat}

/-- Goal `b` has been accepted and stored, and its task is not over. -/
def Runs (w : World F) (b : Nat) (t : Task F) : Prop :=
  w.task b = some t ∧ t.phase ≠ .admitted ∧ t.phase ≠ .done

/--
Goal `b`'s fields of `DriverState` survive a step. A sender belongs to the goal whose channel
it is of, and a goal id or a command to the goal that has it. The count and the two flags
belong to every goal that runs.
-/
structure KeepsFieldsOf (b : Nat) (w w' : World F) : Prop where
  goalSender : ∀ ch, ch.goal = b → w.shared.ds.goalSender = some ch →
    w'.shared.ds.goalSender = some ch
  handshakeSender : ∀ ch, ch.goal = b → w.shared.ds.handshakeSender = some ch →
    w'.shared.ds.handshakeSender = some ch
  feedbackSender : ∀ ch, ch.goal = b → w.shared.ds.feedbackSender = some ch →
    w'.shared.ds.feedbackSender = some ch
  cancelSender : w.shared.ds.cancelSender = some b → w'.shared.ds.cancelSender = some b
  resumeSender : w.shared.ds.resumeSender = some b → w'.shared.ds.resumeSender = some b
  goalId : ∀ t, Runs w b t → w.shared.ds.goalId = some t.uuid →
    w'.shared.ds.goalId = some t.uuid
  activeCommand : ∀ t, Runs w b t → w.shared.ds.activeCommand = some t.command →
    w'.shared.ds.activeCommand = some t.command
  waypointsCompleted : ∀ t, Runs w b t →
    w'.shared.ds.waypointsCompleted = w.shared.ds.waypointsCompleted
  reissuing : ∀ t, Runs w b t → w'.shared.ds.reissuing = w.shared.ds.reissuing
  motionPaused : ∀ t, Runs w b t → w'.shared.ds.motionPaused = w.shared.ds.motionPaused

/-- Nothing of goal `b` is in `DriverState`: none of its senders, and, once it runs, neither
its id nor its command, no waypoint counted and neither flag up. -/
structure HasNothing (b : Nat) (w : World F) : Prop where
  goalSender : ∀ ch, w.shared.ds.goalSender = some ch → ch.goal ≠ b
  handshakeSender : ∀ ch, w.shared.ds.handshakeSender = some ch → ch.goal ≠ b
  feedbackSender : ∀ ch, w.shared.ds.feedbackSender = some ch → ch.goal ≠ b
  cancelSender : w.shared.ds.cancelSender ≠ some b
  resumeSender : w.shared.ds.resumeSender ≠ some b
  goalId : ∀ t, Runs w b t → w.shared.ds.goalId ≠ some t.uuid
  activeCommand : ∀ t, Runs w b t → w.shared.ds.activeCommand ≠ some t.command
  waypointsCompleted : ∀ t, Runs w b t → w.shared.ds.waypointsCompleted = 0
  reissuing : ∀ t, Runs w b t → w.shared.ds.reissuing = false
  motionPaused : ∀ t, Runs w b t → w.shared.ds.motionPaused = false

/--
**Teardown isolation.** A goal's teardown leaves another goal's fields alone exactly if
`DriverState` has nothing of that goal: never while one of its senders is stored.
-/
theorem teardown_keepsFieldsOf_iff (hs : World.step cfg w (.task a .teardown) = some w')
    (b : Nat) : KeepsFieldsOf b w w' ↔ HasNothing b w := by
  obtain ⟨t, t', -, -, -, rfl⟩ := World.step_task hs
  constructor
  · -- what is `b`'s would have to survive, and nothing does
    intro h
    exact {
      goalSender := fun ch hc hb => Option.some_ne_none ch (h.goalSender ch hb hc).symm
      handshakeSender := fun ch hc hb => Option.some_ne_none ch (h.handshakeSender ch hb hc).symm
      feedbackSender := fun ch hc hb => Option.some_ne_none ch (h.feedbackSender ch hb hc).symm
      cancelSender := fun hc => Option.some_ne_none b (h.cancelSender hc).symm
      resumeSender := fun hc => Option.some_ne_none b (h.resumeSender hc).symm
      goalId := fun t ht hc => Option.some_ne_none t.uuid (h.goalId t ht hc).symm
      activeCommand := fun t ht hc => Option.some_ne_none t.command (h.activeCommand t ht hc).symm
      waypointsCompleted := fun t ht => (h.waypointsCompleted t ht).symm
      reissuing := fun t ht => (h.reissuing t ht).symm
      motionPaused := fun t ht => (h.motionPaused t ht).symm }
  · intro h
    exact {
      goalSender := fun ch hb hc => absurd hb (h.goalSender ch hc)
      handshakeSender := fun ch hb hc => absurd hb (h.handshakeSender ch hc)
      feedbackSender := fun ch hb hc => absurd hb (h.feedbackSender ch hc)
      cancelSender := fun hc => absurd hc h.cancelSender
      resumeSender := fun hc => absurd hc h.resumeSender
      goalId := fun t ht hc => absurd hc (h.goalId t ht)
      activeCommand := fun t ht hc => absurd hc (h.activeCommand t ht)
      waypointsCompleted := fun t ht => (h.waypointsCompleted t ht).symm
      reissuing := fun t ht => (h.reissuing t ht).symm
      motionPaused := fun t ht => (h.motionPaused t ht).symm }

section Reachable

variable [Zero F]

/-- Where no request passed the admission block while a live goal was exposed, the goal that is
torn down is the only one. -/
theorem hasNothing_of_covered (h : Run cfg AdmitsCovered w)
    (hs : World.step cfg w (.task a .teardown) = some w') (hb : b ≠ a) : HasNothing b w := by
  obtain ⟨t, t', ht, -, hm, -⟩ := World.step_task hs
  -- the goal that is torn down is live, and no other one is
  have ha : Live w a := live_iff.mpr ⟨t, ht, (Move.phase_ne hm).1⟩
  have hnot : ¬ Live w b := fun hl => hb ((exclusive_reachable h).one b a hl ha)
  have hruns : ∀ u, ¬ Runs w b u := fun u hu => hnot (live_iff.mpr ⟨u, hu.1, hu.2.2⟩)
  have hS := sendersLive_reachable h
  exact {
    goalSender := fun ch hc hch => hnot (hch ▸ hS.goal ch hc)
    handshakeSender := fun ch hc hch => hnot (hch ▸ hS.handshake ch hc)
    feedbackSender := fun ch hc hch => hnot (hch ▸ hS.feedback ch hc)
    cancelSender := fun hc => hnot (hS.cancel b hc)
    resumeSender := fun hc => hnot (hS.resume b hc)
    goalId := fun u hu => absurd hu (hruns u)
    activeCommand := fun u hu => absurd hu (hruns u)
    waypointsCompleted := fun u hu => absurd hu (hruns u)
    reissuing := fun u hu => absurd hu (hruns u)
    motionPaused := fun u hu => absurd hu (hruns u) }

end Reachable

open Scenario

/-- The first goal fails to connect after the second has been accepted: its teardown takes
the second one's cancel sender. -/
theorem not_teardown_keepsFieldsOf :
    ¬ ∀ (w w' : World Int) (a b : Nat), Lts.Reachable (World.step config) World.init w →
      World.step config w (.task a .teardown) = some w' → b ≠ a → KeepsFieldsOf b w w' := by
  intro h
  -- admitted while the first was connecting, the second has its senders stored by now
  have hrun : (Lts.run (World.step config) World.init
      (start ++ request "a" ++ request "b" ++ [.task 0 (.connect (.error "timed out"))]
        ++ fail 0 "could not connect to the realtime port for writing: timed out"
          { requestState := .executing })).any (fun w =>
        w.shared.ds.cancelSender == some 1
          && (World.step config w (.task 0 .teardown)).any fun w' =>
            w'.shared.ds.cancelSender == none) = true := by
    decide
  obtain ⟨w, hw, hp⟩ := Lts.exists_of_run hrun
  obtain ⟨hc, hstep⟩ := Bool.and_eq_true_iff.mp hp
  obtain ⟨w', hs, hc'⟩ := (Option.any_eq_true _ _).mp hstep
  have hkeep := (h w w' 0 1 hw hs (by decide)).cancelSender (by simpa using hc)
  rw [hkeep] at hc'
  cases hc'

/-- The Redis keys once a request has failed to connect. -/
def unconnected : RequestKeys where
  requestState := .failed
  requestResult := "could not connect to the realtime port for writing: timed out"
  totalFailCounter := 1
  subsequentFailCounter := 1

/--
Three goals are connecting, and the last one fails and takes with it what the second one had
stored: the teardown of the first finds nothing of the second, whose task still runs.
-/
theorem teardown_keepsFieldsOf_trace : ∃ w w' : World Int,
    Lts.Reachable (World.step config) World.init w ∧ (∃ t, Runs w 1 t)
      ∧ World.step config w (.task 0 .teardown) = some w' ∧ KeepsFieldsOf 1 w w' := by
  -- a third goal has come and gone meanwhile, and has taken the fields of the second down
  have hrun : (Lts.run (World.step config) World.init
      (start ++ request "a" ++ request "b" ++ request "c"
        ++ [.task 2 (.connect (.error "timed out"))]
        ++ fail 2 unconnected.requestResult { requestState := .executing }
        ++ [.task 2 .teardown, .task 0 (.connect (.error "timed out"))]
        ++ fail 0 unconnected.requestResult unconnected)).any (fun w =>
        (w.task 1).any (fun t => t.phase == .connecting)
          && w.shared.ds.goalSender.isNone && w.shared.ds.handshakeSender.isNone
          && w.shared.ds.feedbackSender.isNone && w.shared.ds.cancelSender.isNone
          && w.shared.ds.resumeSender.isNone && w.shared.ds.goalId.isNone
          && w.shared.ds.activeCommand.isNone && w.shared.ds.waypointsCompleted == 0
          && !w.shared.ds.reissuing && !w.shared.ds.motionPaused
          && (World.step config w (.task 0 .teardown)).isSome) = true := by
    decide
  obtain ⟨w, hw, hp⟩ := Lts.exists_of_run hrun
  simp only [Bool.and_eq_true, Option.isNone_iff_eq_none, beq_iff_eq, Bool.not_eq_true',
    Option.isSome_iff_exists, Option.any_eq_true] at hp
  obtain ⟨⟨⟨⟨⟨⟨⟨⟨⟨⟨⟨⟨t, ht, hphase⟩, hgoal⟩, hshake⟩, hfeedback⟩, hcancel⟩, hresume⟩, hid⟩,
    hcommand⟩, hcount⟩, hre⟩, hpaused⟩, w', hs⟩ := hp
  have hruns : Runs w 1 t := ⟨ht, by rw [hphase]; decide, by rw [hphase]; decide⟩
  have hnothing : HasNothing 1 w := by
    refine ⟨?_, ?_, ?_, ?_, ?_, ?_, ?_, fun _ _ => hcount, fun _ _ => hre, fun _ _ => hpaused⟩
    all_goals simp [hgoal, hshake, hfeedback, hcancel, hresume, hid, hcommand]
  exact ⟨w, w', hw, ⟨t, hruns⟩, hs, (teardown_keepsFieldsOf_iff hs 1).mpr hnothing⟩

end UrRedisDriver.Proof
