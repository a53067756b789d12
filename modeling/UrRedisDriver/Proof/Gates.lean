import UrRedisDriver.Proof.Lifetime

/-!
# Who opens and closes the gates

The admission block looks at `connected`, `motion_paused` and `safety_mode`. The realtime
reader writes the first and the last, the dashboard task the one between them, and a goal's
teardown clears that one too. Nothing else does.
-/

namespace UrRedisDriver.Proof

open UrRedisDriver

variable {F : Type} {cfg : Config F} {w w' : World F}

/-- The three are as they were. -/
structure SameGates (s s' : Shared F) : Prop where
  connected : s'.ds.connected = s.ds.connected
  motionPaused : s'.ds.motionPaused = s.ds.motionPaused
  safetyMode : s'.ds.safetyMode = s.ds.safetyMode

theorem SameGates.refl (s : Shared F) : SameGates s s := ⟨rfl, rfl, rfl⟩

theorem resolveGoal_gates (s : Shared F) (v : Bool) (by_ : Resolver) :
    SameGates s (s.resolveGoal v by_) := by
  obtain ⟨box, r, he⟩ := s.resolveGoal_eq v by_
  rw [he]
  exact ⟨rfl, rfl, rfl⟩

theorem SocketMove.gates {s s' : Shared F} {p p' : SocketPhase}
    (h : SocketServer.Move s p s' p') : SameGates s s' := by
  cases h with
  | ok c ch _ => exact resolveGoal_gates s true (.ok c.script)
  | error c ch _ => exact resolveGoal_gates s false (.error c.script)
  | close c ch _ =>
      have hres := resolveGoal_gates s false (.closed c.script)
      exact ⟨hres.connected, hres.motionPaused, hres.safetyMode⟩
  | _ => exact ⟨rfl, rfl, rfl⟩

theorem effect_gates {up : Bool} {s : Shared F} {g : Nat} {t : Task F} {i : TaskInput}
    (hi : i ≠ .teardown) : SameGates s (World.effect cfg up s g t i) := by
  cases i with
  | teardown => exact absurd rfl hi
  | write r => cases r <;> exact ⟨rfl, rfl, rfl⟩
  | feedback m => cases m <;> exact ⟨rfl, rfl, rfl⟩
  | sendStop r => cases r <;> exact ⟨rfl, rfl, rfl⟩
  | redis keys =>
      simp only [World.effect]
      split <;> exact ⟨rfl, rfl, rfl⟩
  | _ => exact ⟨rfl, rfl, rfl⟩

/-- The other tasks, the client and the robot leave them alone. -/
theorem step_gates {a : Action F} (h : World.step cfg w a = some w')
    (hr : ∀ i, a ≠ .realtime i) (hd : ∀ i, a ≠ .dashboard i)
    (ht : ∀ g, a ≠ .task g .teardown) : SameGates w.shared w'.shared := by
  cases a with
  | client i | robot i | server i =>
      obtain ⟨_, _, _, _, _, _, _, rfl⟩ := World.step_outside h rfl
      exact ⟨rfl, rfl, rfl⟩
  | command i =>
      obtain ⟨_, _, _, _, _, _, _, _, _, _, rfl⟩ := World.step_command_frame h
      exact ⟨rfl, rfl, rfl⟩
  | task g i =>
      obtain ⟨t, t', -, -, -, rfl⟩ := World.step_task h
      refine effect_gates ?_
      intro hi
      exact ht g (by rw [hi])
  | socket i =>
      -- the listener resolves goals and relays, and leaves the gates to the other two
      obtain ⟨s, p, hm, rfl⟩ := World.step_socket h
      exact SocketMove.gates hm
  | realtime i => exact absurd rfl (hr i)
  | dashboard i => exact absurd rfl (hd i)

/-- A teardown clears the latch. -/
theorem teardown_gates {g : Nat} (h : World.step cfg w (.task g .teardown) = some w') :
    w'.shared.ds.connected = w.shared.ds.connected ∧ w'.shared.ds.motionPaused = false
      ∧ w'.shared.ds.safetyMode = w.shared.ds.safetyMode := by
  obtain ⟨t, t', -, -, -, rfl⟩ := World.step_task h
  exact ⟨rfl, rfl, rfl⟩

/-- What the admission block has seen when it lets a request pass. -/
theorem rejection_none_gates {s : Shared F} (h : CommandServer.rejection s = none) :
    s.ds.connected = true ∧ s.ds.motionPaused = false
      ∧ safetyModeAcceptsGoal s.ds.safetyMode = true := by
  -- the three checks come before the one for a live goal
  unfold CommandServer.rejection at h
  split at h
  · cases h
  rename_i hc
  split at h
  · cases h
  rename_i hp
  split at h
  · cases h
  rename_i hs
  simp only [Bool.or_eq_true, Bool.not_eq_true', not_or, Bool.not_eq_false] at hc
  exact ⟨hc.2, by simpa using hp, by simpa using hs⟩

/-! ## The realtime reader -/

/-- What the realtime reader does to the gates. -/
inductive RealtimeGates (s s' : Shared F) : RtInput F → Prop
  | skip : SameGates s s' → RealtimeGates s s' .skip
  | abort : SameGates s s' → RealtimeGates s s' .abort
  | connect : s'.ds.connected = true → s'.ds.motionPaused = s.ds.motionPaused →
      s'.ds.safetyMode = s.ds.safetyMode → RealtimeGates s s' .connect
  | fail : s'.ds.connected = false → s'.ds.motionPaused = s.ds.motionPaused →
      s'.ds.safetyMode = s.ds.safetyMode → RealtimeGates s s' .fail
  | frame (f : RtFrame F) : s'.ds.connected = s.ds.connected →
      s'.ds.motionPaused = s.ds.motionPaused → s'.ds.safetyMode = f.safetyMode →
      RealtimeGates s s' (.frame f)

theorem step_realtime_gates {i : RtInput F} (h : World.step cfg w (.realtime i) = some w') :
    RealtimeGates w.shared w'.shared i := by
  obtain ⟨s, p, hs, rfl⟩ := World.step_realtime_eq h
  -- five steps are possible; the rest of the pairs do not occur
  cases hp : w.realtime <;> rw [hp] at hs <;> cases i <;>
    simp only [RealtimeReader.step] at hs <;> cases hs
  case starting.connect => exact .connect rfl rfl rfl
  case reading.frame f => exact .frame f rfl rfl rfl
  case reading.skip => exact .skip (.refl _)
  case reading.fail => exact .fail rfl rfl rfl
  case reconnecting.connect => exact .connect rfl rfl rfl
  case aborting.abort =>
    have hres := resolveGoal_gates w.shared false .safetyStop
    exact .abort ⟨hres.connected, hres.motionPaused, hres.safetyMode⟩

/-- The latch is the dashboard task's, but for the teardowns. -/
theorem step_motionPaused {a : Action F} (h : World.step cfg w a = some w')
    (hd : ∀ i, a ≠ .dashboard i) (ht : ∀ g, a ≠ .task g .teardown) :
    w'.shared.ds.motionPaused = w.shared.ds.motionPaused := by
  cases a with
  | realtime i =>
      cases step_realtime_gates h with
      | skip hsame | abort hsame => exact hsame.motionPaused
      | connect _ hm _ | fail _ hm _ | frame _ _ hm _ => exact hm
  | dashboard i => exact absurd rfl (hd i)
  | _ => exact (step_gates h nofun nofun ht).motionPaused

/-! ## The dashboard task -/

/-- A step of the dashboard task is one of its phase. -/
theorem step_dashboard_phase {i : DashInput} (h : World.step cfg w (.dashboard i) = some w') :
    DashPhase.step w.shared.ds w.dashboard i = some (w'.shared.ds, w'.dashboard)
      ∧ w'.task = w.task ∧ w'.goals = w.goals := by
  obtain ⟨s, ds, p, -, hp, rfl⟩ := World.step_dashboard_eq h
  exact ⟨hp, rfl, rfl⟩

/-- The dashboard task has no hand in the connection and the safety mode. -/
theorem step_dashboard_gates {i : DashInput} (h : World.step cfg w (.dashboard i) = some w') :
    w'.shared.ds.connected = w.shared.ds.connected
      ∧ w'.shared.ds.safetyMode = w.shared.ds.safetyMode := by
  cases World.step_dashboard h with
  | other i ds p hf =>
      obtain ⟨_, _, _, _, _, _, _, rfl⟩ := hf.writes
      exact ⟨rfl, rfl⟩
  | _ => exact ⟨rfl, rfl⟩

/-- `motion_paused` is set by this step. -/
def latches : DashPhase → DashInput → Bool
  | .latching _ _, .lock _ => true
  | _, _ => false

/-- What the dashboard task does to the latch. -/
inductive LatchStep (ds : DriverState F) (p : DashPhase) (i : DashInput) (ds' : DriverState F) :
    Prop
  | same : latches p i = false → ds'.motionPaused = ds.motionPaused → LatchStep ds p i ds'
  | set : latches p i = true → ds'.motionPaused = true → LatchStep ds p i ds'
  | clear : latches p i = false → ds'.motionPaused = false → LatchStep ds p i ds'

theorem dashPhase_latch {ds ds' : DriverState F} {p p' : DashPhase} {i : DashInput}
    (h : DashPhase.step ds p i = some (ds', p')) : LatchStep ds p i ds' := by
  unfold DashPhase.step at h
  split at h
  case h_11 r last late => cases h; exact .set rfl rfl
  case h_12 => cases h; exact .clear rfl rfl
  all_goals first
    | (cases h; exact .same rfl rfl)
    | (split at h <;> first
        | (cases h; exact .same rfl rfl)
        | (split at h <;> (cases h; exact .same rfl rfl)))
    | cases h

end UrRedisDriver.Proof
