import UrRedisDriver.Interfaces.StatePublisher
import UrRedisDriver.Lib.Lts

/-!
# What is stored against what was measured

The publisher writes what is news, and news is what differs from what it last handed over.
As long as whatever it hands over is stored, the store holds the last news and the snapshot
agrees with that. A write that is lost is taken for stored: the store then lags behind until
something else is news.
-/

namespace UrRedisDriver.Proof

noncomputable section

/-! ## The store -/

/-- The values Redis holds, by their keys. Transforms are kept apart from them. -/
abbrev Redis := String → Option (SPValue ℝ)

/-- The entries are set one after the other. -/
def setEntries (redis : Redis) (entries : List (String × SPValue ℝ)) : Redis :=
  entries.foldl (fun r e => Function.update r e.1 (some e.2)) redis

/-- What a write that arrives does. -/
def applyWrite (redis : Redis) : Write ℝ → Redis
  | .state entries => setEntries redis entries
  | .value key v => Function.update redis key (some v)
  | .transforms _ => redis

theorem setEntries_of_not_mem {entries : List (String × SPValue ℝ)} {key : String} (redis : Redis)
    (h : key ∉ entries.map Prod.fst) : setEntries redis entries key = redis key := by
  induction entries generalizing redis with
  | nil => rfl
  | cons e entries ih =>
      rw [List.map_cons, List.mem_cons, not_or] at h
      have hstep : setEntries redis (e :: entries) key
          = setEntries (Function.update redis e.1 (some e.2)) entries key := rfl
      rw [hstep, ih _ h.2, Function.update_of_ne h.1]

/-- Under distinct keys, every entry is there afterwards. -/
theorem setEntries_of_mem {entries : List (String × SPValue ℝ)} (redis : Redis)
    (hn : (entries.map Prod.fst).Nodup) {e : String × SPValue ℝ} (he : e ∈ entries) :
    setEntries redis entries e.1 = some e.2 := by
  induction entries generalizing redis with
  | nil => cases he
  | cons a entries ih =>
      rw [List.map_cons, List.nodup_cons] at hn
      have hstep : setEntries redis (a :: entries)
          = setEntries (Function.update redis a.1 (some a.2)) entries := rfl
      rw [hstep]
      obtain rfl | he := List.mem_cons.mp he
      · -- no later entry has this key, so what is written first stays
        rw [setEntries_of_not_mem _ hn.1, Function.update_self]
      · exact ih _ hn.2 he

/-! ## The keys -/

/-- What stands behind the name of the robot in the keys of the measured state. -/
def measuredSuffixes : List String :=
  ["safety_mode", "robot_mode", "program_state", "program_running", "tcp_pose", "tcp_force",
    "force_feedback", "speed_scaling", "digital_inputs", "digital_outputs", "robot_connected",
    "dashboard_connected", "remote_control", "operational_mode", "motion_paused", "robot_model",
    "serial_number", "polyscope_version"]

def stateKey (robotId suffix : String) : String := s!"{robotId}_{suffix}"

theorem stateKey_injective (robotId : String) : Function.Injective (stateKey robotId) := by
  intro s t h
  have hl := congrArg String.toList h
  have hst : (toString s).toList = (toString t).toList := by
    simpa [stateKey, String.toList_append] using hl
  exact String.toList_injective hst

theorem jointKey_eq (robotId : String) :
    s!"{robotId}_joint_states" = stateKey robotId "joint_states" := by
  rw [← String.toList_inj]
  simp only [stateKey, String.toList_append]
  rw [List.append_assoc]
  rfl

/-- The entries of the measured state. -/
def entriesOf (robotId : String) (m : MeasuredState ℝ) : List (String × SPValue ℝ) :=
  match publishMeasuredState .real robotId m with
  | .state entries => entries
  | _ => []

theorem publishMeasuredState_eq (robotId : String) (m : MeasuredState ℝ) :
    publishMeasuredState .real robotId m = .state (entriesOf robotId m) := rfl

theorem keys_entriesOf (robotId : String) (m : MeasuredState ℝ) :
    (entriesOf robotId m).map Prod.fst = measuredSuffixes.map (stateKey robotId) := rfl

theorem nodup_keys (robotId : String) (m : MeasuredState ℝ) :
    ((entriesOf robotId m).map Prod.fst).Nodup := by
  rw [keys_entriesOf]
  exact List.Nodup.map (stateKey_injective robotId) (by decide)

/-- The joints have a key of their own. -/
theorem jointKey_not_mem (robotId : String) (m : MeasuredState ℝ) :
    stateKey robotId "joint_states" ∉ (entriesOf robotId m).map Prod.fst := by
  rw [keys_entriesOf]
  intro h
  obtain ⟨suffix, hs, he⟩ := List.mem_map.mp h
  rw [stateKey_injective robotId he] at hs
  revert hs
  decide

/-! ## Agreement -/

/-- The measured state is what the store holds. -/
def Stored (redis : Redis) (robotId : String) (m : MeasuredState ℝ) : Prop :=
  ∀ e ∈ entriesOf robotId m, redis e.1 = some e.2

/-- Readings as many as the others, and each of them within `eps`. -/
def Near (eps : ℝ) (l l' : List ℝ) : Prop := List.Forall₂ (fun a b => |a - b| ≤ eps) l l'

/-- What is stored agrees with what is measured: the discrete fields exactly. -/
structure Agrees (stored current : MeasuredState ℝ) : Prop where
  safetyMode : stored.safetyMode = current.safetyMode
  robotMode : stored.robotMode = current.robotMode
  programState : stored.programState = current.programState
  programRunning : stored.programRunning = current.programRunning
  digitalInputs : stored.digitalInputs = current.digitalInputs
  digitalOutputs : stored.digitalOutputs = current.digitalOutputs
  robotConnected : stored.robotConnected = current.robotConnected
  dashboardConnected : stored.dashboardConnected = current.dashboardConnected
  remoteControl : stored.remoteControl = current.remoteControl
  operationalMode : stored.operationalMode = current.operationalMode
  motionPaused : stored.motionPaused = current.motionPaused
  identity : stored.identity = current.identity
  speedScaling : |current.speedScaling - stored.speedScaling| ≤ Numerics.real.epsilon
  forces : Near forceEpsilon current.forces stored.forces
  tcpPose : Near poseEpsilon current.tcpPose stored.tcpPose

theorem near_of_not_exceeds {eps : ℝ} {l l' : List ℝ} (h : exceeds l l' eps = false) :
    Near eps l l' := by
  unfold exceeds at h
  simp only [Bool.or_eq_false_iff, bne_eq_false_iff_eq] at h
  obtain ⟨hlen, hany⟩ := h
  refine List.forall₂_iff_zip.mpr ⟨hlen, ?_⟩
  intro a b hab
  have := List.any_eq_false.mp hany (a, b) hab
  simpa using this

theorem near_refl {eps : ℝ} (h : 0 ≤ eps) (l : List ℝ) : Near eps l l := by
  refine List.forall₂_same.mpr fun x _ => ?_
  rw [sub_self, abs_zero]
  exact h

theorem realEpsilon_nonneg : 0 ≤ Numerics.real.epsilon := by
  show (0 : ℝ) ≤ 1 / 2 ^ 52
  positivity

theorem forceEpsilon_nonneg : (0 : ℝ) ≤ forceEpsilon := by
  unfold forceEpsilon
  norm_num

theorem poseEpsilon_nonneg : (0 : ℝ) ≤ poseEpsilon := by
  unfold poseEpsilon
  norm_num

theorem agrees_refl (m : MeasuredState ℝ) : Agrees m m where
  safetyMode := rfl
  robotMode := rfl
  programState := rfl
  programRunning := rfl
  digitalInputs := rfl
  digitalOutputs := rfl
  robotConnected := rfl
  dashboardConnected := rfl
  remoteControl := rfl
  operationalMode := rfl
  motionPaused := rfl
  identity := rfl
  speedScaling := by
    rw [sub_self, abs_zero]
    exact realEpsilon_nonneg
  forces := near_refl forceEpsilon_nonneg _
  tcpPose := near_refl poseEpsilon_nonneg _

/-- What is not news agrees with what was handed over. -/
theorem agrees_of_no_news {m current : MeasuredState ℝ}
    (h : current.differsFrom .real (some m) = false) : Agrees m current := by
  -- no news means that each of the fifteen comparisons has come out equal or near
  unfold MeasuredState.differsFrom at h
  simp only [Bool.or_eq_false_iff, bne_eq_false_iff_eq, decide_eq_false_iff_not, not_lt] at h
  obtain ⟨⟨⟨⟨⟨⟨⟨⟨⟨⟨⟨⟨⟨⟨h1, h2⟩, h3⟩, h4⟩, h5⟩, h6⟩, h7⟩, h8⟩, h9⟩, h10⟩, h11⟩, h12⟩, h13⟩,
    h14⟩, h15⟩ := h
  exact {
    safetyMode := h1.symm
    robotMode := h2.symm
    programState := h3.symm
    programRunning := h4.symm
    digitalInputs := h5.symm
    digitalOutputs := h6.symm
    robotConnected := h7.symm
    dashboardConnected := h8.symm
    remoteControl := h9.symm
    operationalMode := h10.symm
    motionPaused := h11.symm
    identity := h12.symm
    speedScaling := h13
    forces := near_of_not_exceeds h14
    tcpPose := near_of_not_exceeds h15 }

/-- A snapshot is no news against itself. -/
theorem no_news_of_same (m : MeasuredState ℝ) : m.differsFrom .real (some m) = false := by
  -- a list is near itself whatever the tolerance
  have hnear : ∀ (l : List ℝ) (eps : ℝ), 0 ≤ eps → exceeds l l eps = false := by
    intro l eps heps
    unfold exceeds
    simp only [bne_self_eq_false, Bool.false_or, List.any_eq_false, decide_eq_true_eq, not_lt]
    intro ab hab
    exact List.forall₂_zip (near_refl heps l) hab
  unfold MeasuredState.differsFrom
  dsimp only
  rw [hnear _ _ forceEpsilon_nonneg, hnear _ _ poseEpsilon_nonneg]
  simp [realEpsilon_nonneg]

/-- The store holds what the snapshot says. -/
structure IsCurrent (redis : Redis) (robotId : String) (ds : DriverState ℝ) : Prop where
  measured : ∃ m, Stored redis robotId m ∧ Agrees m (.ofDriver ds)
  joints : redis (stateKey robotId "joint_states") = some (.ofNumbers ds.jointValues)

/-! ## Runs of the publisher -/

/-- One tick: the snapshot it sees, the clock, and which of its writes reach the store. -/
structure PublisherTick (N : Type) where
  ds : DriverState ℝ
  now : N → Nat
  reaches : Write ℝ → Bool

/-- Redis is reachable: no write is lost. -/
def PublisherTick.Reachable {N : Type} (t : PublisherTick N) : Prop := ∀ w, t.reaches w = true

/-- The publisher, and what has reached the store. -/
structure PublisherWorld (C : Type) where
  publisher : Publisher ℝ C
  redis : Redis

section Runs

variable {N C : Type} (env : PublisherEnv ℝ Pose N C) (T : RobotTransforms ℝ)

/-- A tick of the publisher, of whose writes some may be lost. Nothing tells it which. -/
def publishTick (w : PublisherWorld C) (t : PublisherTick N) : Option (PublisherWorld C) :=
  let r := w.publisher.tick env T t.now t.ds
  some ⟨r.1, (r.2.filter t.reaches).foldl applyWrite w.redis⟩

/-- No news is lost: what differs from what was last handed over reaches the store. -/
structure NoNewsLost (w : PublisherWorld C) (t : PublisherTick N) : Prop where
  measured : (MeasuredState.ofDriver t.ds).differsFrom env.num w.publisher.lastMeasured = true →
    t.reaches (publishMeasuredState env.num env.robotParams.name (.ofDriver t.ds)) = true
  joints : w.publisher.lastPublishedJoints ≠ some t.ds.jointValues →
    t.reaches (publishJointStates env.robotParams.name t.ds.jointValues) = true

/-- What was last handed over is what is stored. -/
structure Synced (w : PublisherWorld C) : Prop where
  measured : ∀ m, w.publisher.lastMeasured = some m → Stored w.redis env.robotParams.name m
  joints : ∀ q, w.publisher.lastPublishedJoints = some q →
    w.redis (stateKey env.robotParams.name "joint_states") = some (.ofNumbers q)

/-- What the transforms do to the values: nothing. -/
theorem foldl_transforms {ws : List (Write ℝ)} (h : ∀ w ∈ ws, ∃ ts, w = .transforms ts)
    (redis : Redis) : ws.foldl applyWrite redis = redis := by
  induction ws with
  | nil => rfl
  | cons w ws ih =>
      obtain ⟨ts, rfl⟩ := h w (by simp)
      exact ih fun w hw => h w (List.mem_cons_of_mem _ hw)

theorem publishRobotTransforms_writes (now : N → Nat) (c : C) (joints : List ℝ) :
    ∀ w ∈ (publishRobotTransforms env T now c joints).2, ∃ ts, w = .transforms ts := by
  intro w hw
  unfold publishRobotTransforms at hw
  -- without a chain, or with joints that it refuses, nothing is written
  split at hw
  · cases hw
  · dsimp only at hw
    split at hw
    · cases hw
    · rw [List.mem_singleton] at hw
      exact ⟨_, hw⟩

variable {env T}

/-- The measured state, once its part of the tick is over. -/
theorem tickMeasured_stored {w : PublisherWorld C} {t : PublisherTick N}
    (hnum : env.num = .real) (h : Synced env w) (hn : NoNewsLost env w t) :
    ∃ m, (tickMeasured env w.publisher t.ds).1 = { w.publisher with lastMeasured := some m }
      ∧ Agrees m (.ofDriver t.ds)
      ∧ Stored (((tickMeasured env w.publisher t.ds).2.filter t.reaches).foldl applyWrite w.redis)
          env.robotParams.name m
      ∧ ((tickMeasured env w.publisher t.ds).2.filter t.reaches).foldl applyWrite w.redis
          (stateKey env.robotParams.name "joint_states")
        = w.redis (stateKey env.robotParams.name "joint_states") := by
  have hnews := hn.measured
  unfold tickMeasured
  dsimp only
  split
  · -- news, and it arrives
    rename_i hd
    have hr := hnews hd
    rw [hnum] at hr ⊢
    rw [List.filter_cons_of_pos hr, List.filter_nil, publishMeasuredState_eq]
    refine ⟨.ofDriver t.ds, rfl, agrees_refl _, ?_, ?_⟩
    · intro e he
      exact setEntries_of_mem _ (nodup_keys _ _) he
    · exact setEntries_of_not_mem _ (jointKey_not_mem _ _)
  · -- no news: what was handed over before is stored, and agrees with the snapshot
    rename_i hd
    rw [hnum, Bool.not_eq_true] at hd
    cases hm : w.publisher.lastMeasured with
    | none =>
        -- the first snapshot is always news
        rw [hm] at hd
        cases hd
    | some m =>
        rw [hm] at hd
        refine ⟨m, ?_, agrees_of_no_news hd, h.measured m hm, rfl⟩
        rw [← hm]

/-- The joints, once theirs is. -/
theorem tickJoints_stored {p : Publisher ℝ C} {t : PublisherTick N} {redis : Redis}
    (h : ∀ q, p.lastPublishedJoints = some q →
      redis (stateKey env.robotParams.name "joint_states") = some (.ofNumbers q))
    (hn : p.lastPublishedJoints ≠ some t.ds.jointValues →
      t.reaches (publishJointStates env.robotParams.name t.ds.jointValues) = true) :
    let r := tickJoints env T t.now p t.ds.jointValues
    r.1.lastMeasured = p.lastMeasured ∧ r.1.lastPublishedJoints = some t.ds.jointValues
      ∧ (r.2.filter t.reaches).foldl applyWrite redis
        = Function.update redis (stateKey env.robotParams.name "joint_states")
          (some (.ofNumbers t.ds.jointValues)) := by
  unfold tickJoints
  split
  · -- the joints are those that are stored, so storing them again would change nothing
    rename_i hlast
    refine ⟨rfl, hlast, ?_⟩
    rw [← h _ hlast, Function.update_eq_self]
    rfl
  · rename_i hlast
    refine ⟨rfl, rfl, ?_⟩
    dsimp only
    have hj : applyWrite redis (publishJointStates env.robotParams.name t.ds.jointValues)
        = Function.update redis (stateKey env.robotParams.name "joint_states")
          (some (.ofNumbers t.ds.jointValues)) := by
      rw [← jointKey_eq]
      rfl
    rw [List.filter_cons_of_pos (hn hlast), List.foldl_cons, hj]
    refine foldl_transforms ?_ _
    intro w hw
    exact publishRobotTransforms_writes env T _ _ _ w (List.mem_filter.mp hw).1

/-- A tick that loses no news leaves the store fresh, and what is handed over stored. -/
theorem publish_fresh {w w' : PublisherWorld C} {t : PublisherTick N} (hnum : env.num = .real)
    (h : Synced env w) (hn : NoNewsLost env w t) (hs : publishTick env T w t = some w') :
    Synced env w' ∧ IsCurrent w'.redis env.robotParams.name t.ds := by
  obtain ⟨m, hp, hagrees, hstored, hkey⟩ := tickMeasured_stored hnum h hn
  have hjoints : ∀ q, (tickMeasured env w.publisher t.ds).1.lastPublishedJoints = some q →
      ((tickMeasured env w.publisher t.ds).2.filter t.reaches).foldl applyWrite w.redis
        (stateKey env.robotParams.name "joint_states") = some (.ofNumbers q) := by
    intro q hq
    rw [hp] at hq
    rw [hkey]
    exact h.joints q hq
  obtain ⟨hlast, hpub, hredis⟩ := tickJoints_stored (T := T) (t := t) hjoints
    (by rw [hp]; exact hn.joints)
  have hw' : w'.publisher = (tickJoints env T t.now (tickMeasured env w.publisher t.ds).1
      t.ds.jointValues).1 := by
    rw [← Option.some.inj hs]
    rfl
  have hr : w'.redis = Function.update
      (((tickMeasured env w.publisher t.ds).2.filter t.reaches).foldl applyWrite w.redis)
      (stateKey env.robotParams.name "joint_states") (some (.ofNumbers t.ds.jointValues)) := by
    rw [← hredis, ← List.foldl_append, ← List.filter_append, ← Option.some.inj hs]
    rfl
  -- the joints have a key of their own, so their write leaves the measured state alone
  have hm : Stored w'.redis env.robotParams.name m := by
    intro e he
    have hne : e.1 ≠ stateKey env.robotParams.name "joint_states" := by
      intro heq
      exact jointKey_not_mem env.robotParams.name m (heq ▸ List.mem_map_of_mem he)
    rw [hr, Function.update_of_ne hne]
    exact hstored e he
  have hq : w'.redis (stateKey env.robotParams.name "joint_states")
      = some (.ofNumbers t.ds.jointValues) := by
    rw [hr, Function.update_self]
  refine ⟨⟨?_, ?_⟩, ⟨m, hm, hagrees⟩, hq⟩
  · intro m' hm'
    rw [hw', hlast, hp] at hm'
    rw [← Option.some.inj hm']
    exact hm
  · intro q hq'
    rw [hw', hpub] at hq'
    rw [← Option.some.inj hq']
    exact hq

/-- Redis being reachable, nothing is lost. -/
theorem PublisherTick.Reachable.noNewsLost {t : PublisherTick N} (h : t.Reachable)
    (w : PublisherWorld C) : NoNewsLost env w t :=
  ⟨fun _ => h _, fun _ => h _⟩

/-- A publisher that has just started, over whatever is stored. -/
def PublisherWorld.start (c : C) (redis : Redis) : PublisherWorld C := ⟨.start c, redis⟩

/-- In a run that loses no news, what is stored is what was last handed over. -/
theorem synced_of_reachable {c : C} {redis : Redis} {w : PublisherWorld C}
    (hnum : env.num = .real)
    (h : Lts.ReachableBy (publishTick env T) (NoNewsLost env) (.start c redis) w) :
    Synced env w := by
  refine h.invariant ?_ ?_
  · -- at the start nothing has been published
    refine ⟨?_, ?_⟩
    · intro m hm
      cases hm
    · intro q hq
      cases hq
  · -- one tick, with the news written if there was any
    intro w t w' _ hw hn hs
    exact (publish_fresh hnum hw hn hs).1

end Runs

/--
In every run none of whose ticks loses news, every tick leaves the store fresh: those at which
Redis is reachable, and those at which it is not and there was nothing new to store.
-/
theorem published_stays_fresh {N C : Type} (params : URDFParameters) (chain : Chain ℝ Pose N C)
    (default : SPTransform ℝ) (T : RobotTransforms ℝ) (c : C) (redis : Redis)
    {w w' : PublisherWorld C} {t : PublisherTick N}
    (h : Lts.ReachableBy (publishTick (.real params chain default) T)
      (NoNewsLost (.real params chain default)) (.start c redis) w)
    (ht : t.Reachable ∨ NoNewsLost (.real params chain default) w t)
    (hs : publishTick (.real params chain default) T w t = some w') :
    IsCurrent w'.redis params.name t.ds := by
  have hn : NoNewsLost (.real params chain default) w t :=
    ht.elim (fun hr => hr.noNewsLost w) id
  exact (publish_fresh rfl (synced_of_reachable rfl h) hn hs).2

/-! ## A chain without links -/

namespace Scenario

/-- No link, and no joint that would be refused. -/
def noChain : Chain ℝ Pose Unit Unit where
  nodes := []
  joint _ := ""
  link _ := none
  parent _ := none
  setJointPositions c _ := (c, .ok ())
  updateLinkTransforms c := c
  worldTransform _ _ := none

def onlyArm : URDFParameters := ⟨"r1", ""⟩

/-- A tick, of whose writes all reach the store or none does. -/
def tickOn (ds : DriverState ℝ) (reaches : Bool) : PublisherTick Unit :=
  ⟨ds, fun _ => 0, fun _ => reaches⟩

def linkless : PublisherEnv ℝ Pose Unit Unit := .real onlyArm noChain ⟨⟨0, 0, 0⟩, ⟨0, 0, 0, 1⟩⟩

/-- An empty store. -/
def noneStored : PublisherWorld Unit := .start () fun _ => none

/-- The world after a tick. -/
def afterTick (w : PublisherWorld Unit) (t : PublisherTick Unit) : PublisherWorld Unit :=
  let r := w.publisher.tick linkless (fun _ => none) t.now t.ds
  ⟨r.1, (r.2.filter t.reaches).foldl applyWrite w.redis⟩

theorem publishTick_afterTick (w : PublisherWorld Unit) (t : PublisherTick Unit) :
    publishTick linkless (fun _ => none) w t = some (afterTick w t) := rfl

/-- An arm at work, pushing against something. -/
def working : DriverState ℝ :=
  { DriverState.new with
    connected := true
    safetyMode := 1
    robotMode := 7
    programState := "PLAYING"
    programRunning := true
    jointValues := [0, -1, 1, 0, 0, 0]
    tcpPose := [0.5, 0.2, 0.3, 0, 0, 0]
    speedScaling := 1
    forces := [9.5, 0, -5.5, 0, 0, 0] }

/-- The same, with the noise of the sensors. -/
def noisy : DriverState ℝ :=
  { working with
    tcpPose := [0.50005, 0.2, 0.29995, 0, 0, 0]
    forces := [9.7, 0.1, -5.7, 0, 0, 0] }

/-- Stopped a little further. -/
def stoppedElsewhere : DriverState ℝ :=
  { noisy with
    programState := "STOPPED"
    programRunning := false
    jointValues := [0.5, -1, 1, 0, 0, 0] }

theorem noisy_no_news :
    (MeasuredState.ofDriver noisy).differsFrom .real (some (.ofDriver working)) = false := by
  -- the drift of every number is within its tolerance
  have hforces : exceeds noisy.forces working.forces forceEpsilon = false := by
    norm_num [exceeds, noisy, working, forceEpsilon, abs_le]
  have hpose : exceeds noisy.tcpPose working.tcpPose poseEpsilon = false := by
    norm_num [exceeds, noisy, working, poseEpsilon, abs_le]
  have hscaling : |noisy.speedScaling - working.speedScaling| ≤ Numerics.real.epsilon := by
    rw [show noisy.speedScaling = working.speedScaling from rfl, sub_self, abs_zero]
    exact realEpsilon_nonneg
  unfold MeasuredState.differsFrom MeasuredState.ofDriver
  dsimp only
  rw [hforces, hpose]
  simp [noisy, realEpsilon_nonneg]

end Scenario

open Scenario

/--
An arm at work, a tick that Redis misses and that has nothing but noise to report, and the arm
stopped elsewhere.
-/
theorem noisy_run_fresh :
    let first := afterTick noneStored (tickOn working true)
    let second := afterTick first (tickOn noisy false)
    let third := afterTick second (tickOn stoppedElsewhere true)
    IsCurrent first.redis "r1" working ∧ IsCurrent second.redis "r1" noisy
      ∧ IsCurrent third.redis "r1" stoppedElsewhere := by
  intro first second third
  have hfirst : Lts.ReachableBy (publishTick linkless fun _ => none) (NoNewsLost linkless)
      noneStored first :=
    .tail .init (PublisherTick.Reachable.noNewsLost (fun _ => rfl) _) (publishTick_afterTick _ _)
  -- neither the noise nor the joints are news
  have hquiet : NoNewsLost linkless first (tickOn noisy false) := by
    refine ⟨?_, fun hj => absurd rfl hj⟩
    intro hnews
    rw [show first.publisher.lastMeasured = some (.ofDriver working) from rfl] at hnews
    exact absurd hnews (Bool.eq_false_iff.mp noisy_no_news)
  have hsecond : Lts.ReachableBy (publishTick linkless fun _ => none) (NoNewsLost linkless)
      noneStored second := .tail hfirst hquiet (publishTick_afterTick _ _)
  refine ⟨?_, ?_, ?_⟩
  · exact published_stays_fresh onlyArm noChain _ (fun _ => none) () (fun _ => none) .init
      (t := tickOn working true) (.inl fun _ => rfl) (publishTick_afterTick _ _)
  · exact published_stays_fresh onlyArm noChain _ (fun _ => none) () (fun _ => none) hfirst
      (t := tickOn noisy false) (.inr hquiet) (publishTick_afterTick _ _)
  · exact published_stays_fresh onlyArm noChain _ (fun _ => none) () (fun _ => none) hsecond
      (t := tickOn stoppedElsewhere true) (.inl fun _ => rfl) (publishTick_afterTick _ _)

/-- The first write is lost, and the next tick, Redis being back, has nothing new to say. -/
theorem lost_write_not_made_up : ¬ ∀ w w' : PublisherWorld Unit, ∀ t : PublisherTick Unit,
    Lts.Reachable (publishTick linkless fun _ => none) noneStored w →
    t.Reachable → publishTick linkless (fun _ => none) w t = some w' →
    IsCurrent w'.redis "r1" t.ds := by
  intro h
  let lost := afterTick noneStored (tickOn DriverState.new false)
  -- nothing has arrived, though everything was handed over
  have hredis : lost.redis = fun _ => none := by
    dsimp only [lost, afterTick]
    rw [List.filter_eq_nil_iff.mpr (by simp [tickOn])]
    rfl
  have hlast : lost.publisher.lastMeasured = some (.ofDriver DriverState.new) := rfl
  have hjoints : lost.publisher.lastPublishedJoints = some [] := rfl
  have hquiet : publishTick linkless (fun _ => none) lost (tickOn DriverState.new true)
      = some lost := by
    have hm : tickMeasured linkless lost.publisher DriverState.new
        = (lost.publisher, []) := by
      unfold tickMeasured
      dsimp only
      rw [hlast, if_neg]
      rw [Bool.not_eq_true]
      exact no_news_of_same _
    have hj : tickJoints linkless (fun _ => none) (fun _ => 0) lost.publisher []
        = (lost.publisher, []) := if_pos hjoints
    have ht : lost.publisher.tick linkless (fun _ => none) (fun _ => 0)
        DriverState.new = (lost.publisher, []) := by
      unfold Publisher.tick
      dsimp only
      rw [hm]
      exact congrArg (fun r => (r.1, [] ++ r.2)) hj
    unfold publishTick
    dsimp only [tickOn]
    rw [ht]
    rfl
  have hreached : Lts.Reachable (publishTick linkless fun _ => none) noneStored lost :=
    .tail .init trivial (publishTick_afterTick _ _)
  have hf := (h _ _ (tickOn DriverState.new true) hreached (fun _ => rfl) hquiet).joints
  rw [hredis] at hf
  cases hf

end

end UrRedisDriver.Proof
