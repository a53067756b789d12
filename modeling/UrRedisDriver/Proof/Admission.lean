import UrRedisDriver.Proof.Lifetime

/-!
# One goal at a time

`goal_id` is what the admission block looks at. It is set only once the goal's task has
connected to the realtime port, and a closed script socket or a safety stop clears it while
the goal is still live, so a goal can be there without the block seeing it. A run in which
no request passes the block in one of those two windows never has two live goals; one that
does has two at once.
-/

namespace UrRedisDriver.Proof

open UrRedisDriver

variable {F : Type} {cfg : Config F} {w w' : World F}

def AtMostOneLive (w : World F) : Prop := ∀ g g', Live w g → Live w g' → g = g'

/-- What a live goal leaves in `DriverState` for the admission block, or left there until
somebody else cleared it. -/
def Guarded (s : Shared F) : Prop :=
  s.ds.goalId.isSome = true ∨ s.ds.reissuing = true ∨ s.cleared = true

/--
A live goal the admission block cannot see: its first channels are not installed yet, or
`goal_id` was cleared by a closed script socket or a safety stop and has not been put up
again.
-/
def exposed (w : World F) : Bool :=
  (List.range w.goals).any fun g =>
    match w.task g with
    | some t => t.phase != .done && (!t.installed || w.shared.cleared)
    | none => false

/-- A request passes the admission block by this step. -/
def passes (w : World F) : Action F → Bool
  | .command (.admission _) => (CommandServer.rejection w.shared).isNone
  | _ => false

/-- The step is no request passing the admission block while a live goal is exposed. -/
def AdmitsCovered (w : World F) (a : Action F) : Prop := passes w a = true → exposed w = false

instance (w : World F) (a : Action F) : Decidable (AdmitsCovered w a) :=
  inferInstanceAs (Decidable (_ → _))

theorem exposed_of {g : Nat} {t : Task F} (hf : Fresh w) (ht : w.task g = some t)
    (hd : t.phase ≠ .done) (hi : t.installed = false ∨ w.shared.cleared = true) :
    exposed w = true := by
  have hg : g < w.goals := by
    by_contra hg
    rw [hf g (by omega)] at ht
    cases ht
  refine List.any_eq_true.mpr ⟨g, List.mem_range.mpr hg, ?_⟩
  rw [ht]
  rcases hi with hi | hi <;> simp [hd, hi]

/-! ## The guard stays up until a teardown -/

theorem SocketMove.guarded {s s' : Shared F} {p p' : SocketPhase}
    (h : SocketServer.Move s p s' p') (hg : Guarded s) : Guarded s' := by
  cases h with
  | ok c ch _ => obtain ⟨box, r, he⟩ := s.resolveGoal_eq true (.ok c.script); rw [he]; exact hg
  | error c ch _ =>
      obtain ⟨box, r, he⟩ := s.resolveGoal_eq false (.error c.script); rw [he]; exact hg
  | close => exact .inr (.inr rfl)
  | _ => exact hg

theorem RealtimeMove.guarded {s s' : Shared F} {p p' : RtPhase}
    (h : RealtimeReader.Move s p s' p') (hg : Guarded s) : Guarded s' := by
  cases h with
  | abort => exact .inr (.inr rfl)
  | _ => exact hg

/-- A goal's task puts the guard up by two of its steps and takes it down by one. -/
theorem effect_guarded {up : Bool} {s : Shared F} {g : Nat} {t : Task F} {i : TaskInput}
    (hi : i ≠ .teardown) (hg : Guarded s) : Guarded (World.effect cfg up s g t i) := by
  cases i with
  | install => exact .inl rfl
  | claim => exact .inr (.inl rfl)
  | teardown => exact absurd rfl hi
  | connect r => exact hg
  | write r => cases r <;> exact hg
  | feedback m => cases m <;> exact hg
  | sendStop r => cases r <;> exact hg
  | redis keys =>
      simp only [World.effect]
      split <;> exact hg
  | _ => exact hg

theorem guarded_step {a : Action F} (h : World.step cfg w a = some w')
    (ha : ∀ g, a ≠ .task g .teardown) (hg : Guarded w.shared) : Guarded w'.shared := by
  cases a with
  | client i | robot i | server i =>
      obtain ⟨_, _, _, _, _, _, _, rfl⟩ := World.step_outside h rfl
      exact hg
  | command i =>
      obtain ⟨_, _, _, _, _, _, _, _, _, _, rfl⟩ := World.step_command_frame h
      exact hg
  | task g i =>
      -- only a teardown takes both fields of the guard down
      obtain ⟨t, t', -, -, -, rfl⟩ := World.step_task h
      exact effect_guarded (by rintro rfl; exact ha g rfl) hg
  | socket i =>
      obtain ⟨s, p, hm, rfl⟩ := World.step_socket h
      exact SocketMove.guarded hm hg
  | realtime i =>
      obtain ⟨s, p, hm, rfl⟩ := World.step_realtime h
      exact RealtimeMove.guarded hm hg
  | dashboard i =>
      cases World.step_dashboard h with
      | other i ds p hf =>
          obtain ⟨_, _, _, _, _, _, _, rfl⟩ := hf.writes
          exact hg
      | _ => exact hg

/-! ## The invariant -/

structure Exclusive (w : World F) : Prop where
  one : AtMostOneLive w
  /-- A goal that got as far as its first channels is guarded. -/
  guarded : ∀ g t, w.task g = some t → t.phase ≠ .done → t.installed = true → Guarded w.shared

/-- A task has its channels installed by the step that installs them. -/
theorem Move.installed {t t' : Task F} {i : TaskInput} (h : Task.Move t i t')
    (hi : t'.installed = true) : t.installed = true ∨ i = .install := by
  cases h with
  | install => exact .inr rfl
  | _ => exact .inl hi

theorem rejection_none {s : Shared F} (h : CommandServer.rejection s = none) :
    s.ds.goalId.isSome = false ∧ s.ds.reissuing = false := by
  unfold CommandServer.rejection at h
  split at h
  · cases h
  split at h
  · cases h
  split at h
  · cases h
  split at h
  · cases h
  rename_i hg
  simpa using hg

/-- A request that passes the admission block under the condition finds no goal live. -/
theorem Exclusive.none_live {uuid : String} (hI : Exclusive w) (hf : Fresh w)
    (hok : AdmitsCovered w (.command (.admission uuid)))
    (hn : CommandServer.rejection w.shared = none) (g : Nat) : ¬ Live w g := by
  intro hl
  obtain ⟨t, ht, hd⟩ := live_iff.mp hl
  have hx : ¬ exposed w = true := by rw [hok (by rw [passes, hn]; rfl)]; exact nofun
  cases hi : t.installed with
  | false => exact hx (exposed_of hf ht hd (.inl hi))
  | true =>
      obtain ⟨hgoal, hre⟩ := rejection_none hn
      rcases hI.guarded g t ht hd hi with h | h | h
      · rw [hgoal] at h; cases h
      · rw [hre] at h; cases h
      · exact hx (exposed_of hf ht hd (.inr h))

theorem exclusive_step {a : Action F} (hI : Exclusive w) (hf : Fresh w) (hp : PendingAdmitted w)
    (hok : AdmitsCovered w a) (h : World.step cfg w a = some w') : Exclusive w' where
  one g g' hg hg' := by
    rcases live_step hp h hg with hl | ⟨uuid, rfl, hn, rfl⟩
    · rcases live_step hp h hg' with hl' | ⟨uuid, rfl, hn, rfl⟩
      · exact hI.one g g' hl hl'
      -- a goal that passes the block under the condition finds none live
      · exact absurd hl (hI.none_live hf hok hn g)
    · rcases live_step hp h hg' with hl' | ⟨-, -, -, rfl⟩
      · exact absurd hl' (hI.none_live hf hok hn g')
      · rfl
  guarded g t' ht' hd hi := by
    have hlive : Live w' g := live_iff.mpr ⟨t', ht', hd⟩
    -- a teardown belongs to the one goal that was live, so to no other
    have hkeep (hg : Guarded w.shared) (hl : Live w g) : Guarded w'.shared := by
      refine guarded_step h ?_ hg
      rintro g' rfl
      obtain ⟨u, u', hu, -, hm, rfl⟩ := World.step_task h
      have hgg : g = g' := hI.one g g' hl (live_iff.mpr ⟨u, hu, (Move.phase_ne hm).1⟩)
      subst hgg
      simp only [Function.update_self, Option.some.injEq] at ht'
      exact hd (ht' ▸ (Move.of_teardown hm).2)
    cases task_origin hp h ht' with
    | same ht => exact hkeep (hI.guarded g t' ht hd hi) (live_iff.mpr ⟨t', ht, hd⟩)
    | moved t i ha ht _ hm =>
        have hl : Live w g := live_iff.mpr ⟨t, ht, (Move.phase_ne hm).1⟩
        rcases Move.installed hm hi with hi | rfl
        · exact hkeep (hI.guarded g t ht (Move.phase_ne hm).1 hi) hl
        · subst ha
          obtain ⟨u, u', -, -, -, rfl⟩ := World.step_task h
          -- installing the channels is what guards the goal from here on
          exact .inl rfl
    | accepted command script uuid _ _ _ ht => rw [ht] at hi; cases hi
    | spawned t _ _ ht hta he =>
        have hta' : t.phase ≠ .done := by rw [hta]; exact nofun
        rw [he] at hi
        exact hkeep (hI.guarded g t ht hta' hi) (live_iff.mpr ⟨t, ht, hta'⟩)

/-- A request that passes the block while a live goal is exposed becomes a second live goal. -/
theorem admit_exposed {a : Action F} (hf : Fresh w) (hok : ¬ AdmitsCovered w a)
    (h : World.step cfg w a = some w') : ¬ AtMostOneLive w' := by
  obtain ⟨hpass, hx⟩ := Classical.not_imp.mp hok
  obtain ⟨g, hg, hgx⟩ := List.any_eq_true.mp (Bool.not_eq_false _ ▸ hx : exposed w = true)
  -- an exposed goal is a live one, and the step adds another
  have hlive : Live w g := by
    cases ht : w.task g with
    | none => rw [ht] at hgx; cases hgx
    | some t =>
        rw [ht] at hgx
        exact live_iff.mpr ⟨t, ht, by simpa using (Bool.and_eq_true_iff.mp hgx).1⟩
  intro hone
  cases a with
  | command i =>
      cases i with
      | admission uuid =>
          have hkeep : Live w' g := live_of_step hf h hlive (by simp)
          cases World.step_command h with
          | accept command script uuid hc hn =>
              have hsame : g = w.goals := hone g w.goals hkeep
                (live_iff.mpr ⟨Task.accepted uuid script command, by simp, by simp [Task.accepted]⟩)
              exact Nat.ne_of_lt (List.mem_range.mp hg) hsame
          | other i keys p _ _ hn => exact hn uuid rfl (Option.isNone_iff_eq_none.mp hpass)
      | _ => cases hpass
  | _ => cases hpass

section Reachable

variable [Zero F]

theorem exclusive_init : Exclusive (World.init (F := F)) where
  one _ _ h := absurd h (not_live_of_none rfl)
  guarded _ _ h := by cases h

theorem exclusive_reachable (h : Run cfg AdmitsCovered w) : Exclusive w :=
  h.invariant exclusive_init fun _ _ _ hr hI hok hs =>
    exclusive_step hI (fresh_reachable hr) (pendingAdmitted_reachable hr) hok hs

/--
**One goal at a time.** In every run in which no request passes the admission block while a
live goal is exposed, no two goals are ever live together; and the first step that does let
such a request pass makes two of them.
-/
theorem atMostOneLive_reachable (h : Run cfg AdmitsCovered w) :
    AtMostOneLive w ∧ ∀ a w', World.step cfg w a = some w' →
      (AtMostOneLive w' ↔ AdmitsCovered w a) := by
  refine ⟨(exclusive_reachable h).one, fun a w' hs => ⟨fun hone => ?_, fun hok => ?_⟩⟩
  · by_contra hok
    exact admit_exposed (fresh_reachable h) hok hs hone
  · exact (exclusive_reachable (.tail h hok hs)).one

end Reachable

/-! ## The two windows -/

namespace Scenario

/-- A joint move. -/
def move : RobotCommand Int where
  commandType := "unsafe_move_j"
  acceleration := 1
  velocity := 1
  globalAccelerationScaling := 1
  globalVelocityScaling := 1
  useExecutionTime := false
  executionTime := 0
  useBlendRadius := false
  blendRadius := 0
  useJointPositions := true
  jointPositions := [0, 0, 0, 0, 0, 0]
  usePreferredJointConfig := false
  preferredJointConfig := []
  usePayload := false
  payload := ""
  targetInBase := ""
  relativePose := []
  tcpInFaceplate := ""
  forceThreshold := 0
  reportWaypointProgress := false
  trajectoryId := ""
  waypoints := []

def program : String := "def script():\n  return True\nend"

def config : Config Int := ⟨fun _ => .ok program, "192.168.0.10", 50000⟩

/-- A frame in the given safety mode. -/
def frame (safetyMode : Int) : RtFrame Int where
  joints := []
  speeds := []
  tcpPose := []
  forces := []
  digitalInputs := 0
  digitalOutputs := 0
  robotMode := 7
  safetyMode := safetyMode
  speedScaling := 1
  programStateRaw := 0

/-- The robot connected and in normal mode, and the listener up. -/
def start : List (Action Int) :=
  [.realtime .connect, .realtime (.frame (frame 1)), .socket .address, .socket (.bind true)]

/-- A motion request, from the client's trigger to the admission block. -/
def ask (uuid : String) : List (Action Int) :=
  [.client (.requestState .initial), .client (.requestTrigger true), .command .tick,
    .command .redis, .command (.prepare (.ok (move, program))), .command (.admission uuid)]

/-- A motion request that is accepted, up to its task being spawned. -/
def request (uuid : String) : List (Action Int) :=
  ask uuid ++ [.command .redis, .command .store]

/-- A motion request that is turned away, up to that being published. -/
def rejected (uuid : String) : List (Action Int) :=
  ask uuid ++ List.replicate 5 (.command .redis)

/-- A goal's task from connecting to having written its script. -/
def launch (g : Nat) : List (Action Int) :=
  [.task g (.connect (.ok ())), .task g .install, .task g (.write (.ok ()))]

/-- A script's connection, from its opening to the handshake being waited on no more. -/
def shake (ch : Chan) (uuid : String) : List (Action Int) :=
  [.robot (.dial ch), .socket (.accept true), .socket (.greet true),
    .socket (.line (some uuid)), .task ch.goal (.handshake (.value true)), .socket .feedback]

/-- A client's cancel, up to `command_server` being about to pass it on. -/
def askCancel : List (Action Int) :=
  [.client (.requestCancel true), .command .tick, .command .redis]

/-- The Redis operations that publish a failure, found the keys as they are. -/
def fail (g : Nat) (reason : String) (keys : RequestKeys) : List (Action Int) :=
  let total := { keys with totalFailCounter := keys.totalFailCounter + 1 }
  let streak := { total with subsequentFailCounter := keys.subsequentFailCounter + 1 }
  let result := { streak with requestResult := reason }
  [keys, keys, total, streak, result].map fun k => .task g (.redis k)

/-- The Redis operations that publish a success. -/
def succeed (g : Nat) (keys : RequestKeys) : List (Action Int) :=
  let result := { keys with requestResult := "succeeded" }
  [keys, result, { result with requestState := .succeeded }].map fun k => .task g (.redis k)

/-- One round trip of the dashboard task, its deadline passed by the reply. -/
def trip (line : String) : List (Action Int) :=
  [.dashboard (.write (.ok ())), .dashboard (.reply (.ok line) true)]

/-- The dashboard socket coming up: the greeting and the three identity commands. -/
def dashboardUp : List (Action Int) :=
  [.dashboard .connect, .dashboard (.greet true)]
    ++ trip "UR10" ++ trip "2019300000" ++ trip "PolyScope 5.11.1" ++ [.dashboard (.lock false)]

/-- A client's dashboard request, up to its being queued. -/
def askDashboard (name arg : String) : List (Action Int) :=
  [.client (.dashboardRequest name arg), .client (.dashboardRequestState .initial),
    .client (.dashboardRequestTrigger true), .server .tick, .server .redis, .server .redis,
    .server .submit]

end Scenario

open Scenario

/-- Two requests while the first goal is still connecting: both are accepted. -/
theorem not_atMostOneLive :
    ¬ ∀ w : World Int, Lts.Reachable (World.step config) World.init w → AtMostOneLive w := by
  intro h
  have hrun : (Lts.run (World.step config) World.init
      (start ++ request "a" ++ request "b")).any (fun w => w.alive 0 && w.alive 1) = true := by
    decide
  obtain ⟨w, hw, hl⟩ := Lts.exists_of_run hrun
  obtain ⟨h0, h1⟩ := Bool.and_eq_true_iff.mp hl
  exact absurd (h w hw 0 1 h0 h1) (by decide)

/-- A second request that is turned away, and a third that is accepted once the first goal
has failed its handshake and is gone. -/
theorem atMostOneLive_trace : ∃ w : World Int, Run config AdmitsCovered w ∧ w.goals = 2
    ∧ Live w 1 ∧ AtMostOneLive w := by
  have hrun : (Lts.runBy (World.step config) AdmitsCovered World.init
      (start ++ request "a" ++ launch 0 ++ rejected "b" ++ [.task 0 (.handshake .timeout)]
        ++ fail 0 "the script never completed the handshake" {
          requestState := .failed, requestResult := "a goal is already running"
          totalFailCounter := 1, subsequentFailCounter := 1 }
        ++ [.task 0 .teardown] ++ request "c")).any
          (fun w => w.goals == 2 && w.alive 1) = true := by
    decide
  obtain ⟨w, hw, hp⟩ := Lts.exists_of_runBy hrun
  obtain ⟨hg, hl⟩ := Bool.and_eq_true_iff.mp hp
  exact ⟨w, hw, by simpa using hg, hl, (atMostOneLive_reachable hw).1⟩

end UrRedisDriver.Proof
