import UrRedisDriver.Lib.Tally
import UrRedisDriver.Proof.Release

/-!
# The failure counters

A request is failed by `command_server` or by the task of its goal, and each of them reads
the counters, writes both back and then publishes: between any two of these the other can do
the same, or a goal's success can reset the streak. Each counter is a tally of the calls, and
it is exact as long as no counter changes while somebody holds what it was.
-/

namespace UrRedisDriver.Proof

open UrRedisDriver

variable {F : Type} {cfg : Config F} {w w' : World F}

/-! ## Calls of `fail_request` -/

def Phase.failStep : Phase → Option FailStep
  | .failing step => some step
  | _ => none

def CommandPhase.failStep : CommandPhase F → Option FailStep
  | .failing _ step => some step
  | _ => none

/-- Where the call of a caller is: of `command_server`, or of the task of a goal. -/
def failStep (w : World F) : Option Nat → Option FailStep
  | none => CommandPhase.failStep w.command
  | some g => (w.task g).bind fun t => Phase.failStep t.phase

/-- Everybody who can be in a call. -/
def callers (w : World F) : List (Option Nat) := none :: (List.range w.goals).map some

/-- The call a step is an operation of. -/
def callOf (w : World F) : Action F → Option (Option Nat × FailStep)
  | .command .redis => (failStep w none).map fun step => (none, step)
  | .task g (.redis _) => (failStep w (some g)).map fun step => (some g, step)
  | _ => none

/-- The step resets the streak. -/
def resets (w : World F) : Action F → Bool
  | .task g (.redis _) => (w.task g).any fun t => t.phase == .publishCounter
  | _ => false

/-! ## The two counters -/

/-- A call, as far as the total is concerned. -/
def totalCall : Option FailStep → Tally.Call
  | some (.setTotal total _) => .holding total
  | some (.setSubsequent _) | some .publishResult | some .publishState => .written
  | some .read | none => .idle

/-- A call, as far as the streak is concerned. -/
def streakCall : Option FailStep → Tally.Call
  | some (.setTotal _ subsequent) | some (.setSubsequent subsequent) => .holding subsequent
  | some .publishResult | some .publishState => .written
  | some .read | none => .idle

/-- How many calls have been completed: since the start, and since the last success. -/
structure Failures where
  total : Nat := 0
  streak : Nat := 0

def noteFailures (w : World F) (a : Action F) (failures : Failures) : Failures :=
  if resets w a then { failures with streak := 0 }
  else match callOf w a with
    | some (_, .publishState) => ⟨failures.total + 1, failures.streak + 1⟩
    | _ => failures

/-- A counter, its callers as they look to it, and the calls it has to count. -/
def tally (view : Option FailStep → Tally.Call) (value : RequestKeys → Int)
    (completed : Failures → Nat) (x : World F × Failures) : Tally (Option Nat) where
  value := value x.1.shared.keys
  call := view ∘ failStep x.1
  completed := completed x.2

def totals (x : World F × Failures) : Tally (Option Nat) :=
  tally totalCall RequestKeys.totalFailCounter Failures.total x

def streaks (x : World F × Failures) : Tally (Option Nat) :=
  tally streakCall RequestKeys.subsequentFailCounter Failures.streak x

/-- Nobody else holds a value. -/
def onlyHolder (w : World F) (view : Option FailStep → Tally.Call) (p : Option Nat) : Bool :=
  (callers w).all fun q => q == p || match view (failStep w q) with
    | .holding _ => false
    | _ => true

/-- The step writes no counter that somebody else has read and not written back, and resets
no streak that a call is under way of. -/
def unraced (w : World F) (a : Action F) : Bool :=
  if resets w a then
    w.shared.keys.subsequentFailCounter == 0
      || (callers w).all fun q => streakCall (failStep w q) == .idle
  else match callOf w a with
    | some (p, .setTotal _ _) => onlyHolder w totalCall p
    | some (p, .setSubsequent _) => onlyHolder w streakCall p
    | _ => true

abbrev Unraced (w : World F) (a : Action F) : Prop := unraced w a = true

/-! ## What a step does to the calls -/

/-- Not in a call, or in one that has not read the counters. -/
def Unread (step : Option FailStep) : Prop := step = none ∨ step = some .read

/-- One step, by what it does to the counters and to the calls that move them. -/
inductive FailMove (w : World F) (a : Action F) (w' : World F) : Prop
  | call (p : Option Nat) (step : FailStep) (reason : String) : resets w a = false →
      callOf w a = some (p, step) → failStep w p = some step →
      w'.shared.keys = (failRequest reason w.shared.keys step).1 →
      failStep w' = Function.update (failStep w) p (failRequest reason w.shared.keys step).2 →
      FailMove w a w'
  | reset : resets w a = true →
      w'.shared.keys = { w.shared.keys with subsequentFailCounter := 0 } →
      failStep w' = failStep w → FailMove w a w'
  | other : resets w a = false → callOf w a = none →
      w'.shared.keys.totalFailCounter = w.shared.keys.totalFailCounter →
      w'.shared.keys.subsequentFailCounter = w.shared.keys.subsequentFailCounter →
      (∀ p, failStep w' p = failStep w p ∨ Unread (failStep w p) ∧ Unread (failStep w' p)) →
      FailMove w a w'

theorem step_redis_eq (render : RobotCommand F → Except String String) (t : Task F)
    (keys : RequestKeys) : t.step render (.redis keys) = (t.redisOp keys).map (·.2) := by
  unfold Task.step
  split <;> simp_all

/-- A Redis operation of a goal's task. -/
theorem step_task_redis {g : Nat} {keys : RequestKeys}
    (h : World.step cfg w (.task g (.redis keys)) = some w') :
    ∃ t keys' t', w.task g = some t ∧ t.redisOp w.shared.keys = some (keys', t')
      ∧ w' = { w with
          shared := { w.shared with keys := keys' }
          task := Function.update w.task g (some t') } := by
  obtain ⟨t, t', ht, hready, hs, rfl⟩ := World.step_task_eq h
  have hkeys : keys = w.shared.keys := of_decide_eq_true hready
  subst hkeys
  rw [step_redis_eq] at hs
  obtain ⟨⟨keys', t''⟩, hop, rfl⟩ := Option.map_eq_some_iff.mp hs
  refine ⟨t, keys', t'', ht, hop, ?_⟩
  unfold World.effect
  dsimp only
  rw [hop]

/-- Where a task is not at Redis it is in no call, and enters at most a new one. -/
theorem move_failStep {t t' : Task F} {i : TaskInput} (hm : Task.Move t i t')
    (hi : ∀ keys, i ≠ .redis keys) :
    Phase.failStep t.phase = none ∧ Unread (Phase.failStep t'.phase) := by
  cases hm with
  | hop i p hh =>
      generalize t.phase = q at hh
      cases hh <;> exact ⟨rfl, .inl rfl⟩
  | leave i e hl =>
      -- leaving goes to `publishResult`, or to the start of `fail_request`: nothing has been read
      -- yet
      have hin : Unread (Phase.failStep (t.leave e).phase) := by
        unfold Task.leave
        dsimp only
        split
        · exact .inl rfl
        · exact .inr rfl
      refine ⟨?_, hin⟩
      generalize t.phase = q at hl
      cases hl with
      | verdict p v hp => rcases hp with rfl | rfl | rfl <;> rfl
      | _ => rfl
  | install hp => rw [hp]; exact ⟨rfl, .inl rfl⟩
  | write hp => rw [hp]; exact ⟨rfl, .inl rfl⟩
  | handshake hp => rw [hp]; exact ⟨rfl, .inl rfl⟩
  | feedback m hp ho =>
      have hnone : Phase.failStep t.phase = none := by rw [hp]; rfl
      exact ⟨hnone, .inl hnone⟩
  | stop id hp => rw [hp]; exact ⟨rfl, .inl rfl⟩
  | restop id hp => rw [hp]; exact ⟨rfl, .inl rfl⟩
  | measure n next hp => rw [hp]; exact ⟨rfl, .inl rfl⟩
  | activate remaining nextScript hp hn => rw [hp]; exact ⟨rfl, .inl rfl⟩
  | publish keys p written hp => exact absurd rfl (hi keys)

/-- What one operation of `command_server` does to the counters and to its own call. -/
theorem command_failStep {g : Nat} {s s' : Shared F} {p p' : CommandPhase F}
    {i : CommandInput F} (h : CommandServer.step g s p i = some (s', p')) :
    (∃ reason step, p = .failing reason step ∧ i = .redis
        ∧ s'.keys = (failRequest reason s.keys step).1
        ∧ CommandPhase.failStep p' = (failRequest reason s.keys step).2)
      ∨ CommandPhase.failStep p = none ∧ Unread (CommandPhase.failStep p')
        ∧ s'.keys.totalFailCounter = s.keys.totalFailCounter
        ∧ s'.keys.subsequentFailCounter = s.keys.subsequentFailCounter := by
  unfold CommandServer.step at h
  split at h
  · split at h
    · cases h
      exact .inr ⟨rfl, .inl rfl, rfl, rfl⟩
    · split at h <;> cases h <;> exact .inr ⟨rfl, .inl rfl, rfl, rfl⟩
  · cases h
    exact .inr ⟨rfl, .inl rfl, rfl, rfl⟩
  · cases h
    refine .inr ⟨rfl, .inl (by split <;> rfl), ?_, ?_⟩ <;>
      unfold CommandServer.deliverCancel <;> split <;> rfl
  · -- it turns the request away: the call of `fail_request` begins
    cases h
    exact .inr ⟨rfl, .inl (by split <;> rfl), rfl, rfl⟩
  · cases h
    exact .inr ⟨rfl, .inr rfl, rfl, rfl⟩
  · cases h
    exact .inr ⟨rfl, .inl rfl, rfl, rfl⟩
  · split at h
    · cases h
      exact .inr ⟨rfl, .inr rfl, rfl, rfl⟩
    · cases h
      exact .inr ⟨rfl, .inl rfl, rfl, rfl⟩
  · cases h
    exact .inr ⟨rfl, .inl rfl, rfl, rfl⟩
  · cases h
    exact .inr ⟨rfl, .inl rfl, rfl, rfl⟩
  · -- the one phase in which a call is under way
    rename_i reason step
    left
    split at h
    · rename_i keys step' hf
      cases h
      exact ⟨reason, step, rfl, rfl, by rw [hf], by rw [hf]; rfl⟩
    · rename_i keys hf
      cases h
      exact ⟨reason, step, rfl, rfl, by rw [hf], by rw [hf]; rfl⟩
  · cases h

/-- `dashboard_server` has keys of its own. -/
theorem server_counters {up : Bool} {s s' : Shared F} {p p' : ServerPhase} {i : ServerInput}
    (h : DashboardServer.step up s p i = some (s', p')) :
    s'.keys.totalFailCounter = s.keys.totalFailCounter
      ∧ s'.keys.subsequentFailCounter = s.keys.subsequentFailCounter := by
  unfold DashboardServer.step at h
  split at h
  · split at h <;> cases h <;> exact ⟨rfl, rfl⟩
  · cases h
    exact ⟨rfl, rfl⟩
  · cases h
    exact ⟨rfl, rfl⟩
  · split at h <;> cases h
    exact ⟨rfl, rfl⟩
  · split at h <;> cases h
    exact ⟨rfl, rfl⟩
  · split at h <;> cases h
    exact ⟨rfl, rfl⟩
  · cases h
    exact ⟨rfl, rfl⟩
  · cases h
    exact ⟨rfl, rfl⟩
  · cases h

theorem resolveGoal_keys (s : Shared F) (v : Bool) (by_ : Resolver) :
    (s.resolveGoal v by_).keys = s.keys := by
  obtain ⟨box, r, he⟩ := s.resolveGoal_eq v by_
  rw [he]

/-- Neither the client nor any other task has a hand in the counters. -/
theorem others_counters {a : Action F} (h : World.step cfg w a = some w')
    (hc : ∀ i, a ≠ .command i) (ht : ∀ g i, a ≠ .task g i) :
    w'.shared.keys.totalFailCounter = w.shared.keys.totalFailCounter
      ∧ w'.shared.keys.subsequentFailCounter = w.shared.keys.subsequentFailCounter := by
  cases a with
  | client i => rw [World.step_client h]; cases i <;> exact ⟨rfl, rfl⟩
  | robot i =>
      obtain ⟨s, hs, rfl⟩ := World.step_robot h
      obtain ⟨backlog, running, rfl⟩ := World.robotStep_frame hs
      exact ⟨rfl, rfl⟩
  | command i => exact absurd rfl (hc i)
  | task g i => exact absurd rfl (ht g i)
  | socket i =>
      obtain ⟨s, p, hm, rfl⟩ := World.step_socket h
      cases hm with
      | ok | error | close =>
          have hkeys := fun v r => resolveGoal_keys w.shared v r
          exact ⟨congrArg _ (hkeys _ _), congrArg _ (hkeys _ _)⟩
      | _ => exact ⟨rfl, rfl⟩
  | realtime i =>
      obtain ⟨s, p, hm, rfl⟩ := World.step_realtime h
      cases hm with
      | abort =>
          have hkeys := resolveGoal_keys w.shared false .safetyStop
          exact ⟨congrArg _ hkeys, congrArg _ hkeys⟩
      | _ => exact ⟨rfl, rfl⟩
  | dashboard i => cases World.step_dashboard h <;> exact ⟨rfl, rfl⟩
  | server i =>
      obtain ⟨s, p, hs, rfl⟩ := World.step_server_eq h
      exact server_counters hs

/-- The calls after a step of a goal's task. -/
theorem failStep_task {t : Task F} {g : Nat} (s : Shared F) (p : Option Nat) :
    failStep { w with shared := s, task := Function.update w.task g (some t) } p
      = if p = some g then Phase.failStep t.phase else failStep w p := by
  cases p with
  | none => rfl
  | some g' =>
      by_cases hg : g' = g
      · subst hg
        rw [if_pos rfl]
        show (Function.update w.task g' (some t) g').bind _ = _
        rw [Function.update_self]
        rfl
      · rw [if_neg fun he => hg (Option.some.inj he)]
        show (Function.update w.task g (some t) g').bind _ = _
        rw [Function.update_of_ne hg]
        rfl

/-- A Redis operation of a goal's task, on the counters. -/
theorem redis_failMove {g : Nat} {keys : RequestKeys}
    (h : World.step cfg w (.task g (.redis keys)) = some w') :
    FailMove w (.task g (.redis keys)) w' := by
  obtain ⟨t, keys', t', ht, hop, rfl⟩ := step_task_redis h
  have hat : failStep w (some g) = Phase.failStep t.phase := by
    show (w.task g).bind _ = _
    rw [ht]
    rfl
  have hresets : resets w (.task g (.redis keys)) = (t.phase == .publishCounter) := by
    show (w.task g).any _ = _
    rw [ht]
    rfl
  have hcall : callOf w (.task g (.redis keys))
      = (Phase.failStep t.phase).map fun step => (some g, step) := by
    rw [← hat]
    rfl
  cases hp : t.phase with
  | failing step =>
      -- the next operation of the call; every other caller is where it was
      rw [hp] at hat hresets hcall
      simp only [Task.redisOp, hp] at hop
      have hboth : keys' = (failRequest t.message w.shared.keys step).1
          ∧ Phase.failStep t'.phase = (failRequest t.message w.shared.keys step).2 := by
        split at hop
        · rename_i keys'' step' hf
          rw [hf]
          cases hop
          exact ⟨rfl, rfl⟩
        · rename_i keys'' hf
          rw [hf]
          cases hop
          exact ⟨rfl, rfl⟩
      refine .call (some g) step t.message hresets hcall hat hboth.1 ?_
      funext p
      rw [failStep_task]
      by_cases hpg : p = some g
      · rw [if_pos hpg, hpg, Function.update_self]
        exact hboth.2
      · rw [if_neg hpg, Function.update_of_ne hpg]
  | publishCounter =>
      -- the streak is reset by a goal that has succeeded, which is no call
      rw [hp] at hat hresets
      simp only [Task.redisOp, hp] at hop
      cases hop
      refine .reset hresets rfl ?_
      funext p
      rw [failStep_task]
      by_cases hpg : p = some g
      · rw [if_pos hpg, hpg, hat]
        rfl
      · rw [if_neg hpg]
  | publishResult | publishState =>
      rw [hp] at hat hresets hcall
      simp only [Task.redisOp, hp] at hop
      cases hop
      refine .other hresets hcall rfl rfl ?_
      intro p
      left
      rw [failStep_task]
      by_cases hpg : p = some g
      · rw [if_pos hpg, hpg, hat]
        rfl
      · rw [if_neg hpg]
  | _ => simp [Task.redisOp, hp] at hop

/-- What `command_server` does to the goals' tasks is to no task in a call. -/
theorem command_taskCalls {i : CommandInput F} (hf : Fresh w) (hp : PendingAdmitted w)
    (h : World.step cfg w (.command i) = some w') (g : Nat) :
    failStep w' (some g) = failStep w (some g) := by
  cases World.step_command h with
  | accept command script uuid hc hn =>
      have hnone := hf w.goals le_rfl
      show (Function.update w.task w.goals _ g).bind _ = (w.task g).bind _
      by_cases hg : g = w.goals
      · subst hg
        rw [Function.update_self, hnone]
        rfl
      · rw [Function.update_of_ne hg]
  | store g' command hc =>
      -- the goal it spawns was waiting as accepted, and is in no call either way
      obtain ⟨t, ht, hphase⟩ := hp g' (by rw [hc]; rfl)
      show (Function.update w.task g' _ g).bind _ = (w.task g).bind _
      by_cases hg : g = g'
      · subst hg
        rw [Function.update_self, ht]
        show _ = Phase.failStep t.phase
        rw [hphase]
        rfl
      · rw [Function.update_of_ne hg]
  | cancel => rfl
  | other => rfl

theorem command_failMove {i : CommandInput F} (hf : Fresh w) (hp : PendingAdmitted w)
    (h : World.step cfg w (.command i) = some w') : FailMove w (.command i) w' := by
  have htasks := command_taskCalls hf hp h
  obtain ⟨s, p, hs, hshared, hcommand⟩ := World.step_command_eq h
  have hserver : failStep w' none = CommandPhase.failStep p := by rw [failStep, hcommand]
  -- either `command_server` makes the next operation of a call of its own, or it is in none
  rcases command_failStep hs with ⟨reason, step, hphase, rfl, hkeys, hnext⟩ | ⟨hout, hin, hc⟩
  · have hat : failStep w none = some step := by
      rw [failStep, hphase]
      rfl
    have hcall : callOf w (.command .redis) = some (none, step) := by
      show (failStep w none).map _ = _
      rw [hat]
      rfl
    refine .call none step reason rfl hcall hat (by rw [hshared, hkeys]) ?_
    funext q
    cases q with
    | none => rw [Function.update_self, hserver, hnext]
    | some g => rw [Function.update_of_ne (by simp), htasks g]
  · have hat : failStep w none = none := hout
    have hcall : callOf w (.command i) = none := by
      cases i with
      | redis =>
          show (failStep w none).map _ = none
          rw [hat]
          rfl
      | _ => rfl
    refine .other rfl hcall (by rw [hshared, hc.1]) (by rw [hshared, hc.2]) ?_
    intro q
    cases q with
    | none => exact .inr ⟨.inl hat, hserver ▸ hin⟩
    | some g => exact .inl (htasks g)

theorem task_failMove {g : Nat} {i : TaskInput} (hi : ∀ keys, i ≠ .redis keys)
    (h : World.step cfg w (.task g i) = some w') : FailMove w (.task g i) w' := by
  obtain ⟨t, t', ht, -, hm, rfl⟩ := World.step_task h
  -- short of a Redis operation a task is in no call, and at most at the start of one afterwards
  obtain ⟨hout, hin⟩ := move_failStep hm hi
  have hat : failStep w (some g) = none := by
    show (w.task g).bind _ = none
    rw [ht]
    exact hout
  have hquiet : resets w (.task g i) = false ∧ callOf w (.task g i) = none := by
    cases i with
    | redis keys => exact absurd rfl (hi keys)
    | _ => exact ⟨rfl, rfl⟩
  have hkeys : (World.effect cfg w.dashboard.up w.shared g t i).keys.totalFailCounter
        = w.shared.keys.totalFailCounter
      ∧ (World.effect cfg w.dashboard.up w.shared g t i).keys.subsequentFailCounter
        = w.shared.keys.subsequentFailCounter := by
    cases i with
    | redis keys => exact absurd rfl (hi keys)
    | write r => cases r <;> exact ⟨rfl, rfl⟩
    | feedback m => cases m <;> exact ⟨rfl, rfl⟩
    | sendStop r => cases r <;> exact ⟨rfl, rfl⟩
    | _ => exact ⟨rfl, rfl⟩
  refine .other hquiet.1 hquiet.2 hkeys.1 hkeys.2 ?_
  intro p
  rw [failStep_task]
  by_cases hpg : p = some g
  · rw [if_pos hpg, hpg, hat]
    exact .inr ⟨.inl rfl, hin⟩
  · rw [if_neg hpg]
    exact .inl rfl

/-- **Every step is one of the moves.** -/
theorem fail_step {a : Action F} (hf : Fresh w) (hp : PendingAdmitted w)
    (h : World.step cfg w a = some w') : FailMove w a w' := by
  by_cases hc : ∃ i, a = .command i
  · obtain ⟨i, rfl⟩ := hc
    exact command_failMove hf hp h
  · -- nobody else calls `fail_request` or touches the counters
    by_cases ht : ∃ g i, a = .task g i
    · obtain ⟨g, i, rfl⟩ := ht
      by_cases hi : ∃ keys, i = .redis keys
      · obtain ⟨keys, rfl⟩ := hi
        exact redis_failMove h
      · exact task_failMove (fun keys he => hi ⟨keys, he⟩) h
    · have hc' : ∀ i, a ≠ .command i := fun i he => hc ⟨i, he⟩
      have ht' : ∀ g i, a ≠ .task g i := fun g i he => ht ⟨g, i, he⟩
      obtain ⟨htotal, hstreak⟩ := others_counters h hc' ht'
      obtain ⟨htask, -, hcommand⟩ := step_others h hc' ht'
      have hsame : failStep w' = failStep w := by
        funext p
        cases p with
        | none => rw [failStep, failStep, hcommand]
        | some g => rw [failStep, failStep, htask]
      have hquiet : resets w a = false ∧ callOf w a = none := by
        cases a with
        | command i => exact absurd rfl (hc' i)
        | task g i => exact absurd rfl (ht' g i)
        | _ => exact ⟨rfl, rfl⟩
      exact .other hquiet.1 hquiet.2 htotal hstreak fun p => .inl (by rw [hsame])

/-! ## Neither overflows -/

/-- What the caller of a call holds of the counters. -/
def heldBy : FailStep → List Int
  | .setTotal total subsequent => [total, subsequent]
  | .setSubsequent subsequent => [subsequent]
  | _ => []

theorem overflows_of_lt {step : FailStep} (h : ∀ v ∈ heldBy step, v < i64Max) :
    step.overflows = false := by
  cases step with
  | setTotal total subsequent =>
      exact decide_eq_false (not_le.mpr (h total (by simp [heldBy])))
  | setSubsequent subsequent =>
      exact decide_eq_false (not_le.mpr (h subsequent (by simp [heldBy])))
  | _ => rfl

/-- No counter, and nothing that is held of one, is above `n`. -/
structure CountedTo (n : Nat) (w : World F) : Prop where
  total : w.shared.keys.totalFailCounter ≤ n
  streak : w.shared.keys.subsequentFailCounter ≤ n
  held : ∀ p step, failStep w p = some step → ∀ v ∈ heldBy step, v ≤ n

/-- A step counts on by one at most. -/
theorem countedTo_step {a : Action F} {n : Nat} (hC : CountedTo n w) (hf : Fresh w)
    (hp : PendingAdmitted w) (h : World.step cfg w a = some w') : CountedTo (n + 1) w' := by
  have hup {v : Int} (hv : v ≤ n) : v ≤ ((n + 1 : Nat) : Int) := by push_cast; omega
  -- the calls but the one that moves, whatever that one is at
  have hcalls {p : Option Nat} {next : Option FailStep}
      (he : failStep w' = Function.update (failStep w) p next)
      (hnext : ∀ step, next = some step → ∀ v ∈ heldBy step, v ≤ ((n + 1 : Nat) : Int)) :
      ∀ q step, failStep w' q = some step → ∀ v ∈ heldBy step, v ≤ ((n + 1 : Nat) : Int) := by
    intro q step hq v hv
    rw [he] at hq
    by_cases hqp : q = p
    · rw [hqp, Function.update_self] at hq
      exact hnext step hq v hv
    · rw [Function.update_of_ne hqp] at hq
      exact hup (hC.held q step hq v hv)
  cases fail_step hf hp h with
  | call p step reason _ _ hat hkeys he =>
      have hheld := hC.held p step hat
      cases step with
      | read =>
          refine ⟨by rw [hkeys]; exact hup hC.total, by rw [hkeys]; exact hup hC.streak,
            hcalls he ?_⟩
          rintro step ⟨⟩ v hv
          rcases List.mem_pair.mp hv with rfl | rfl
          · exact hup hC.total
          · exact hup hC.streak
      | setTotal total subsequent =>
          refine ⟨?_, by rw [hkeys]; exact hup hC.streak, hcalls he ?_⟩
          · rw [hkeys]
            have := hheld total (by simp [heldBy])
            show total + 1 ≤ ((n + 1 : Nat) : Int)
            push_cast
            omega
          · rintro step ⟨⟩ v hv
            exact hup (hheld v (List.mem_cons_of_mem total hv))
      | setSubsequent subsequent =>
          refine ⟨by rw [hkeys]; exact hup hC.total, ?_, hcalls he ?_⟩
          · rw [hkeys]
            have := hheld subsequent (by simp [heldBy])
            show subsequent + 1 ≤ ((n + 1 : Nat) : Int)
            push_cast
            omega
          · rintro step ⟨⟩ v hv
            cases hv
      | publishResult =>
          refine ⟨by rw [hkeys]; exact hup hC.total, by rw [hkeys]; exact hup hC.streak,
            hcalls he ?_⟩
          rintro step ⟨⟩ v hv
          cases hv
      | publishState =>
          exact ⟨by rw [hkeys]; exact hup hC.total, by rw [hkeys]; exact hup hC.streak,
            hcalls he nofun⟩
  | reset _ hkeys he =>
      refine ⟨by rw [hkeys]; exact hup hC.total, ?_, ?_⟩
      · rw [hkeys]
        exact Int.natCast_nonneg _
      · rw [he]
        exact fun p step hat v hv => hup (hC.held p step hat v hv)
  | other _ _ htotal hstreak he =>
      refine ⟨by rw [htotal]; exact hup hC.total, by rw [hstreak]; exact hup hC.streak, ?_⟩
      intro p step hat v hv
      rcases he p with hsame | ⟨-, hnone | hread⟩
      · exact hup (hC.held p step (hsame ▸ hat) v hv)
      · rw [hnone] at hat
        cases hat
      · rw [hread] at hat
        cases hat
        cases hv

/-- **No counter overflows** in a run from start-up, short of as many steps as an `i64` has
values above zero. -/
theorem no_overflow [Zero F] {as : List (Action F)}
    (h : Lts.run (World.step cfg) World.init as = some w) (hlen : (as.length : Int) < i64Max)
    {p : Option Nat} {step : FailStep} (hat : failStep w p = some step) :
    step.overflows = false := by
  have hinit : CountedTo 0 (World.init : World F) :=
    ⟨le_rfl, le_rfl, fun p step hat => by cases p <;> cases hat⟩
  have hC : CountedTo as.length w := by
    refine Lts.run_induction (P := fun as w => CountedTo as.length w) hinit ?_ h
    intro as t a u hr hC hs
    have hrun : Run cfg (fun _ _ => True) t := Lts.reachable_of_run .init hr
    rw [List.length_append, List.length_singleton]
    exact countedTo_step hC (fresh_reachable hrun) (pendingAdmitted_reachable hrun) hs
  exact overflows_of_lt fun v hv => (hC.held p step hat v hv).trans_lt hlen

/-! ## Both are tallies -/

theorem totalCall_unread {step : Option FailStep} (h : Unread step) : totalCall step = .idle := by
  rcases h with rfl | rfl <;> rfl

theorem streakCall_unread {step : Option FailStep} (h : Unread step) : streakCall step = .idle := by
  rcases h with rfl | rfl <;> rfl

/-- Who is in no call can be left out when everybody is looked at. -/
theorem mem_callers (hf : Fresh w) {p : Option Nat} {step : FailStep}
    (h : failStep w p = some step) : p ∈ callers w := by
  cases p with
  | none => exact List.mem_cons_self
  | some g =>
      have hg : g < w.goals := by
        by_contra hge
        have hnone := hf g (by omega)
        have : (w.task g).bind _ = some step := h
        rw [hnone] at this
        cases this
      exact List.mem_cons_of_mem _ (List.mem_map.mpr ⟨g, List.mem_range.mpr hg, rfl⟩)

theorem onlyHolder_iff {view : Option FailStep → Tally.Call} (hview : view none = .idle)
    (hf : Fresh w) {p : Option Nat} (h : onlyHolder w view p = true) (q : Option Nat) (v : Int)
    (hq : view (failStep w q) = .holding v) : q = p := by
  cases hs : failStep w q with
  | none =>
      rw [hs, hview] at hq
      cases hq
  | some step =>
      have hone := List.all_eq_true.mp h q (mem_callers hf hs)
      rw [hq, Bool.or_false] at hone
      exact eq_of_beq hone

section Tallies

variable {view : Option FailStep → Tally.Call} {value : RequestKeys → Int}
  {completed : Failures → Nat} {x x' : World F × Failures} {a : Action F}

/-- A tally after one call has moved. -/
theorem tally_call {p : Option Nat} {next : Option FailStep} {n : Int} {m : Nat}
    (hcalls : failStep x'.1 = Function.update (failStep x.1) p next)
    (hvalue : value x'.1.shared.keys = n) (hcompleted : completed x'.2 = m) :
    tally view value completed x'
      = ⟨n, Function.update (tally view value completed x).call p (view next), m⟩ := by
  unfold tally
  rw [hcalls, Function.comp_update, hvalue, hcompleted]

/-- A tally no call of which looks different. -/
theorem tally_same (hcalls : ∀ p, view (failStep x'.1 p) = view (failStep x.1 p))
    (hvalue : value x'.1.shared.keys = value x.1.shared.keys)
    (hcompleted : completed x'.2 = completed x.2) :
    tally view value completed x' = tally view value completed x := by
  unfold tally
  rw [hvalue, hcompleted]
  congr 1
  funext p
  exact hcalls p

/-- A call that looks the same before and after its move. -/
theorem view_update {p q : Option Nat} {step : FailStep} {next : Option FailStep}
    (hat : failStep x.1 p = some step) (hview : view next = view (some step)) :
    view (Function.update (failStep x.1) p next q) = view (failStep x.1 q) := by
  by_cases hq : q = p
  · subst hq
    rw [Function.update_self, hview, hat]
  · rw [Function.update_of_ne hq]

/-- A step after which every call looks the same. -/
theorem move_same (hcalls : ∀ p, view (failStep x'.1 p) = view (failStep x.1 p))
    (hvalue : value x'.1.shared.keys = value x.1.shared.keys)
    (hcompleted : completed x'.2 = completed x.2) :
    Tally.Move (tally view value completed x) (tally view value completed x') := by
  rw [tally_same hcalls hvalue hcompleted]
  exact .stay

/-- A move of a call that does not show. -/
theorem move_unseen {p : Option Nat} {step : FailStep} {next : Option FailStep}
    (hat : failStep x.1 p = some step)
    (hcalls : failStep x'.1 = Function.update (failStep x.1) p next)
    (hview : view next = view (some step))
    (hvalue : value x'.1.shared.keys = value x.1.shared.keys)
    (hcompleted : completed x'.2 = completed x.2) :
    Tally.Move (tally view value completed x) (tally view value completed x') := by
  refine move_same (fun q => ?_) hvalue hcompleted
  rw [hcalls]
  exact view_update hat hview

/-- Calls that come and go without having read anything. -/
theorem move_unread (hunread : ∀ {step}, Unread step → view step = .idle)
    (hcalls : ∀ p, failStep x'.1 p = failStep x.1 p
      ∨ Unread (failStep x.1 p) ∧ Unread (failStep x'.1 p))
    (hvalue : value x'.1.shared.keys = value x.1.shared.keys)
    (hcompleted : completed x'.2 = completed x.2) :
    Tally.Move (tally view value completed x) (tally view value completed x') := by
  refine move_same (fun p => ?_) hvalue hcompleted
  rcases hcalls p with he | ⟨hbefore, hafter⟩
  · rw [he]
  · rw [hunread hbefore, hunread hafter]

theorem noteFailures_of_call {p : Option Nat} {step : FailStep} {failures : Failures}
    (hr : resets x.1 a = false) (hc : callOf x.1 a = some (p, step)) :
    noteFailures x.1 a failures
      = if step = .publishState then ⟨failures.total + 1, failures.streak + 1⟩ else failures := by
  unfold noteFailures
  rw [hr, hc]
  cases step <;> rfl

theorem noteFailures_of_none {failures : Failures} (hr : resets x.1 a = false)
    (hc : callOf x.1 a = none) : noteFailures x.1 a failures = failures := by
  unfold noteFailures
  rw [hr, hc]
  rfl

/-- The total moves as a tally. -/
theorem totals_move (hf : Fresh x.1) (hp : PendingAdmitted x.1) (hok : Unraced x.1 a)
    (h : World.step cfg x.1 a = some x'.1) (hn : x'.2 = noteFailures x.1 a x.2) :
    Tally.Move (totals x) (totals x') := by
  cases fail_step hf hp h with
  | call p step reason hr hc hat hkeys hcalls =>
      rw [noteFailures_of_call hr hc] at hn
      cases step with
      | read =>
          have hx : totals x' = _ := tally_call hcalls (congrArg _ hkeys) (congrArg _ hn)
          rw [hx]
          exact .read p (by show totalCall (failStep x.1 p) = _; rw [hat]; rfl)
      | setTotal total subsequent =>
          -- the write lands on what was read only if nobody else is between the two: here
          -- `Unraced` is used
          have hx : totals x' = _ := tally_call hcalls (congrArg _ hkeys) (congrArg _ hn)
          have halone : onlyHolder x.1 totalCall p = true := by
            have hone : unraced x.1 a = true := hok
            rw [unraced, hr, hc] at hone
            exact hone
          rw [hx]
          exact .write p total (by show totalCall (failStep x.1 p) = _; rw [hat]; rfl)
            (onlyHolder_iff rfl hf halone)
      | setSubsequent subsequent | publishResult =>
          -- these do not concern the total
          exact move_unseen hat hcalls rfl (by rw [hkeys]; rfl) (by rw [hn]; rfl)
      | publishState =>
          have hx : totals x' = _ := tally_call hcalls (congrArg _ hkeys) (congrArg _ hn)
          rw [hx]
          exact .finish p (by show totalCall (failStep x.1 p) = _; rw [hat]; rfl)
  | reset hr hkeys hcalls =>
      have hn' : x'.2 = { x.2 with streak := 0 } := by
        rw [hn, noteFailures, hr]
        rfl
      exact move_same (fun p => by rw [hcalls]) (by rw [hkeys]) (by rw [hn'])
  | other hr hc htotal hstreak hcalls =>
      rw [noteFailures_of_none hr hc] at hn
      exact move_unread totalCall_unread hcalls htotal (congrArg _ hn)

/-- And so does the streak. -/
theorem streaks_move (hf : Fresh x.1) (hp : PendingAdmitted x.1) (hok : Unraced x.1 a)
    (h : World.step cfg x.1 a = some x'.1) (hn : x'.2 = noteFailures x.1 a x.2) :
    Tally.Move (streaks x) (streaks x') := by
  have hone : unraced x.1 a = true := hok
  cases fail_step hf hp h with
  | call p step reason hr hc hat hkeys hcalls =>
      rw [noteFailures_of_call hr hc] at hn
      rw [unraced, hr, hc] at hone
      cases step with
      | read =>
          have hx : streaks x' = _ := tally_call hcalls (congrArg _ hkeys) (congrArg _ hn)
          rw [hx]
          exact .read p (by show streakCall (failStep x.1 p) = _; rw [hat]; rfl)
      | setTotal total subsequent =>
          exact move_unseen hat hcalls rfl (by rw [hkeys]; rfl) (by rw [hn]; rfl)
      | setSubsequent subsequent =>
          have hx : streaks x' = _ := tally_call hcalls (congrArg _ hkeys) (congrArg _ hn)
          rw [hx]
          exact .write p subsequent (by show streakCall (failStep x.1 p) = _; rw [hat]; rfl)
            (onlyHolder_iff rfl hf hone)
      | publishResult =>
          exact move_unseen hat hcalls rfl (by rw [hkeys]; rfl) (by rw [hn]; rfl)
      | publishState =>
          have hx : streaks x' = _ := tally_call hcalls (congrArg _ hkeys) (congrArg _ hn)
          rw [hx]
          exact .finish p (by show streakCall (failStep x.1 p) = _; rw [hat]; rfl)
  | reset hr hkeys hcalls =>
      have hn' : x'.2 = { x.2 with streak := 0 } := by
        rw [hn, noteFailures, hr]
        rfl
      have hx : streaks x' = { streaks x with value := 0, completed := 0 } := by
        show tally _ _ _ x' = _
        unfold tally
        rw [hkeys, hcalls, hn']
        rfl
      rw [hx]
      -- a reset loses nothing: the streak is at zero, or no call holds what it has read
      refine .reset ?_
      rw [unraced, hr, if_pos rfl, Bool.or_eq_true] at hone
      rcases hone with hzero | hidle
      · exact .inl (eq_of_beq hzero)
      · right
        intro q
        show streakCall (failStep x.1 q) = .idle
        cases hs : failStep x.1 q with
        | none => rfl
        | some step =>
            rw [← hs]
            exact eq_of_beq (List.all_eq_true.mp hidle q (mem_callers hf hs))
  | other hr hc htotal hstreak hcalls =>
      rw [noteFailures_of_none hr hc] at hn
      exact move_unread streakCall_unread hcalls hstreak (congrArg _ hn)

end Tallies

/-! ## Every run without a race -/

/-- The driver with its completed calls of `fail_request` counted beside it. -/
abbrev FailureRun [Zero F] (cfg : Config F) (ok : World F → Action F → Prop)
    (x : World F × Failures) : Prop :=
  Lts.ReachableBy (Lts.recorded (World.step cfg) noteFailures) (fun x a => ok x.1 a)
    (World.init, {}) x

/-- Both counters are exact. -/
theorem tallies_exact [Zero F] {x : World F × Failures} (h : FailureRun cfg Unraced x) :
    Tally.Exact (totals x) ∧ Tally.Exact (streaks x) := by
  refine h.invariant (I := fun x => Tally.Exact (totals x) ∧ Tally.Exact (streaks x)) ?_ ?_
  · -- at the start nobody is in a call and both counters are at zero
    have hidle : ∀ view : Option FailStep → Tally.Call, view none = .idle →
        view ∘ failStep (World.init : World F) = fun _ => .idle := by
      intro view hview
      funext p
      cases p <;> exact hview
    have htotal : totals ((World.init, {}) : World F × Failures) = ⟨0, fun _ => .idle, 0⟩ := by
      rw [totals, tally, hidle totalCall rfl]
      rfl
    have hstreak : streaks ((World.init, {}) : World F × Failures) = ⟨0, fun _ => .idle, 0⟩ := by
      rw [streaks, tally, hidle streakCall rfl]
      rfl
    rw [htotal, hstreak]
    exact ⟨Tally.exact_zero, Tally.exact_zero⟩
  · intro y a y' hr hI hok hs
    obtain ⟨hstep, hnote⟩ := Lts.recorded_eq_some.mp hs
    have hrun : Run cfg (fun _ _ => True) y.1 := hr.forget fun _ _ _ => trivial
    have hf := fresh_reachable hrun
    have hp := pendingAdmitted_reachable hrun
    exact ⟨hI.1.move (totals_move hf hp hok hstep hnote),
      hI.2.move (streaks_move hf hp hok hstep hnote)⟩

/-- The counters count the completed calls, and those that have written theirs. -/
structure CountersExact (x : World F × Failures) : Prop where
  total : x.1.shared.keys.totalFailCounter = x.2.total + (totals x).underWay.ncard
  streak : x.1.shared.keys.subsequentFailCounter = x.2.streak + (streaks x).underWay.ncard
  /-- With no call under way that has written anything, there is nothing else to count. -/
  quiet : (∀ p, Unread (failStep x.1 p)) → x.1.shared.keys.totalFailCounter = x.2.total
    ∧ x.1.shared.keys.subsequentFailCounter = x.2.streak

/--
**Counters are exact.** In every run no step of which writes a counter that somebody else
has read and not written back, or resets a streak that a call is counting up.
-/
theorem counters_exact [Zero F] {x : World F × Failures} (h : FailureRun cfg Unraced x) :
    CountersExact x := by
  obtain ⟨htotal, hstreak⟩ := tallies_exact h
  refine ⟨htotal.counted, hstreak.counted, ?_⟩
  intro hquiet
  refine ⟨htotal.value_eq fun p hp => ?_, hstreak.value_eq fun p hp => ?_⟩
  · rw [show (totals x).call p = totalCall (failStep x.1 p) from rfl,
      totalCall_unread (hquiet p)] at hp
    cases hp
  · rw [show (streaks x).call p = streakCall (failStep x.1 p) from rfl,
      streakCall_unread (hquiet p)] at hp
    cases hp

namespace Scenario

/-- A goal whose script never dials back, and a second request that is turned away. -/
def failing : List (Action Int) :=
  start ++ request "a" ++ launch 0 ++ [.task 0 (.handshake .timeout)] ++ ask "b"

/-- What the second request is answered with. -/
def turnedAway : RequestKeys :=
  { requestState := .failed, requestResult := "a goal is already running"
    totalFailCounter := 1, subsequentFailCounter := 1 }

end Scenario

open Scenario

set_option maxRecDepth 4000 in
/-- The second request is turned away between the first goal's reading the counters and its
writing them back: two failures, and the counters say one. -/
theorem not_counters_exact :
    ¬ ∀ x : World Int × Failures, FailureRun config (fun _ _ => True) x → CountersExact x := by
  intro h
  have hrun : (Lts.runBy (Lts.recorded (World.step config) noteFailures) (fun _ _ => True)
      (World.init, {}) (failing ++ [.task 0 (.redis { requestState := .initial })]
        ++ List.replicate 5 (.command .redis)
        ++ ([turnedAway, turnedAway, turnedAway, { turnedAway with
          requestResult := "the script never completed the handshake" }].map fun k =>
            .task 0 (.redis k)))).any (fun x =>
          x.2.total == 2 && x.1.shared.keys.totalFailCounter == 1) = true := by
    decide
  obtain ⟨x, hx, hp⟩ := Lts.exists_of_runBy hrun
  simp only [Bool.and_eq_true, beq_iff_eq] at hp
  have htotal := (h x hx).total
  rw [hp.1, hp.2] at htotal
  omega

set_option maxRecDepth 4000 in
/-- One after the other, both failures are counted. -/
theorem counters_exact_trace : ∃ x : World Int × Failures, FailureRun config Unraced x
    ∧ x.2.total = 2 ∧ x.1.shared.keys.totalFailCounter = 2 ∧ CountersExact x := by
  have hrun : (Lts.runBy (Lts.recorded (World.step config) noteFailures)
      (fun x a => Unraced x.1 a) (World.init, {}) (failing
        ++ List.replicate 5 (.command .redis)
        ++ fail 0 "the script never completed the handshake" turnedAway)).any (fun x =>
          x.2.total == 2 && x.1.shared.keys.totalFailCounter == 2) = true := by
    decide
  obtain ⟨x, hx, hp⟩ := Lts.exists_of_runBy hrun
  simp only [Bool.and_eq_true, beq_iff_eq] at hp
  exact ⟨x, hx, hp.1, hp.2, counters_exact hx⟩

end UrRedisDriver.Proof
