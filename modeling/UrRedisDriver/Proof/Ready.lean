import UrRedisDriver.Proof.Hold
import UrRedisDriver.Proof.Counters

/-!
# What a finished goal leaves in the way

A goal's task writes its terminal `request_state` first and clears `DriverState` some Redis
operations later. What the admission block looks at in between is what the goal left there:
its `goal_id`, the `reissuing` of a re-issue that never got to run, a hold. Only a pause that
is still being confirmed can put anything up again after that.
-/

namespace UrRedisDriver.Proof

open UrRedisDriver

variable {F : Type} {cfg : Config F} {w w' : World F} {a : Action F} {g : Nat}

/-! ## Whose they are -/

/-- Whose values the three fields carry, where they are set. -/
structure Marks where
  /-- The goal that put up `goal_id` last. -/
  installer : Option Nat := none
  /-- The goal that set `reissuing` last. -/
  claimer : Option Nat := none
  pauses : Pauses := {}

/-- The goal that puts up `goal_id` by this step. -/
def installs : Action F → Option Nat
  | .task g .install => some g
  | _ => none

/-- The goal that sets `reissuing` by this step. -/
def claims : Action F → Option Nat
  | .task g .claim => some g
  | _ => none

def noteMarks (w : World F) (a : Action F) (m : Marks) : Marks where
  installer := (installs a).or m.installer
  claimer := (claims a).or m.claimer
  pauses := notePause w a m.pauses

/-- Nothing that the admission block looks at carries goal `g`'s value. -/
structure Ready (w : World F) (m : Marks) (g : Nat) : Prop where
  goalId : w.shared.ds.goalId.isSome = true → m.installer ≠ some g
  reissuing : w.shared.ds.reissuing = true → m.claimer ≠ some g
  motionPaused : w.shared.ds.motionPaused = true → m.pauses.held g = false

/-- The next Redis operation is the write of the terminal state. -/
def writesState (t : Task F) : Bool :=
  t.phase == .publishState || t.phase == .failing .publishState

/-- A re-issue that could not connect for its script. -/
def failedReissue (t : Task F) : Bool :=
  decide (0 < t.attempt) && match t.exit with
    | some (.connectFailed _) => true
    | _ => false

/-- Goal `g` has written its terminal state. -/
def finished (w : World F) (g : Nat) : Bool := (w.task g).any fun t => t.published.isSome

/--
A terminal state is written only once `goal_id` has been taken down or is another goal's, not
after a re-issue that could not connect and left `reissuing` up, and not under the goal's own
hold; and no latch is set for a goal that has written its terminal state.
-/
def clean (x : World F × Marks) (a : Action F) : Bool :=
  match a with
  | .task g (.redis _) => (x.1.task g).all fun t => !writesState t ||
      (!(x.1.shared.ds.goalId.isSome && x.2.installer == some g)
        && !(x.1.shared.ds.reissuing && failedReissue t)
        && !(x.1.shared.ds.motionPaused && x.2.pauses.held g))
  | a => !latched x.1 a
      || (List.range x.1.goals).all fun g => !(x.2.pauses.atAck g && finished x.1 g)

abbrev Clean (x : World F × Marks) (a : Action F) : Prop := clean x a = true

/-! ## Who puts them up -/

/-- One step, on the two fields that name the goal. -/
structure Lowers (s s' : Shared F) (a : Action F) : Prop where
  goalId : installs a = none → s'.ds.goalId.isSome = true → s.ds.goalId.isSome = true
  reissuing : claims a = none → s'.ds.reissuing = true →
    s.ds.reissuing = true ∧ installs a = none

theorem Lowers.same {s s' : Shared F} (hg : s'.ds.goalId = s.ds.goalId)
    (hr : s'.ds.reissuing = s.ds.reissuing) (hi : installs a = none) : Lowers s s' a :=
  ⟨fun _ h => hg ▸ h, fun _ h => ⟨hr ▸ h, hi⟩⟩

theorem effect_lowers {up : Bool} {s : Shared F} {t : Task F} {i : TaskInput} :
    Lowers s (World.effect cfg up s g t i) (.task g i) := by
  cases i with
  | install => exact ⟨fun hi => (by cases hi), fun _ h => (by cases h)⟩
  | claim => exact ⟨fun _ h => h, fun hc => by cases hc⟩
  | teardown => exact ⟨fun _ h => (by cases h), fun _ h => (by cases h)⟩
  | write r => cases r <;> exact .same rfl rfl rfl
  | feedback m => cases m <;> exact .same rfl rfl rfl
  | sendStop r => cases r <;> exact .same rfl rfl rfl
  | redis keys =>
      simp only [World.effect]
      split <;> exact .same rfl rfl rfl
  | _ => exact .same rfl rfl rfl

theorem resolveGoal_lowers (s : Shared F) (v : Bool) (by_ : Resolver) :
    (s.resolveGoal v by_).ds.goalId = s.ds.goalId
      ∧ (s.resolveGoal v by_).ds.reissuing = s.ds.reissuing := by
  obtain ⟨box, r, he⟩ := s.resolveGoal_eq v by_
  rw [he]
  exact ⟨rfl, rfl⟩

/-- A goal's `install` and `claim` apart, both only ever come down. -/
theorem lowers_step (h : World.step cfg w a = some w') : Lowers w.shared w'.shared a := by
  cases a with
  | client i | robot i | server i =>
      obtain ⟨_, _, _, _, _, _, _, rfl⟩ := World.step_outside h rfl
      exact .same rfl rfl rfl
  | command i =>
      obtain ⟨_, _, _, _, _, _, _, _, _, _, rfl⟩ := World.step_command_frame h
      exact .same rfl rfl rfl
  | task g i =>
      obtain ⟨t, t', -, -, -, rfl⟩ := World.step_task h
      exact effect_lowers
  | socket i =>
      obtain ⟨s, p, hm, rfl⟩ := World.step_socket h
      cases hm with
      | ok | error =>
          obtain ⟨hg, hr⟩ := resolveGoal_lowers w.shared _ _
          exact .same hg hr rfl
      | close c ch hp =>
          -- a close takes `goal_id` down and leaves `reissuing` to whoever raised it
          have hr := (resolveGoal_lowers w.shared false (.closed c.script)).2
          exact ⟨fun _ hs => (by cases hs), fun _ hs => ⟨hr ▸ hs, rfl⟩⟩
      | _ => exact .same rfl rfl rfl
  | realtime i =>
      obtain ⟨s, p, hm, rfl⟩ := World.step_realtime h
      cases hm with
      | abort hp =>
          -- and so does a safety stop
          have hr := (resolveGoal_lowers w.shared false .safetyStop).2
          exact ⟨fun _ hs => (by cases hs), fun _ hs => ⟨hr ▸ hs, rfl⟩⟩
      | _ => exact .same rfl rfl rfl
  | dashboard i =>
      cases World.step_dashboard h with
      | other i ds p hf =>
          obtain ⟨_, _, _, _, _, _, _, rfl⟩ := hf.writes
          exact .same rfl rfl rfl
      | _ => exact .same rfl rfl rfl

/-- The latch is set by this step, or was set before. -/
theorem motionPaused_step (h : World.step cfg w a = some w')
    (hp : w'.shared.ds.motionPaused = true) :
    latched w a = true ∨ latched w a = false ∧ w.shared.ds.motionPaused = true := by
  by_cases hd : ∃ i, a = .dashboard i
  · obtain ⟨i, rfl⟩ := hd
    cases dashPhase_latch (step_dashboard_phase h).1 with
    | same hl hm => exact .inr ⟨hl, hm ▸ hp⟩
    -- a pause that was acknowledged
    | set hl _ => exact .inl hl
    | clear _ hm => rw [hm] at hp; cases hp
  · have hne : ∀ i, a ≠ .dashboard i := fun i ha => hd ⟨i, ha⟩
    have hl : latched w a = false := by
      cases a with
      | dashboard i => exact absurd rfl (hne i)
      | _ => rfl
    by_cases ht : ∃ g, a = .task g .teardown
    · obtain ⟨g, rfl⟩ := ht
      rw [(teardown_gates h).2.1] at hp
      cases hp
    · -- apart from the dashboard task only a teardown touches the flag
      rw [step_motionPaused h hne fun g ha => ht ⟨g, ha⟩] at hp
      exact .inr ⟨hl, hp⟩

/-- A goal that is out of the way stays so, but for its own steps and for a latch. -/
theorem Ready.step {m : Marks} (hR : Ready w m g) (h : World.step cfg w a = some w')
    (hi : installs a ≠ some g) (hc : claims a ≠ some g)
    (hl : latched w a = true → m.pauses.atAck g = false) : Ready w' (noteMarks w a m) g := by
  have hlow := lowers_step h
  refine ⟨?_, ?_, ?_⟩
  · -- who raised each of the three last was not goal `g`, unless this step is
    intro hg
    show (installs a).or m.installer ≠ some g
    cases hinst : installs a with
    | none => exact hR.goalId (hlow.goalId hinst hg)
    | some g' =>
        rw [hinst] at hi
        exact hi
  · intro hr
    show (claims a).or m.claimer ≠ some g
    cases hclaim : claims a with
    | none => exact hR.reissuing (hlow.reissuing hclaim hr).1
    | some g' =>
        rw [hclaim] at hc
        exact hc
  · intro hp
    show (notePause w a m.pauses).held g = false
    rcases motionPaused_step h hp with hlatch | ⟨hlatch, hp⟩
    · rw [held_of_latched hlatch]
      exact hl hlatch
    · rw [held_of_not hlatch]
      exact hR.motionPaused hp

/-! ## The gap of a re-issue -/

/-- Between the claim of a re-issue and the install that ends it, or left for good in there. -/
def Reissues (t : Task F) : Prop :=
  (t.phase = .restopping ∨ t.phase = .restopPending ∨ t.phase = .draining ∨ t.phase = .resetting
      ∨ t.phase = .activating)
    ∨ 0 < t.attempt ∧ (t.phase = .connecting ∨ t.phase = .installing
      ∨ ∃ e, t.exit = some (.connectFailed e))

/-- The phases of the gap. -/
def inGap : Phase → Bool
  | .restopping | .restopPending | .draining | .resetting | .activating | .connecting
  | .installing => true
  | _ => false

theorem looping_of_inGap {p : Phase} (h : inGap p = true) : Phase.looping p := by
  apply looping_of_inAttempt
  cases p <;> first | rfl | cases h

/-- In any other phase, a task in the gap has been left for good. -/
theorem Reissues.left {t : Task F} (h : Reissues t) (hp : inGap t.phase = false) :
    0 < t.attempt ∧ ∃ e, t.exit = some (.connectFailed e) := by
  rcases h with hphase | ⟨hpos, hphase | hphase | hexit⟩
  · rcases hphase with hq | hq | hq | hq | hq <;> rw [hq] at hp <;> cases hp
  · rw [hphase] at hp
    cases hp
  · rw [hphase] at hp
    cases hp
  · exact ⟨hpos, hexit⟩

theorem Move.of_claim {t t' : Task F} (h : Task.Move t .claim t') :
    t.phase = .claiming ∧ t' = { t with phase := .restopping } := by
  cases h with
  | hop i p hh =>
      generalize hq : t.phase = q at hh
      cases hh
      exact ⟨rfl, rfl⟩
  | leave i e hh => generalize t.phase = q at hh; cases hh

theorem Move.attempt_le {t t' : Task F} {i : TaskInput} (h : Task.Move t i t') :
    t.attempt ≤ t'.attempt := by
  cases h with
  | activate => exact Nat.le_succ _
  | _ => exact le_rfl

/-- In the gap a task only stops the old script, drains it and goes for the next one. -/
theorem Hops.reissues {t : Task F} {i : TaskInput} {p : Phase} (h : Task.Hops t.phase i p)
    (hR : Reissues t) (hi : i ≠ .teardown) : Reissues { t with phase := p } := by
  rcases hR with hphase | ⟨hpos, hphase⟩
  · left
    generalize t.phase = q at h hphase
    cases h <;> simp at hphase ⊢
  · refine .inr ⟨hpos, ?_⟩
    rcases hphase with hphase | hphase | hexit
    · rw [hphase] at h
      cases h
      exact .inr (.inl rfl)
    · rw [hphase] at h
      cases h
    · exact .inr (.inr hexit)

theorem Reissues.move {t t' : Task F} {i : TaskInput} (hR : Reissues t) (hm : Task.Move t i t')
    (hC : Consistent t) (hi : i ≠ .install) (ht : i ≠ .teardown) : Reissues t' := by
  have hpos : 0 < t.attempt → 0 < t'.attempt := fun h => h.trans_le (Move.attempt_le hm)
  by_cases hexit : ∃ e, t.exit = some (.connectFailed e)
  · -- out of the loop: the exit stays what it is
    obtain ⟨e, he⟩ := hexit
    have hne : ¬ Phase.looping t.phase := fun hl => by
      rw [hC.exit_none hl] at he
      cases he
    have hgap : inGap t.phase = false := by
      by_contra hin
      exact hne (looping_of_inGap ((Bool.not_eq_false _).mp hin))
    have hatt := (hR.left hgap).1
    rcases Move.kind hm with ⟨e', hl, -⟩ | ⟨-, hsame, -⟩
    · exact absurd (Leaves.looping hl) hne
    · exact .inr ⟨hpos hatt, .inr (.inr ⟨e, hsame.trans he⟩)⟩
  · cases hm with
    | hop i p hh => exact Hops.reissues hh hR ht
    | leave i e hh =>
        rcases hR with hphase | ⟨hatt, hphase⟩
        · generalize t.phase = q at hh hphase
          cases hh with
          | verdict _ _ hq => rcases hq with rfl | rfl | rfl <;> simp at hphase
          | _ => simp at hphase
        · rcases hphase with hphase | hphase | hphase
          · rw [hphase] at hh
            cases hh with
            | connect e => exact .inr ⟨hatt, .inr (.inr ⟨e, rfl⟩)⟩
            | verdict _ _ hq => simp at hq
          · rw [hphase] at hh
            cases hh with
            | verdict _ _ hq => simp at hq
          · exact absurd hphase hexit
    | install => exact absurd rfl hi
    | restop id hp => exact .inl (.inr (.inl rfl))
    | activate remaining nextScript hp => exact .inr ⟨Nat.succ_pos _, .inl rfl⟩
    | publish keys p written hp =>
        have hpub := hp.publishing.1
        have hgap : inGap t.phase = false := by
          generalize t.phase = q at hpub
          cases q <;> first | rfl | cases hpub
        exact absurd (hR.left hgap).2 hexit
    | write hp | handshake hp | feedback m hp | stop id hp | measure n next hp =>
        exact absurd (hR.left (by rw [hp]; rfl)).2 hexit

/-- `reissuing` is up only in the gap of the goal that set it. -/
def ClaimsOpen (w : World F) (m : Marks) : Prop :=
  w.shared.ds.reissuing = true → ∀ g, m.claimer = some g → ∃ t, w.task g = some t ∧ Reissues t

theorem claimsOpen_step {m : Marks} (hI : ClaimsOpen w m) (hf : Fresh w) (hp : PendingAdmitted w)
    (hM : ∀ g t, w.task g = some t → Memory t) (h : World.step cfg w a = some w') :
    ClaimsOpen w' (noteMarks w a m) := by
  intro hr g hg
  have hg : (claims a).or m.claimer = some g := hg
  cases hclaim : claims a with
  | some g' =>
      -- the claim is made here, on the way to a new attempt
      rw [hclaim] at hg
      cases hg
      cases a with
      | task g' i =>
          cases i with
          | claim =>
              cases hclaim
              obtain ⟨t, t', -, -, hm, rfl⟩ := World.step_task h
              obtain ⟨-, rfl⟩ := Move.of_claim hm
              exact ⟨_, Function.update_self .., .inl (.inl rfl)⟩
          | _ => cases hclaim
      | _ => cases hclaim
  | none =>
      -- the claim is an old one, and its goal is still on the way or has left its loop
      rw [hclaim] at hg
      obtain ⟨hr₀, hinst⟩ := (lowers_step h).reissuing hclaim hr
      obtain ⟨t, ht, hR⟩ := hI hr₀ g hg
      obtain ⟨t', ht'⟩ := task_persists h ht
      refine ⟨t', ht', ?_⟩
      cases task_origin hp h ht' with
      | same hsame =>
          rw [ht] at hsame
          cases hsame
          exact hR
      | moved u i ha hu _ hm =>
          rw [ht] at hu
          cases hu
          subst ha
          refine hR.move hm (hM g t ht).toConsistent ?_ ?_
          · -- an installation or a teardown would have taken the flag down
            rintro rfl
            cases hinst
          · rintro rfl
            obtain ⟨u, u', -, -, -, rfl⟩ := World.step_task h
            cases hr
      | accepted command script uuid _ _ hn _ =>
          rw [hf g hn.ge] at ht
          cases ht
      | spawned u _ _ hu hta _ =>
          rw [ht] at hu
          cases hu
          -- a task that is only now spawned has not claimed anything
          have hnone := (hM g t ht).exit_none (by rw [hta]; exact ⟨rfl, nofun, nofun⟩)
          obtain ⟨-, e, he⟩ := hR.left (by rw [hta]; rfl)
          rw [hnone] at he
          cases he

/-! ## The terminal write -/

theorem redisOp_published {t t' : Task F} {keys keys' : RequestKeys}
    (h : t.redisOp keys = some (keys', t')) (hp : t'.published.isSome = true) :
    t.published.isSome = true ∨ writesState t = true := by
  unfold writesState
  cases hphase : t.phase with
  | publishState => exact .inr rfl
  | failing step =>
      cases step with
      | publishState => exact .inr rfl
      | _ =>
          simp only [Task.redisOp, hphase, failRequest] at h
          cases h
          exact .inl hp
  | publishResult | publishCounter =>
      simp only [Task.redisOp, hphase] at h
      cases h
      exact .inl hp
  | _ => simp [Task.redisOp, hphase] at h

/-- Only a Redis operation publishes anything. -/
theorem Move.published {t t' : Task F} {i : TaskInput} (h : Task.Move t i t')
    (hi : ∀ keys, i ≠ .redis keys) : t'.published = t.published := by
  cases h with
  | publish keys => exact absurd rfl (hi keys)
  | _ => rfl

/-- A goal that has written its terminal state had done so before, or does it by this step. -/
theorem published_step {t' : Task F} (hp : PendingAdmitted w) (h : World.step cfg w a = some w')
    (ht' : w'.task g = some t') (hpub : t'.published.isSome = true) :
    ∃ t, w.task g = some t ∧ (t.published.isSome = true
      ∨ (∃ keys, a = .task g (.redis keys)) ∧ writesState t = true) := by
  cases task_origin hp h ht' with
  | same ht => exact ⟨t', ht, .inl hpub⟩
  | moved t i ha ht _ hm =>
      refine ⟨t, ht, ?_⟩
      by_cases hi : ∃ keys, i = .redis keys
      · obtain ⟨keys, rfl⟩ := hi
        subst ha
        obtain ⟨u, keys', u', hu, hop, rfl⟩ := step_task_redis h
        rw [ht] at hu
        cases hu
        simp only [Function.update_self, Option.some.injEq] at ht'
        subst ht'
        exact (redisOp_published hop hpub).imp_right fun hw => ⟨⟨keys, rfl⟩, hw⟩
      · -- a task publishes by a Redis operation and by nothing else
        rw [Move.published hm fun keys he => hi ⟨keys, he⟩] at hpub
        exact .inl hpub
  | accepted command script uuid _ _ _ he =>
      rw [he] at hpub
      cases hpub
  | spawned t _ _ ht _ he =>
      rw [he] at hpub
      exact ⟨t, ht, .inl hpub⟩

/-- Every goal that has written its terminal state is out of the way. -/
def FinishedReady (w : World F) (m : Marks) : Prop :=
  ∀ g t, w.task g = some t → t.published.isSome = true → Ready w m g

/-- At the terminal write itself. -/
theorem ready_of_write {x : World F × Marks} {t : Task F} {keys : RequestKeys}
    (hok : Clean x (.task g (.redis keys))) (hO : ClaimsOpen x.1 x.2)
    (ht : x.1.task g = some t) (hw : writesState t = true) : Ready x.1 x.2 g := by
  have hall : (x.1.task g).all _ = true := hok
  rw [ht] at hall
  simp only [Option.all_some, hw, Bool.not_true, Bool.false_or, Bool.and_eq_true,
    Bool.not_eq_true', Bool.and_eq_false_iff] at hall
  obtain ⟨⟨hgoal, hre⟩, hpause⟩ := hall
  refine ⟨?_, ?_, ?_⟩
  · intro hs he
    rcases hgoal with hn | hn
    · rw [hs] at hn; cases hn
    · rw [he] at hn; simp at hn
  · intro hs he
    -- past the loop the gap can only be one that was left because nothing could be connected
    obtain ⟨u, hu, hR⟩ := hO hs g he
    rw [ht] at hu
    cases hu
    have hgap : inGap t.phase = false := by
      unfold writesState at hw
      generalize t.phase = q at hw
      cases q <;> first | rfl | cases hw
    have hfailed : failedReissue t = true := by
      obtain ⟨hpos, e, hexit⟩ := hR.left hgap
      rw [failedReissue, hexit, Bool.and_true]
      exact decide_eq_true hpos
    rcases hre with hn | hn
    · rw [hs] at hn; cases hn
    · rw [hfailed] at hn; cases hn
  · intro hs
    rcases hpause with hn | hn
    · rw [hs] at hn; cases hn
    · exact hn

theorem finishedReady_step {x : World F × Marks} (hI : FinishedReady x.1 x.2)
    (hO : ClaimsOpen x.1 x.2) (hf : Fresh x.1) (hp : PendingAdmitted x.1)
    (hM : ∀ g t, x.1.task g = some t → Memory t) (hok : Clean x a)
    (h : World.step cfg x.1 a = some w') : FinishedReady w' (noteMarks x.1 a x.2) := by
  intro g t' ht' hpub
  obtain ⟨t, ht, hcase⟩ := published_step hp h ht' hpub
  rcases hcase with hbefore | ⟨⟨keys, rfl⟩, hw⟩
  · -- the goal has left its loop, so neither of the two steps is one of its own
    have hloop := (hM g t ht).toConsistent.not_looping hbefore
    have hown : ∀ i, a = .task g i → i ≠ .install ∧ i ≠ .claim := by
      rintro i rfl
      obtain ⟨u, u', hu, -, hm, -⟩ := World.step_task h
      rw [ht] at hu
      cases hu
      constructor
      · rintro rfl
        rw [(Move.of_install hm).1] at hloop
        exact hloop ⟨rfl, nofun, nofun⟩
      · rintro rfl
        rw [(Move.of_claim hm).1] at hloop
        exact hloop ⟨rfl, nofun, nofun⟩
    refine (hI g t ht hbefore).step h ?_ ?_ ?_
    · intro he
      unfold installs at he
      split at he
      · cases he
        exact (hown _ rfl).1 rfl
      · cases he
    · intro he
      unfold claims at he
      split at he
      · cases he
        exact (hown _ rfl).2 rfl
      · cases he
    · intro hl
      have hlt : g < x.1.goals := by
        by_contra hn
        rw [hf g (Nat.le_of_not_lt hn)] at ht
        cases ht
      have hfin : finished x.1 g = true := by
        rw [finished, ht]
        exact hbefore
      cases a with
      | dashboard i =>
          have hall : (!latched x.1 (.dashboard i) || _) = true := hok
          rw [hl, Bool.not_true, Bool.false_or] at hall
          have hg := List.all_eq_true.mp hall g (List.mem_range.mpr hlt)
          rw [hfin, Bool.and_true, Bool.not_eq_true'] at hg
          exact hg
      | _ => cases hl
  · have hR := ready_of_write hok hO ht hw
    exact hR.step h nofun nofun nofun

/-! ## Every run -/

section Reachable

variable [Zero F]

/-- The driver with the record of whose values the three fields carry. -/
abbrev MarkedRun (cfg : Config F) (ok : World F × Marks → Action F → Prop)
    (x : World F × Marks) : Prop :=
  Lts.ReachableBy (Lts.recorded (World.step cfg) noteMarks) ok (World.init, {}) x

/--
**A terminal state means ready.** In every run whose steps are all `Clean`: from the moment a
goal has written its terminal `request_state`, neither `goal_id` nor `reissuing` nor
`motion_paused` carries its value.
-/
theorem finished_ready {x : World F × Marks} {t : Task F} (h : MarkedRun cfg Clean x)
    (ht : x.1.task g = some t) (hp : t.published.isSome = true) : Ready x.1 x.2 g := by
  have hI : FinishedReady x.1 x.2 ∧ ClaimsOpen x.1 x.2 := by
    refine h.invariant (I := fun x => FinishedReady x.1 x.2 ∧ ClaimsOpen x.1 x.2) ?_ ?_
    · exact ⟨fun _ _ ht => (by cases ht), fun hr => (by cases hr)⟩
    · intro x a x' hr hI hok hs
      obtain ⟨hstep, hnote⟩ := Lts.recorded_eq_some.mp hs
      have hrun : Run cfg (fun _ _ => True) x.1 := hr.forget fun _ _ _ => trivial
      have hf := fresh_reachable hrun
      have hp := pendingAdmitted_reachable hrun
      have hM := memory_reachable hrun
      rw [hnote]
      exact ⟨finishedReady_step hI.1 hI.2 hf hp hM hok hstep,
        claimsOpen_step hI.2 hf hp hM hstep⟩
  exact hI.1 g t ht hp

end Reachable

open Scenario

namespace Scenario

/-- A goal whose script has said `ok`. -/
def reported : List (Action Int) :=
  start ++ request "a" ++ launch 0 ++ shake ⟨0, 0⟩ "a" ++ [.socket (.line (some "ok"))]

/-- The goal takes the verdict and publishes it, up to the terminal write. -/
def publish : List (Action Int) :=
  .task 0 (.goal (some true)) :: (succeed 0 { requestState := .executing }).take 2

end Scenario

/-- The script has said `ok` and its socket is still open: the terminal state is there to be
read and the next request would be turned away. -/
theorem not_finished_ready :
    ¬ ∀ (x : World Int × Marks) (g : Nat) (t : Task Int),
      MarkedRun config (fun _ _ => True) x → x.1.task g = some t →
      t.published.isSome = true → Ready x.1 x.2 g := by
  intro h
  have hrun : (Lts.runBy (Lts.recorded (World.step config) noteMarks) (fun _ _ => True)
      (World.init, {}) (reported ++ publish)).any (fun x =>
        (x.1.task 0).any (fun t => t.published.isSome)
          && (x.1.shared.ds.goalId.isSome && x.2.installer == some 0)) = true := by
    decide
  obtain ⟨x, hx, hp⟩ := Lts.exists_of_runBy hrun
  obtain ⟨ht, hp⟩ := Bool.and_eq_true_iff.mp hp
  obtain ⟨hs, hg⟩ := Bool.and_eq_true_iff.mp hp
  obtain ⟨t, ht, hpub⟩ := (Option.any_eq_true _ _).mp ht
  exact (h x 0 t hx ht hpub).goalId hs (eq_of_beq hg)

/-- The same goal with its script's socket closed first. -/
theorem finished_ready_trace : ∃ (x : World Int × Marks) (t : Task Int),
    MarkedRun config Clean x ∧ x.1.task 0 = some t ∧ t.published.isSome = true
      ∧ Ready x.1 x.2 0 := by
  have hrun : (Lts.runBy (Lts.recorded (World.step config) noteMarks) Clean
      (World.init, {}) (reported ++ [.socket (.line none)] ++ publish)).any (fun x =>
        (x.1.task 0).any fun t => t.published.isSome) = true := by
    decide
  obtain ⟨x, hx, hp⟩ := Lts.exists_of_runBy hrun
  obtain ⟨t, ht, hpub⟩ := (Option.any_eq_true _ _).mp hp
  exact ⟨x, t, hx, ht, hpub, finished_ready hx ht hpub⟩

end UrRedisDriver.Proof
