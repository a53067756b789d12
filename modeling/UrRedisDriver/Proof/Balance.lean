import UrRedisDriver.Proof.Ready
import Mathlib.Algebra.BigOperators.Group.Finset.Basic

/-!
# Every trigger is answered once

A trigger that is consumed in `initial` is owed one terminal `request_state`. `command_server`
pays it where it turns the request away, and hands the debt over to the goal's task where it
accepts. What has been consumed is what has been paid and what is still owed, whoever owes it.
-/

namespace UrRedisDriver.Proof

open UrRedisDriver

variable {F : Type} {cfg : Config F} {w w' : World F} {a : Action F}

/-! ## What is owed -/

/-- The triggers consumed in `initial`, and the terminal states written. -/
structure Books where
  consumed : Nat := 0
  closed : Nat := 0

/-- A trigger is consumed by this step: it is down in the keys that the step leaves. -/
def consumes (p : CommandPhase F) (keys : RequestKeys) : CommandInput F → Nat
  | .redis => match p with
    | .consuming .initial => (!keys.requestTrigger).toNat
    | _ => 0
  | _ => 0

/-- `command_server` writes by this step, and the keys that it leaves hold a terminal state. -/
def turnsAway (p : CommandPhase F) (keys : RequestKeys) : CommandInput F → Nat
  | .redis => match p with
    | .failing _ .publishState => keys.requestState.terminal.toNat
    | _ => 0
  | _ => 0

/-- A goal's task writes by this step, and the keys that it leaves hold a terminal state. -/
def reports (t : Option (Task F)) (keys : RequestKeys) : TaskInput → Nat
  | .redis _ => (t.any writesState && keys.requestState.terminal).toNat
  | _ => 0

/-- The books, kept from the keys as each step leaves them. -/
def noteBooks (cfg : Config F) (w : World F) (a : Action F) (b : Books) : Books :=
  match World.step cfg w a with
  | none => b
  | some w' => match a with
    | .command i =>
        ⟨b.consumed + consumes w.command w'.shared.keys i,
          b.closed + turnsAway w.command w'.shared.keys i⟩
    | .task g i => { b with closed := b.closed + reports (w.task g) w'.shared.keys i }
    | _ => b

/-- What `command_server` owes. -/
def owing : CommandPhase F → Nat
  | .preparing | .checking _ _ | .failing _ _ => 1
  | _ => 0

/-- What a goal owes. -/
def unpublished (t : Option (Task F)) : Nat := if t.any fun t => t.published.isNone then 1 else 0

/-- What everybody owes. -/
def owed (w : World F) : Nat := owing w.command + ∑ g ∈ Finset.range w.goals, unpublished (w.task g)

/-! ## One goal's share -/

/-- A sum over goals, with one of them changed. -/
theorem sum_update {α : Type} {n g : Nat} (hg : g < n) (f : α → Nat) (task : Nat → α) (x : α) :
    ∑ i ∈ Finset.range n, f (Function.update task g x i) + f (task g)
      = ∑ i ∈ Finset.range n, f (task i) + f x := by
  -- both sums agree away from the goal that is changed
  rw [← Finset.add_sum_erase _ _ (Finset.mem_range.mpr hg),
    ← Finset.add_sum_erase _ (fun i => f (task i)) (Finset.mem_range.mpr hg)]
  have hrest : ∑ i ∈ (Finset.range n).erase g, f (Function.update task g x i)
      = ∑ i ∈ (Finset.range n).erase g, f (task i) :=
    Finset.sum_congr rfl fun i hi => by rw [Function.update_of_ne (Finset.ne_of_mem_erase hi)]
  rw [hrest, Function.update_self]
  omega

theorem unpublished_none {t : Task F} (h : t.published = none) : unpublished (some t) = 1 := by
  simp [unpublished, h]

theorem unpublished_some {t : Task F} (h : t.published.isSome = true) :
    unpublished (some t) = 0 := by
  simp [unpublished, Option.isSome_iff_ne_none.mp h]

/-- A goal writes its terminal state before it has one, and has one from then on. -/
theorem unpublished_redis {t t' : Task F} {keys keys' : RequestKeys} (hc : Consistent t)
    (h : t.redisOp keys = some (keys', t')) (i : RequestKeys) :
    reports (some t) keys' (.redis i) + unpublished (some t') = unpublished (some t) := by
  -- before the terminal write nothing is published: up to the counter, by the phase
  have hpub (hp : t.phase.publishing = true) (hne : t.phase ≠ .publishCounter) :
      t.published = none := by
    cases he : t.exit with
    | none => exact (hc.looping he).1
    | some e =>
        have hl := hc.left e he
        cases hq : t.phase with
        | publishCounter => exact absurd hq hne
        | publishResult | publishState | failing => rw [hq] at hl; exact hl.2
        | _ => rw [hq] at hp; cases hp
  cases hq : t.phase with
  | publishState =>
      -- the write that pays what the goal owed
      simp only [Task.redisOp, hq, Option.some.injEq, Prod.mk.injEq] at h
      obtain ⟨rfl, rfl⟩ := h
      rw [unpublished_some rfl, unpublished_none (hpub (by rw [hq]; rfl) (by simp [hq]))]
      simp [reports, writesState, hq, ActionRequestState.terminal]
  | failing step =>
      have hn := hpub (by rw [hq]; rfl) (by simp [hq])
      cases step with
      | publishState =>
          simp only [Task.redisOp, hq, failRequest, Option.some.injEq, Prod.mk.injEq] at h
          obtain ⟨rfl, rfl⟩ := h
          rw [unpublished_some rfl, unpublished_none hn]
          simp [reports, writesState, hq, ActionRequestState.terminal]
      | _ =>
          simp only [Task.redisOp, hq, failRequest, Option.some.injEq, Prod.mk.injEq] at h
          obtain ⟨-, rfl⟩ := h
          simp [reports, writesState, hq, unpublished]
  | publishResult | publishCounter =>
      simp only [Task.redisOp, hq, Option.some.injEq, Prod.mk.injEq] at h
      obtain ⟨-, rfl⟩ := h
      simp [reports, writesState, hq, unpublished]
  | _ => simp [Task.redisOp, hq] at h

theorem reports_of_ne {t : Option (Task F)} {keys : RequestKeys} {i : TaskInput}
    (hi : ∀ keys, i ≠ .redis keys) : reports t keys i = 0 := by
  cases i with
  | redis keys => exact absurd rfl (hi keys)
  | _ => rfl

/-! ## `command_server`'s share -/

/-- Short of an acceptance, it takes on a debt with the trigger and pays it itself. -/
theorem command_owing {g : Nat} {s s' : Shared F} {p p' : CommandPhase F} {i : CommandInput F}
    (h : CommandServer.step g s p i = some (s', p')) :
    (CommandServer.rejection s = none ∧ (∃ uuid, i = .admission uuid) ∧ owing p = 1)
      ∨ owing p' + turnsAway p s'.keys i = owing p + consumes p s'.keys i := by
  cases p with
  | idle =>
      cases i with
      | tick =>
          right
          simp only [CommandServer.step] at h
          split at h
          · cases h; rfl
          · split at h <;> cases h <;> rfl
      | _ => simp [CommandServer.step] at h
  | clearing triggered state =>
      cases i with
      | redis => cases h; exact .inr rfl
      | _ => simp [CommandServer.step] at h
  | cancelling triggered state =>
      cases i with
      | cancel => cases h; exact .inr (by cases triggered <;> rfl)
      | _ => simp [CommandServer.step] at h
  | consuming state =>
      cases i with
      | redis => cases h; exact .inr (by cases state <;> rfl)
      | _ => simp [CommandServer.step] at h
  | preparing =>
      cases i with
      | prepare r => cases r <;> cases h <;> exact .inr rfl
      | _ => simp [CommandServer.step] at h
  | checking command script =>
      cases i with
      | admission uuid =>
          simp only [CommandServer.step] at h
          split at h
          · cases h; exact .inr rfl
          · rename_i hn
            -- nothing stood against it: the goal that is accepted takes the debt over
            exact .inl ⟨hn, ⟨uuid, rfl⟩, rfl⟩
      | _ => simp [CommandServer.step] at h
  | announcing g command =>
      cases i with
      | redis => cases h; exact .inr rfl
      | _ => simp [CommandServer.step] at h
  | storing g command =>
      cases i with
      | store => cases h; exact .inr rfl
      | _ => simp [CommandServer.step] at h
  | failing reason step =>
      cases i with
      | redis => cases step <;> cases h <;> exact .inr rfl
      | _ => simp [CommandServer.step] at h

/-! ## Every step -/

theorem command_owed {i : CommandInput F} (hf : Fresh w) (hp : PendingAdmitted w)
    (h : World.step cfg w (.command i) = some w') :
    owed w' + turnsAway w.command w'.shared.keys i
      = owed w + consumes w.command w'.shared.keys i := by
  obtain ⟨s, p, hs, hs', hp'⟩ := World.step_command_eq h
  have how := command_owing hs
  rw [← hp', ← hs'] at how
  cases World.step_command h with
  | accept command script uuid hc hn =>
      -- the debt goes over to the new goal
      have htasks : ∑ g ∈ Finset.range w.goals, unpublished
          (Function.update w.task w.goals (some (Task.accepted uuid script command)) g)
          = ∑ g ∈ Finset.range w.goals, unpublished (w.task g) :=
        Finset.sum_congr rfl fun g hg => by
          rw [Function.update_of_ne (Nat.ne_of_lt (Finset.mem_range.mp hg))]
      simp only [owed, Finset.sum_range_succ, htasks, Function.update_self,
        unpublished_none (show (Task.accepted uuid script command).published = none from rfl), hc,
        owing, turnsAway, consumes]
      omega
  | store g command hc =>
      have hg : g < w.goals := by
        by_contra hge
        obtain ⟨t, ht, -⟩ := hp g (by rw [hc]; rfl)
        rw [hf g (by omega)] at ht
        cases ht
      have hspawn : unpublished ((w.task g).map Task.spawn) = unpublished (w.task g) := by
        cases w.task g <;> rfl
      have hsum := sum_update hg unpublished w.task ((w.task g).map Task.spawn)
      rw [hspawn] at hsum
      simp only [owed, Nat.add_right_cancel hsum, hc]
      rfl
  | cancel p =>
      rcases how with ⟨-, ⟨uuid, hi⟩, -⟩ | how
      · -- a cancel is no admission
        cases hi
      · simp only [owed] at how ⊢
        omega
  | other i keys p _ _ hrej =>
      rcases how with ⟨hn, ⟨uuid, rfl⟩, -⟩ | how
      · exact absurd hn (hrej uuid rfl)
      · simp only [owed] at how ⊢
        omega

theorem task_owed {g : Nat} {i : TaskInput} (hf : Fresh w)
    (hc : ∀ g t, w.task g = some t → Consistent t)
    (h : World.step cfg w (.task g i) = some w') :
    owed w' + reports (w.task g) w'.shared.keys i = owed w := by
  have hlt {t : Task F} (ht : w.task g = some t) : g < w.goals := by
    by_contra hge
    rw [hf g (by omega)] at ht
    cases ht
  by_cases hi : ∃ keys, i = .redis keys
  · obtain ⟨keys, rfl⟩ := hi
    obtain ⟨t, keys', t', ht, hop, rfl⟩ := step_task_redis h
    have hsum := sum_update (hlt ht) unpublished w.task (some t')
    have hone := unpublished_redis (hc g t ht) hop keys
    rw [ht] at hsum ⊢
    simp only [owed]
    omega
  · -- no other step of a task publishes anything
    have hne : ∀ keys, i ≠ .redis keys := fun keys he => hi ⟨keys, he⟩
    obtain ⟨t, t', ht, -, hm, rfl⟩ := World.step_task h
    have hsum := sum_update (hlt ht) unpublished w.task (some t')
    have hone : unpublished (some t') = unpublished (some t) := by
      simp only [unpublished, Option.any_some, Move.published hm hne]
    rw [reports_of_ne hne]
    rw [ht] at hsum
    simp only [owed]
    omega

/-- The books balance. -/
def Balanced (w : World F) (b : Books) : Prop := b.consumed = b.closed + owed w

theorem balanced_step {b : Books} (hB : Balanced w b) (hf : Fresh w) (hp : PendingAdmitted w)
    (hc : ∀ g t, w.task g = some t → Consistent t) (h : World.step cfg w a = some w') :
    Balanced w' (noteBooks cfg w a b) := by
  unfold Balanced at hB ⊢
  simp only [noteBooks, h]
  cases a with
  | command i =>
      have := command_owed hf hp h
      dsimp only
      omega
  | task g i =>
      have := task_owed hf hc h
      dsimp only
      omega
  | _ =>
      -- nobody else consumes a trigger, publishes, or has goals
      obtain ⟨ht, hg, hc'⟩ := step_others h (by simp) (by simp)
      simpa only [owed, ht, hg, hc'] using hB

section Reachable

variable [Zero F] {ok : World F → Action F → Prop}

/-- The driver with its books kept beside it. -/
abbrev BooksRun (cfg : Config F) (ok : World F → Action F → Prop) (x : World F × Books) : Prop :=
  Lts.ReachableBy (Lts.recorded (World.step cfg) (noteBooks cfg)) (fun x a => ok x.1 a)
    (World.init, {}) x

theorem consistent_reachable (h : Run cfg ok w) : ∀ g t, w.task g = some t → Consistent t :=
  fun g t ht => (memory_reachable h g t ht).toConsistent

theorem balanced_init : Balanced (World.init (F := F)) {} := by
  simp [Balanced, owed, World.init, owing]

/--
**Every trigger is answered once.** In every run, under any interleaving of the driver's tasks,
the triggers consumed in `initial` are as many as the terminal states that were written and those
still owed: by `command_server` for the request it is at, by each goal that has not been
published. So where nothing is under way each of them has had one terminal state and no more.
-/
theorem triggers_answered_once {x : World F × Books} (h : BooksRun cfg ok x) :
    x.2.consumed = x.2.closed + owing x.1.command
        + ∑ g ∈ Finset.range x.1.goals, unpublished (x.1.task g)
      ∧ (owing x.1.command = 0 → (∀ g t, x.1.task g = some t → t.published.isSome = true) →
        x.2.closed = x.2.consumed) := by
  have hB : Balanced x.1 x.2 := by
    refine h.invariant (I := fun x => Balanced x.1 x.2) balanced_init ?_
    intro y a y' hr hB _ hs
    obtain ⟨hstep, hnote⟩ := Lts.recorded_eq_some.mp hs
    have hrun : Run cfg (fun _ _ => True) y.1 := hr.forget fun _ _ _ => trivial
    rw [hnote]
    exact balanced_step hB (fresh_reachable hrun) (pendingAdmitted_reachable hrun)
      (consistent_reachable hrun) hstep
  have hB' : x.2.consumed = x.2.closed + owing x.1.command
      + ∑ g ∈ Finset.range x.1.goals, unpublished (x.1.task g) := by
    rw [Nat.add_assoc]; exact hB
  refine ⟨hB', ?_⟩
  intro hidle hall
  -- with every goal published there is nothing left to owe but what `command_server` does
  have hzero : ∑ g ∈ Finset.range x.1.goals, unpublished (x.1.task g) = 0 := by
    refine Finset.sum_eq_zero fun g _ => ?_
    cases ht : x.1.task g with
    | none => rfl
    | some t => exact unpublished_some (hall g t ht)
  omega

end Reachable

open Scenario

/-- One request that fails and one that is turned away meanwhile: two triggers, two answers. -/
theorem triggers_answered_once_trace : ∃ x : World Int × Books,
    BooksRun config (fun _ _ => True) x ∧ x.2.consumed = 2 ∧ x.2.closed = 2 := by
  have hrun : (Lts.runBy (Lts.recorded (World.step config) (noteBooks config)) (fun _ _ => True)
      (World.init, {}) (failing ++ List.replicate 5 (.command .redis)
        ++ fail 0 "the script never completed the handshake" turnedAway)).any (fun x =>
          x.2.consumed == 2 && owing x.1.command == 0 && x.1.goals == 1
            && unpublished (x.1.task 0) == 0) = true := by
    decide
  obtain ⟨x, hx, hp⟩ := Lts.exists_of_runBy hrun
  simp only [Bool.and_eq_true, beq_iff_eq] at hp
  obtain ⟨⟨⟨hcons, howing⟩, hgoals⟩, hpub⟩ := hp
  have hx' : BooksRun config (fun _ _ => True) x := hx
  have h := (triggers_answered_once hx').1
  simp only [hgoals, Finset.sum_range_one] at h
  exact ⟨x, hx', hcons, by omega⟩

end UrRedisDriver.Proof
