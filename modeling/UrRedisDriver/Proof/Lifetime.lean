import UrRedisDriver.Proof.Moves

/-!
# The life of a goal

A goal is *live* from the step in which it is accepted to the one in which its task runs
its teardown block. What is here holds in every run: goals are numbered in the order they
are accepted, an accepted goal has no task of its own until its senders are stored, and
every sender in `DriverState` belongs to a goal that is live.
-/

namespace UrRedisDriver.Proof

open UrRedisDriver

variable {F : Type} {cfg : Config F} {w w' : World F}

/-- Accepted, and not torn down yet. -/
abbrev Live (w : World F) (g : Nat) : Prop := w.alive g = true

theorem live_iff {g : Nat} : Live w g ↔ ∃ t, w.task g = some t ∧ t.phase ≠ .done := by
  unfold Live World.alive
  cases w.task g <;> simp

theorem not_live_of_none {g : Nat} (h : w.task g = none) : ¬ Live w g := by
  rw [live_iff]
  rintro ⟨t, ht, -⟩
  rw [h] at ht
  cases ht

/-! ## Steps of a task -/

theorem Leaves.ne_teardown {p : Phase} {e : Exit} : ¬ Task.Leaves p .teardown e := nofun

theorem Leaves.ne_cancel {p : Phase} {e : Exit} : ¬ Task.Leaves p .cancel e := nofun

theorem Leaves.ne_resume {p : Phase} {e : Exit} : ¬ Task.Leaves p .resume e := nofun

theorem Hops.phase_ne {p p' : Phase} {i : TaskInput} (h : Task.Hops p i p') :
    p ≠ .done ∧ p ≠ .admitted := by
  cases h <;> exact ⟨nofun, nofun⟩

theorem Hops.done {p p' : Phase} {i : TaskInput} (h : Task.Hops p i p') :
    p' = .done ↔ i = .teardown := by
  cases h <;> simp

theorem Leaves.phase_ne {p : Phase} {i : TaskInput} {e : Exit} (h : Task.Leaves p i e) :
    p ≠ .done ∧ p ≠ .admitted := by
  cases h with
  | verdict p v h => rcases h with rfl | rfl | rfl <;> exact ⟨nofun, nofun⟩
  | _ => exact ⟨nofun, nofun⟩

theorem publishing_ne {p : Phase} (h : p.publishing = true) : p ≠ .done ∧ p ≠ .admitted := by
  constructor <;> rintro rfl <;> cases h

theorem leave_phase (t : Task F) (e : Exit) : (t.leave e).phase.publishing = true := by
  unfold Task.leave
  dsimp only
  split <;> rfl

/-- Only a spawned task that has not been torn down takes steps. -/
theorem Move.phase_ne {t t' : Task F} {i : TaskInput} (h : Task.Move t i t') :
    t.phase ≠ .done ∧ t.phase ≠ .admitted := by
  cases h with
  | hop i p h => exact Hops.phase_ne h
  | leave i e h => exact Leaves.phase_ne h
  | publish keys p written h => exact publishing_ne h.publishing.1
  | install h | write h | handshake h | feedback m h | stop id h | restop id h | measure n next h
  | activate remaining nextScript h => rw [h]; exact ⟨nofun, nofun⟩

/-- The teardown is the only step that ends a task. -/
theorem Move.done {t t' : Task F} {i : TaskInput} (h : Task.Move t i t') (hi : i ≠ .teardown) :
    t'.phase ≠ .done := by
  cases h with
  | hop i p h => exact fun hp => hi ((Hops.done h).mp hp)
  | leave i e h => exact (publishing_ne (leave_phase t e)).1
  | publish keys p written h =>
      rcases h.publishing.2 with hp | rfl
      · exact (publishing_ne hp).1
      · exact nofun
  | feedback m h => rw [h]; exact nofun
  | install h | write h | handshake h | stop id h | restop id h | measure n next h
  | activate remaining nextScript h => exact nofun

/-- The teardown step itself. -/
theorem Move.of_teardown {t t' : Task F} (h : Task.Move t .teardown t') :
    t.phase = .teardown ∧ t'.phase = .done := by
  cases h with
  | hop i p h =>
      generalize t.phase = q at h
      cases h
      exact ⟨rfl, rfl⟩
  | leave i e h => exact absurd h Leaves.ne_teardown

/-- A cancel is taken in the wait loop. -/
theorem Move.of_cancel {t t' : Task F} (h : Task.Move t .cancel t') :
    t' = { t with phase := .cancelling } ∧ t.phase = .waiting := by
  cases h with
  | hop i p h =>
      generalize hq : t.phase = q at h
      cases h
      exact ⟨rfl, rfl⟩
  | leave i e h => exact absurd h Leaves.ne_cancel

/-- So is a resume. -/
theorem Move.of_resume {t t' : Task F} (h : Task.Move t .resume t') :
    t' = { t with phase := .measuring } ∧ t.phase = .waiting := by
  cases h with
  | hop i p h =>
      generalize hq : t.phase = q at h
      cases h
      exact ⟨rfl, rfl⟩
  | leave i e h => exact absurd h Leaves.ne_resume

/-! ## Which goals are live after a step -/

/-- A step of anything but `command_server` and the goals' tasks. -/
theorem step_others {a : Action F} (h : World.step cfg w a = some w')
    (hc : ∀ i, a ≠ .command i) (ht : ∀ g i, a ≠ .task g i) :
    w'.task = w.task ∧ w'.goals = w.goals ∧ w'.command = w.command := by
  cases a with
  | client i => rw [World.step_client h]; exact ⟨rfl, rfl, rfl⟩
  | robot i => obtain ⟨s, -, rfl⟩ := World.step_robot h; exact ⟨rfl, rfl, rfl⟩
  | command i => exact absurd rfl (hc i)
  | task g i => exact absurd rfl (ht g i)
  | socket i => obtain ⟨s, p, -, rfl⟩ := World.step_socket h; exact ⟨rfl, rfl, rfl⟩
  | realtime i => obtain ⟨s, p, -, rfl⟩ := World.step_realtime h; exact ⟨rfl, rfl, rfl⟩
  | dashboard i => cases World.step_dashboard h <;> exact ⟨rfl, rfl, rfl⟩
  | server i => obtain ⟨s, p, -, rfl⟩ := World.step_server h; exact ⟨rfl, rfl, rfl⟩

/-- Goals are numbered in the order they are accepted. -/
def Fresh (w : World F) : Prop := ∀ g, w.goals ≤ g → w.task g = none

/-- An accepted goal that has not been spawned has the task it was accepted with. -/
def PendingAdmitted (w : World F) : Prop :=
  ∀ g, w.command.pending = some g → ∃ t, w.task g = some t ∧ t.phase = .admitted

theorem fresh_step {a : Action F} (hf : Fresh w) (hp : PendingAdmitted w)
    (h : World.step cfg w a = some w') : Fresh w' := by
  intro g hg
  cases a with
  | command i =>
      cases World.step_command h with
      | accept command script uuid hc hn =>
          -- the number that is given away was the next one
          have hg' : w.goals + 1 ≤ g := hg
          simpa [Function.update_of_ne (show g ≠ w.goals by omega)] using hf g (by omega)
      | store g' command hc =>
          -- what is stored had been accepted, so its number is not a fresh one
          have hne : g ≠ g' := by
            rintro rfl
            obtain ⟨t, ht, -⟩ := hp g (by rw [hc]; rfl)
            rw [hf g hg] at ht
            cases ht
          simpa [Function.update_of_ne hne] using hf g hg
      | cancel => exact hf g hg
      | other => exact hf g hg
  | task g' i =>
      obtain ⟨t, t', ht, -, -, rfl⟩ := World.step_task h
      have hne : g ≠ g' := by
        rintro rfl
        rw [hf g hg] at ht
        cases ht
      simpa [Function.update_of_ne hne] using hf g hg
  | _ =>
      obtain ⟨ht, hn, -⟩ := step_others h (by simp) (by simp)
      rw [ht]
      exact hf g (hn ▸ hg)

theorem pendingAdmitted_step {a : Action F} (hp : PendingAdmitted w)
    (h : World.step cfg w a = some w') : PendingAdmitted w' := by
  intro g hg
  cases a with
  | command i =>
      cases World.step_command h with
      | accept command script uuid hc hn =>
          cases hg
          exact ⟨Task.accepted uuid script command, by simp, rfl⟩
      | store => cases hg
      | cancel p _ hn => exact absurd (hn ▸ hg) (by simp)
      | other i keys p _ hn => exact hp g (hn ▸ hg)
  | task g' i =>
      obtain ⟨t, t', ht, -, hm, rfl⟩ := World.step_task h
      obtain ⟨u, hu, hua⟩ := hp g hg
      -- a task that has not been spawned makes no step
      have hne : g ≠ g' := by
        rintro rfl
        rw [ht] at hu
        cases hu
        exact (Move.phase_ne hm).2 hua
      exact ⟨u, by simpa [Function.update_of_ne hne] using hu, hua⟩
  | _ =>
      obtain ⟨ht, -, hc⟩ := step_others h (by simp) (by simp)
      rw [ht]
      exact hp g (hc ▸ hg)

/-! ## Every run -/

section Reachable

variable [Zero F]

/-- The states of a run, under whatever condition on its steps. -/
abbrev Run (cfg : Config F) (ok : World F → Action F → Prop) (w : World F) : Prop :=
  Lts.ReachableBy (World.step cfg) ok World.init w

variable {ok : World F → Action F → Prop}

theorem pendingAdmitted_reachable (h : Run cfg ok w) : PendingAdmitted w :=
  h.invariant nofun fun _ _ _ _ hp _ hs => pendingAdmitted_step hp hs

theorem fresh_reachable (h : Run cfg ok w) : Fresh w :=
  h.invariant (fun _ _ => rfl) fun _ _ _ hr hf _ hs =>
    fresh_step hf (pendingAdmitted_reachable hr) hs

end Reachable

/-! ## Which goals are live after a step -/

/-- Where a goal's task after a step comes from. -/
inductive TaskOrigin (w : World F) (a : Action F) (g : Nat) (t' : Task F) : Prop
  | same : w.task g = some t' → TaskOrigin w a g t'
  | moved (t : Task F) (i : TaskInput) : a = .task g i → w.task g = some t →
      w.ready g t i = true → Task.Move t i t' → TaskOrigin w a g t'
  | accepted (command : RobotCommand F) (script uuid : String) : a = .command (.admission uuid) →
      CommandServer.rejection w.shared = none → g = w.goals →
      t' = Task.accepted uuid script command → TaskOrigin w a g t'
  | spawned (t : Task F) : a = .command .store → w.command.pending = some g →
      w.task g = some t → t.phase = .admitted → t' = t.spawn → TaskOrigin w a g t'

theorem task_origin {a : Action F} {g : Nat} {t' : Task F} (hp : PendingAdmitted w)
    (h : World.step cfg w a = some w') (ht' : w'.task g = some t') : TaskOrigin w a g t' := by
  cases a with
  | command i =>
      cases World.step_command h with
      | accept command script uuid hc hn =>
          -- the new goal is numbered `goals`; every other keeps its task
          by_cases hg : g = w.goals
          · simp only [hg, Function.update_self, Option.some.injEq] at ht'
            exact .accepted command script uuid rfl hn hg ht'.symm
          · simp only [Function.update_of_ne hg] at ht'
            exact .same ht'
      | store g' command hc =>
          -- only the goal that was accepted has its task spawned
          by_cases hg : g = g'
          · subst hg
            obtain ⟨t, ht, hta⟩ := hp g (by rw [hc]; rfl)
            simp only [Function.update_self, ht, Option.map_some, Option.some.injEq] at ht'
            exact .spawned t rfl (by rw [hc]; rfl) ht hta ht'.symm
          · simp only [Function.update_of_ne hg] at ht'
            exact .same ht'
      | cancel => exact .same ht'
      | other => exact .same ht'
  | task g' i =>
      -- a task's step is a step of that task alone
      obtain ⟨t, u, ht, hr, hm, rfl⟩ := World.step_task h
      by_cases hg : g = g'
      · subst hg
        simp only [Function.update_self, Option.some.injEq] at ht'
        exact .moved t i rfl ht hr (ht' ▸ hm)
      · simp only [Function.update_of_ne hg] at ht'
        exact .same ht'
  | _ =>
      obtain ⟨ht, -, -⟩ := step_others h (by simp) (by simp)
      exact .same (ht ▸ ht')

/-- A goal that has a task keeps one. -/
theorem task_persists {a : Action F} {g : Nat} {t : Task F} (h : World.step cfg w a = some w')
    (ht : w.task g = some t) : ∃ t', w'.task g = some t' := by
  have hupdate (g' : Nat) (u : Task F) : ∃ t', Function.update w.task g' (some u) g = some t' := by
    by_cases hg : g = g'
    · subst hg; exact ⟨u, Function.update_self ..⟩
    · rw [Function.update_of_ne hg]; exact ⟨t, ht⟩
  cases a with
  | command i =>
      cases World.step_command h with
      | accept command script uuid hc hn => exact hupdate _ _
      | store g' command hc =>
          by_cases hg : g = g'
          · subst hg; exact ⟨t.spawn, by simp [ht]⟩
          · exact ⟨t, by simpa only [Function.update_of_ne hg] using ht⟩
      | cancel => exact ⟨t, ht⟩
      | other => exact ⟨t, ht⟩
  | task g' i =>
      obtain ⟨u, u', -, -, -, rfl⟩ := World.step_task h
      exact hupdate _ _
  | _ =>
      obtain ⟨he, -, -⟩ := step_others h (by simp) (by simp)
      exact ⟨t, he ▸ ht⟩

/-- A goal becomes live by being accepted, and in no other way. -/
theorem live_step {a : Action F} {g : Nat} (hp : PendingAdmitted w)
    (h : World.step cfg w a = some w') (hl : Live w' g) :
    Live w g ∨ ∃ uuid, a = .command (.admission uuid) ∧ CommandServer.rejection w.shared = none
      ∧ g = w.goals := by
  obtain ⟨t', ht', hd⟩ := live_iff.mp hl
  cases task_origin hp h ht' with
  | same ht => exact .inl (live_iff.mpr ⟨t', ht, hd⟩)
  | moved t i _ ht _ hm => exact .inl (live_iff.mpr ⟨t, ht, (Move.phase_ne hm).1⟩)
  | accepted command script uuid ha hn hg _ => exact .inr ⟨uuid, ha, hn, hg⟩
  | spawned t _ _ ht hta _ => exact .inl (live_iff.mpr ⟨t, ht, by rw [hta]; exact nofun⟩)

/-- A live goal stays live until its own teardown. -/
theorem live_of_step {a : Action F} {g : Nat} (hf : Fresh w)
    (h : World.step cfg w a = some w') (hl : Live w g) (ha : a ≠ .task g .teardown) :
    Live w' g := by
  obtain ⟨t, ht, hd⟩ := live_iff.mp hl
  cases a with
  | command i =>
      cases World.step_command h with
      | accept command script uuid hc hn =>
          have hg : g ≠ w.goals := by
            rintro rfl
            rw [hf _ le_rfl] at ht
            cases ht
          exact live_iff.mpr ⟨t, by simpa only [Function.update_of_ne hg] using ht, hd⟩
      | store g' command hc =>
          by_cases hg : g = g'
          · subst hg
            exact live_iff.mpr ⟨t.spawn, by simp [ht], nofun⟩
          · exact live_iff.mpr ⟨t, by simpa only [Function.update_of_ne hg] using ht, hd⟩
      | cancel => exact live_iff.mpr ⟨t, ht, hd⟩
      | other => exact live_iff.mpr ⟨t, ht, hd⟩
  | task g' i =>
      obtain ⟨u, u', hu, -, hm, rfl⟩ := World.step_task h
      by_cases hg : g = g'
      · subst hg
        -- only its own teardown ends a goal
        have hi : i ≠ .teardown := by rintro rfl; exact ha rfl
        exact live_iff.mpr ⟨u', Function.update_self .., Move.done hm hi⟩
      · exact live_iff.mpr ⟨t, by simpa only [Function.update_of_ne hg] using ht, hd⟩
  | _ =>
      obtain ⟨he, -, -⟩ := step_others h (by simp) (by simp)
      exact live_iff.mpr ⟨t, he ▸ ht, hd⟩

/-- What acceptance establishes and spawning and every step keep holds of every task. -/
theorem task_invariant [Zero F] {ok : World F → Action F → Prop} {I : Task F → Prop}
    (haccept : ∀ uuid script command, I (Task.accepted uuid script command))
    (hspawn : ∀ t, I t → t.phase = .admitted → I t.spawn)
    (hmove : ∀ t i t', I t → Task.Move t i t' → I t')
    (h : Run cfg ok w) : ∀ g t, w.task g = some t → I t := by
  refine h.invariant (I := fun w => ∀ g t, w.task g = some t → I t) (fun _ _ ht => by cases ht) ?_
  intro w a w' hr hI _ hs g t' ht'
  cases task_origin (pendingAdmitted_reachable hr) hs ht' with
  | same ht => exact hI g t' ht
  | moved t i _ ht _ hm => exact hmove t i t' (hI g t ht) hm
  | accepted command script uuid _ _ _ he => rw [he]; exact haccept uuid script command
  | spawned t _ _ ht hta he => rw [he]; exact hspawn t (hI g t ht) hta

end UrRedisDriver.Proof
