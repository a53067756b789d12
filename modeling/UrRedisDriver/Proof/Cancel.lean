import UrRedisDriver.Proof.Signals

/-!
# What a cancelled goal still sends

A cancel waits in its channel until the wait loop gets to it. A goal that is still opening
its connection, or in the middle of a re-issue, writes the script it was about to write;
and a resume that is there at the same time can be taken first. Once the wait loop has
taken the cancel nothing more is written.
-/

namespace UrRedisDriver.Proof

open UrRedisDriver

variable {F : Type} {cfg : Config F} {w w' : World F}

/-- The scripts a task writes from here without taking another resume. -/
def Phase.pendingWrites : Phase → Nat
  | .admitted | .connecting | .installing | .writing | .measuring | .claiming | .restopping
  | .restopPending | .draining | .resetting | .activating => 1
  | _ => 0

/-- Whether the wait loop took a resume, as a number. -/
def resumes : TaskInput → Nat
  | .resume => 1
  | _ => 0

/-- Whether the step is goal `g` taking a resume, as a number. -/
def resumesOf (g : Nat) : Action F → Nat
  | .task g' i => if g' = g then resumes i else 0
  | _ => 0

/-- The scripts a goal has written or is about to. -/
def committed (g : Nat) (w : World F) : Nat :=
  match w.task g with
  | some t => t.scripts + Phase.pendingWrites t.phase
  | none => 1

/-- Past its cancel: the stop of the script, and everything after the attempt loop. -/
def Phase.settled : Phase → Bool
  | .cancelling | .stopPending | .teardown | .done => true
  | p => p.publishing

/-! ## Steps of a task -/

theorem Hops.pendingWrites {p p' : Phase} {i : TaskInput} (h : Task.Hops p i p') :
    Phase.pendingWrites p' ≤ Phase.pendingWrites p + resumes i := by
  cases h <;> simp [Phase.pendingWrites, resumes]

theorem publishing_pendingWrites {p : Phase} (h : p.publishing = true) :
    Phase.pendingWrites p = 0 := by
  cases p <;> first | rfl | cases h

theorem leave_scripts (t : Task F) (e : Exit) : (t.leave e).scripts = t.scripts := rfl

theorem Move.committed_le {t t' : Task F} {i : TaskInput} (h : Task.Move t i t') :
    t'.scripts + Phase.pendingWrites t'.phase
      ≤ t.scripts + Phase.pendingWrites t.phase + resumes i := by
  cases h with
  | hop i p hh =>
      have := Hops.pendingWrites hh
      dsimp only
      omega
  | leave i e hh =>
      -- whoever leaves will write no more scripts
      rw [leave_scripts, publishing_pendingWrites (leave_phase t e)]
      omega
  | publish keys p written hp =>
      have hz : Phase.pendingWrites p = 0 := by
        rcases hp.publishing.2 with hp' | rfl
        · exact publishing_pendingWrites hp'
        · rfl
      dsimp only
      omega
  | install hp | write hp | handshake hp | stop id hp | restop id hp | measure n next hp
  | activate remaining nextScript hp => simp [hp, Phase.pendingWrites]
  | feedback m hp hf => simp

theorem Move.settled {t t' : Task F} {i : TaskInput} (h : Task.Move t i t')
    (hs : Phase.settled t.phase = true) :
    Phase.settled t'.phase = true ∧ t'.scripts = t.scripts := by
  cases h with
  | hop i p hh =>
      generalize t.phase = q at hh hs
      cases hh <;> first | exact ⟨rfl, rfl⟩ | cases hs
  | leave i e hh =>
      refine ⟨?_, rfl⟩
      have := leave_phase t e
      cases hq : (t.leave e).phase <;> rw [hq] at this <;> first | rfl | cases this
  | publish keys p written hp =>
      refine ⟨?_, rfl⟩
      rcases hp.publishing.2 with hp' | rfl
      · cases p <;> first | rfl | cases hp'
      · rfl
  | stop id hp => exact ⟨rfl, rfl⟩
  | feedback m hp hf => exact ⟨hs, rfl⟩
  | install hp | write hp | handshake hp | restop id hp | measure n next hp
  | activate remaining nextScript hp => rw [hp] at hs; cases hs

/-! ## Steps of the driver -/

theorem committed_step {a : Action F} {g : Nat} (hf : Fresh w) (hp : PendingAdmitted w)
    (h : World.step cfg w a = some w') : committed g w' ≤ committed g w + resumesOf g a := by
  cases ht' : w'.task g with
  | none =>
      have ht : w.task g = none := by
        by_contra hn
        obtain ⟨t, ht⟩ := Option.ne_none_iff_exists'.mp hn
        obtain ⟨t', he⟩ := task_persists h ht
        rw [ht'] at he
        cases he
      rw [committed, committed, ht, ht']
      omega
  | some t' =>
      rw [committed, ht']
      cases task_origin hp h ht' with
      | same ht => rw [committed, ht]; omega
      | moved t i ha ht _ hm =>
          subst ha
          have := Move.committed_le hm
          simp only [committed, ht, resumesOf, if_pos]
          omega
      | accepted command script uuid _ _ hg he =>
          -- a new goal has one script to write, and the count begins there
          simp [committed, hf g hg.ge, he, Task.accepted, Phase.pendingWrites]
      | spawned t _ _ ht hta he =>
          simp [committed, ht, he, hta, Task.spawn, Phase.pendingWrites]

/-- A goal past its cancel stays there, and writes nothing. -/
theorem settled_step {a : Action F} {g n : Nat} (hf : Fresh w) (hp : PendingAdmitted w)
    (h : World.step cfg w a = some w')
    (hs : ∃ t, w.task g = some t ∧ Phase.settled t.phase = true ∧ t.scripts = n) :
    ∃ t, w'.task g = some t ∧ Phase.settled t.phase = true ∧ t.scripts = n := by
  obtain ⟨t, ht, hset, hn⟩ := hs
  obtain ⟨t', ht'⟩ := task_persists h ht
  refine ⟨t', ht', ?_⟩
  cases task_origin hp h ht' with
  | same hsame =>
      rw [ht] at hsame
      cases hsame
      exact ⟨hset, hn⟩
  | moved u i _ hu _ hm =>
      rw [ht] at hu
      cases hu
      obtain ⟨hset', hn'⟩ := Move.settled hm hset
      exact ⟨hset', hn' ▸ hn⟩
  | accepted command script uuid _ _ hg _ =>
      rw [hf g hg.ge] at ht
      cases ht
  | spawned u _ _ hu hta _ =>
      -- a task that is settled has been spawned long ago
      rw [ht] at hu
      cases hu
      rw [hta] at hset
      cases hset

section Reachable

variable [Zero F]

/--
**What a cancelled goal still sends.** From the step that delivers a cancel to a goal on,
the goal writes no script but the one it was about to write, if it was opening its
connection or re-issuing, and one for each resume its wait loop takes first. Until the wait
loop takes the cancel it is there to be taken, and from then on no script is written.
-/
theorem cancelled_scripts {w₀ w₁ : World F} {g : Nat} {acts : List (Action F)} {t₀ t₁ : Task F}
    (hr : Lts.Reachable (World.step cfg) World.init w)
    (hs : World.step cfg w (.command .cancel) = some w₀)
    (hc : w.shared.ds.cancelSender = some g)
    (hrun : Lts.run (World.step cfg) w₀ acts = some w₁)
    (ht₀ : w₀.task g = some t₀) (ht₁ : w₁.task g = some t₁) :
    t₁.scripts ≤ t₀.scripts + Phase.pendingWrites t₀.phase + (acts.map (resumesOf g)).sum
    ∧ (Action.task g .cancel ∉ acts → w₁.shared.cancelBox g = true)
    ∧ ∀ pre post u t, acts = pre ++ .task g .cancel :: post →
        Lts.run (World.step cfg) w₀ pre = some u → u.task g = some t → t₁.scripts = t.scripts := by
  have hr₀ : Lts.Reachable (World.step cfg) World.init w₀ := .tail hr trivial hs
  refine ⟨?_, ?_, ?_⟩
  · have hle := Lts.run_le (m := committed g) (c := resumesOf g)
      (fun u a v hu h => committed_step (fresh_reachable hu) (pendingAdmitted_reachable hu) h)
      hr₀ hrun
    -- scripts written and still owed grow by the resumes the wait loop takes, by no more
    rw [committed, committed, ht₀, ht₁] at hle
    dsimp only at hle
    omega
  · have hbox : w₀.shared.cancelBox g = true := by
      cases World.step_command hs with
      | cancel p _ _ =>
          dsimp only
          rw [CommandServer.deliverCancel, hc]
          exact update_true_of (.inl rfl)
      | other _ keys p hplain => cases hplain
    refine Lts.run_induction (P := fun as v => Action.task g .cancel ∉ as →
      v.shared.cancelBox g = true) (fun _ => hbox) ?_ hrun
    intro as u a v _ ih h hn
    simp only [List.mem_append, List.mem_singleton, not_or] at hn
    exact cancelBox_step h (fun ha => hn.2 ha.symm) (ih hn.1)
  · rintro pre post u t rfl hpre ht
    rw [Lts.run_append, hpre, Option.bind_some, Lts.run_cons] at hrun
    obtain ⟨v, hv, hpost⟩ := Option.bind_eq_some_iff.mp hrun
    -- the goal is settled once it has taken the cancel, and stays so
    have hrv : Lts.Reachable (World.step cfg) World.init v :=
      .tail (Lts.reachable_of_run hr₀ hpre) trivial hv
    have hset : ∃ x, v.task g = some x ∧ Phase.settled x.phase = true
        ∧ x.scripts = t.scripts := by
      obtain ⟨x, x', hx, -, hm, rfl⟩ := World.step_task hv
      rw [ht] at hx
      cases hx
      obtain ⟨rfl, -⟩ := Move.of_cancel hm
      exact ⟨_, Function.update_self .., rfl, rfl⟩
    obtain ⟨x, hx, -, hn⟩ := Lts.run_keeps (fun a b c hb hI h =>
      settled_step (fresh_reachable hb) (pendingAdmitted_reachable hb) h hI) hrv hset hpost
    rw [ht₁] at hx
    cases hx
    exact hn

end Reachable

open Scenario

/-- A cancel delivered while the connection is being opened: the script is still written. -/
theorem not_cancelled_scripts :
    ¬ ∀ (w w₀ w₁ : World Int) (g : Nat) (acts : List (Action Int)) (t₀ t₁ : Task Int),
      Lts.Reachable (World.step config) World.init w →
      World.step config w (.command .cancel) = some w₀ → w.shared.ds.cancelSender = some g →
      Lts.run (World.step config) w₀ acts = some w₁ → w₀.task g = some t₀ →
      w₁.task g = some t₁ → t₁.scripts = t₀.scripts := by
  intro h
  have hrun : (Lts.run (World.step config) World.init (start ++ request "a" ++ askCancel)).any
      (fun w => w.shared.ds.cancelSender == some 0
        && (World.step config w (.command .cancel)).any fun w₀ =>
          (w₀.task 0).any (fun t => t.scripts == 0)
            && (Lts.run (World.step config) w₀ (launch 0)).any fun w₁ =>
              (w₁.task 0).any fun t => t.scripts == 1) = true := by
    decide
  obtain ⟨w, hw, hp⟩ := Lts.exists_of_run hrun
  obtain ⟨hc, hp⟩ := Bool.and_eq_true_iff.mp hp
  obtain ⟨w₀, hs, hp⟩ := (Option.any_eq_true _ _).mp hp
  obtain ⟨h₀, hp⟩ := Bool.and_eq_true_iff.mp hp
  obtain ⟨t₀, ht₀, hn₀⟩ := (Option.any_eq_true _ _).mp h₀
  obtain ⟨w₁, hrun₁, h₁⟩ := (Option.any_eq_true _ _).mp hp
  obtain ⟨t₁, ht₁, hn₁⟩ := (Option.any_eq_true _ _).mp h₁
  have hsame := h w w₀ w₁ 0 (launch 0) t₀ t₁ hw hs (by simpa using hc) hrun₁ ht₀ ht₁
  rw [eq_of_beq hn₀, eq_of_beq hn₁] at hsame
  cases hsame

/-- The same run up to the wait loop taking the cancel: one script, and no other. -/
theorem cancelled_scripts_trace : ∃ (w₀ w₁ : World Int) (t₀ t₁ : Task Int),
    w₀.task 0 = some t₀ ∧ w₁.task 0 = some t₁ ∧ t₀.phase = .connecting ∧ t₁.phase = .cancelling
      ∧ t₁.scripts ≤ t₀.scripts + 1 := by
  have hrun : (Lts.run (World.step config) World.init (start ++ request "a" ++ askCancel)).any
      (fun w => w.shared.ds.cancelSender == some 0
        && (World.step config w (.command .cancel)).any fun w₀ =>
          (w₀.task 0).any (fun t => t.phase == .connecting)
            && (Lts.run (World.step config) w₀
                (launch 0 ++ shake ⟨0, 0⟩ "a" ++ [.task 0 .cancel])).any fun w₁ =>
              (w₁.task 0).any fun t => t.phase == .cancelling) = true := by
    decide
  obtain ⟨w, hw, hp⟩ := Lts.exists_of_run hrun
  obtain ⟨hc, hp⟩ := Bool.and_eq_true_iff.mp hp
  obtain ⟨w₀, hs, hp⟩ := (Option.any_eq_true _ _).mp hp
  obtain ⟨h₀, hp⟩ := Bool.and_eq_true_iff.mp hp
  obtain ⟨t₀, ht₀, hp₀⟩ := (Option.any_eq_true _ _).mp h₀
  obtain ⟨w₁, hrun₁, h₁⟩ := (Option.any_eq_true _ _).mp hp
  obtain ⟨t₁, ht₁, hp₁⟩ := (Option.any_eq_true _ _).mp h₁
  have hle := (cancelled_scripts hw hs (by simpa using hc) hrun₁ ht₀ ht₁).1
  rw [eq_of_beq hp₀] at hle
  exact ⟨w₀, w₁, t₀, t₁, ht₀, ht₁, eq_of_beq hp₀, eq_of_beq hp₁, hle⟩

end UrRedisDriver.Proof
