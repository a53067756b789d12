import UrRedisDriver.Proof.Attribution
import UrRedisDriver.Proof.Requests
import UrRedisDriver.Proof.Verdict

/-!
# What a goal is released on

A goal is torn down on one of three grounds: its script was heard to end, a stop for it was
acknowledged, or the request was failed for a reason that is published with it. On the
third the script may still be there: a refused resume leaves it paused on purpose.
-/

namespace UrRedisDriver.Proof

open UrRedisDriver

variable {F : Type} {cfg : Config F} {w w' : World F}

/-- The exits that give a goal up without its script having been heard from. -/
def Exit.givesUp : Exit → Bool
  | .connectFailed _ | .writeFailed _ | .noHandshake | .verdict none | .stopUnanswered
  | .notResumable _ | .notRendered _ => true
  | _ => false

/-- The value a resolver sends. -/
def Resolver.value : Resolver → Bool
  | .ok _ => true
  | _ => false

/-- The script whose connection a resolver acted on. -/
def Resolver.script : Resolver → Option Chan
  | .ok c | .error c | .closed c => some c
  | .safetyStop => none

/-! ## What a task remembers of its attempts -/

/-- The attempt's script has been written and the loop not left. -/
def Phase.sent : Phase → Bool
  | .handshaking | .waiting | .cancelling | .stopPending | .measuring | .claiming
  | .restopping | .restopPending | .draining | .resetting | .activating => true
  | _ => false

/-- Which attempt's channels and which attempt's script were the last. -/
structure Memory (t : Task F) : Prop extends Consistent t where
  /-- An attempt that has no channels yet is a new one. -/
  fresh : t.phase = .admitted ∨ t.phase = .connecting ∨ t.phase = .installing →
    t.installed = true → t.lastInstall < t.attempt
  writing : t.phase = .writing → t.installed = true ∧ t.lastInstall = t.attempt
  sent : Phase.sent t.phase = true →
    t.installed = true ∧ t.lastInstall = t.attempt ∧ t.lastScript = t.attempt
  verdict : ∀ v, t.exit = some (.verdict v) → t.lastScript = t.attempt

theorem Hops.memory {p p' : Phase} {i : TaskInput} (h : Task.Hops p i p') :
    (p' = .admitted ∨ p' = .connecting ∨ p' = .installing →
      p = .admitted ∨ p = .connecting ∨ p = .installing)
    ∧ p' ≠ .writing ∧ (Phase.sent p' = true → Phase.sent p = true) := by
  cases h <;> simp [Phase.sent]

theorem publishing_memory {p : Phase} (h : p.publishing = true ∨ p = .teardown) :
    ¬ (p = .admitted ∨ p = .connecting ∨ p = .installing) ∧ p ≠ .writing
    ∧ ¬ Phase.sent p = true := by
  rcases h with h | rfl
  · cases p <;> simp_all [Phase.publishing, Phase.sent]
  · simp [Phase.sent]

theorem Leaves.sent {p : Phase} {i : TaskInput} {v : Option Bool}
    (h : Task.Leaves p i (.verdict v)) : Phase.sent p = true := by
  cases h with
  | verdict _ _ h => rcases h with rfl | rfl | rfl <;> rfl

/-- A step inside the span of one script. -/
theorem Memory.of_sent {t t' : Task F} (hc : Consistent t')
    (hs : t.installed = true ∧ t.lastInstall = t.attempt ∧ t.lastScript = t.attempt)
    (hp : Phase.sent t'.phase = true) (hi : t'.installed = t.installed)
    (hl : t'.lastInstall = t.lastInstall) (ha : t'.attempt = t.attempt)
    (hw : t'.lastScript = t.lastScript) : Memory t' where
  toConsistent := hc
  fresh h := by rcases h with h | h | h <;> rw [h] at hp <;> cases hp
  writing h := by rw [h] at hp; cases hp
  sent _ := by rw [hi, hl, ha, hw]; exact hs
  verdict _ _ := by rw [hw, ha]; exact hs.2.2

theorem Memory.step {t t' : Task F} {i : TaskInput} (h : Memory t) (hm : Task.Move t i t') :
    Memory t' := by
  have hc := h.toConsistent.step hm
  cases hm with
  | hop i p hh =>
      obtain ⟨hfresh, hwriting, hsent⟩ := Hops.memory hh
      exact ⟨hc, fun hp => h.fresh (hfresh hp), fun hp => absurd hp hwriting,
        fun hp => h.sent (hsent hp), h.verdict⟩
  | leave i e hh =>
      obtain ⟨hfresh, hwriting, hsent⟩ := publishing_memory (.inl (leave_phase t e))
      refine ⟨hc, fun hp => absurd hp hfresh, fun hp => absurd hp hwriting,
        fun hp => absurd hp hsent, fun v hv => ?_⟩
      cases hv
      exact (h.sent (Leaves.sent hh)).2.2
  | install hp =>
      refine ⟨hc, nofun, fun _ => ⟨rfl, rfl⟩, nofun, fun v hv => ?_⟩
      rw [h.exit_none (by rw [hp]; exact ⟨rfl, nofun, nofun⟩)] at hv
      cases hv
  | write hp =>
      obtain ⟨hinstalled, hlast⟩ := h.writing hp
      exact ⟨hc, nofun, nofun, fun _ => ⟨hinstalled, hlast, rfl⟩, fun _ _ => rfl⟩
  | activate remaining nextScript hp =>
      -- the next attempt comes after the one whose channels were installed last
      have hs := h.sent (by rw [hp]; rfl)
      refine ⟨hc, fun _ _ => ?_, nofun, nofun, fun v hv => ?_⟩
      · exact Nat.lt_succ_of_le hs.2.1.le
      · rw [h.exit_none (by rw [hp]; exact ⟨rfl, nofun, nofun⟩)] at hv
        cases hv
  | publish keys p written hh =>
      obtain ⟨hfresh, hwriting, hsent⟩ := publishing_memory hh.publishing.2
      exact ⟨hc, fun hp => absurd hp hfresh, fun hp => absurd hp hwriting,
        fun hp => absurd hp hsent, h.verdict⟩
  | feedback m hp hf =>
      have hs : Phase.sent t.phase = true := by rw [hp]; rfl
      exact .of_sent hc (h.sent hs) hs rfl rfl rfl rfl
  | handshake hp | stop id hp | restop id hp | measure n next hp =>
      exact .of_sent hc (h.sent (by rw [hp]; rfl)) rfl rfl rfl rfl rfl

theorem memory_reachable [Zero F] {ok : World F → Action F → Prop} (h : Run cfg ok w) :
    ∀ g t, w.task g = some t → Memory t := by
  refine task_invariant (fun uuid script command => ?_) (fun t hI hp => ?_)
    (fun t i t' hI hm => hI.step hm) h
  · exact ⟨⟨fun _ => ⟨rfl, rfl, nofun, nofun⟩, nofun⟩, fun _ h => (by cases h), nofun, nofun, nofun⟩
  · have hl : Phase.looping t.phase := by rw [hp]; exact ⟨rfl, nofun, nofun⟩
    have hexit := hI.exit_none hl
    exact ⟨⟨fun _ => ⟨(hI.looping hexit).1, rfl, nofun, nofun⟩,
        fun e he => by rw [show t.exit = some e from he] at hexit; cases hexit⟩,
      fun _ => hI.fresh (.inl hp), nofun, nofun, hI.verdict⟩

/-! ## What a goal channel was resolved by -/

/-- A step resolves the goal whose sender is in `DriverState`, or resolves none. -/
inductive Resolving (w w' : World F) : Prop
  | resolves (ch : Chan) (r : Resolver) : w.shared.ds.goalSender = some ch →
      (∀ c, Resolver.script r = some c → c ∈ audible w) → w'.task = w.task →
      w'.shared.resolvedBy = Function.update w.shared.resolvedBy ch (some r) →
      w'.shared.goalBox = Function.update w.shared.goalBox ch (some (Resolver.value r)) →
      w'.shared.ds.goalSender = none → Resolving w w'
  | none : w'.shared.resolvedBy = w.shared.resolvedBy →
      (∀ ch v, w'.shared.goalBox ch = some v → w.shared.goalBox ch = some v) → Resolving w w'

theorem Resolving.of_same {w w' : World F} (hr : w'.shared.resolvedBy = w.shared.resolvedBy)
    (hb : w'.shared.goalBox = w.shared.goalBox) : Resolving w w' :=
  .none hr fun _ _ h => hb ▸ h

theorem Resolving.of_resolveGoal {w w' : World F} {r : Resolver}
    (hs : ∀ c, Resolver.script r = some c → c ∈ audible w) (ht : w'.task = w.task)
    (hr : w'.shared.resolvedBy = (w.shared.resolveGoal (Resolver.value r) r).resolvedBy)
    (hb : w'.shared.goalBox = (w.shared.resolveGoal (Resolver.value r) r).goalBox)
    (hg' : w'.shared.ds.goalSender
      = (w.shared.resolveGoal (Resolver.value r) r).ds.goalSender) :
    Resolving w w' := by
  cases hg : w.shared.ds.goalSender with
  -- no sender, so nobody is resolved
  | none =>
      simp only [Shared.resolveGoal, hg] at hr hb
      exact .of_same hr hb
  | some ch =>
      simp only [Shared.resolveGoal, hg] at hr hb hg'
      exact .resolves ch r hg hs ht hr hb hg'

theorem effect_resolving {up : Bool} {s : Shared F} {g : Nat} {t : Task F} (i : TaskInput) :
    (World.effect cfg up s g t i).resolvedBy = s.resolvedBy
    ∧ ∀ ch v, (World.effect cfg up s g t i).goalBox ch = some v → s.goalBox ch = some v := by
  -- a task takes from its channel and never puts anything there
  have hshrink (ch ch' : Chan) (v : Bool)
      (h : Function.update s.goalBox ch none ch' = some v) : s.goalBox ch' = some v := by
    by_cases he : ch' = ch
    · rw [he, Function.update_self] at h; cases h
    · rwa [Function.update_of_ne he] at h
  cases i with
  | goal v => exact ⟨rfl, hshrink _⟩
  | drain v => exact ⟨rfl, hshrink _⟩
  | write r => cases r <;> exact ⟨rfl, fun _ _ h => h⟩
  | feedback m => cases m <;> exact ⟨rfl, fun _ _ h => h⟩
  | sendStop r => cases r <;> exact ⟨rfl, fun _ _ h => h⟩
  | redis keys =>
      simp only [World.effect]
      split <;> exact ⟨rfl, fun _ _ h => h⟩
  | _ => exact ⟨rfl, fun _ _ h => h⟩

theorem resolving_step {a : Action F} (h : World.step cfg w a = some w') : Resolving w w' := by
  cases a with
  | client i | robot i | server i =>
      obtain ⟨_, _, _, _, _, _, _, rfl⟩ := World.step_outside h rfl
      exact .of_same rfl rfl
  | command i =>
      obtain ⟨_, _, _, _, _, _, _, _, _, _, rfl⟩ := World.step_command_frame h
      exact .of_same rfl rfl
  | task g i =>
      obtain ⟨t, t', -, -, -, rfl⟩ := World.step_task h
      exact .none (effect_resolving i).1 (effect_resolving i).2
  | socket i =>
      obtain ⟨s, p, hm, rfl⟩ := World.step_socket h
      cases hm with
      | ok c ch hp =>
          -- the script that is heard is on a connection, so it has been written
          refine .of_resolveGoal (r := .ok c.script) (fun c' hc => ?_) rfl rfl rfl rfl
          cases hc
          exact conn_audible (by rw [hp]; rfl)
      | error c ch hp =>
          refine .of_resolveGoal (r := .error c.script) (fun c' hc => ?_) rfl rfl rfl rfl
          cases hc
          exact conn_audible (by rw [hp]; rfl)
      | close c ch hp =>
          refine .of_resolveGoal (r := .closed c.script) (fun c' hc => ?_) rfl rfl rfl rfl
          cases hc
          exact conn_audible (by rw [hp]; rfl)
      | _ => exact .of_same rfl rfl
  | realtime i =>
      obtain ⟨s, p, hm, rfl⟩ := World.step_realtime h
      cases hm with
      | abort => exact .of_resolveGoal (r := .safetyStop) nofun rfl rfl rfl rfl
      | _ => exact .of_same rfl rfl
  | dashboard i => cases World.step_dashboard h <;> exact .of_same rfl rfl

/-- The channels installed by a goal's task: those of the last attempt, and earlier ones. -/
def InstalledUpTo (w : World F) (ch : Chan) : Prop :=
  ∃ t, w.task ch.goal = some t ∧ t.installed = true ∧ ch.attempt ≤ t.lastInstall

theorem InstalledUpTo.step {a : Action F} {ch : Chan} (hi : InstalledUpTo w ch)
    (hM : ∀ g t, w.task g = some t → Memory t) (hf : Fresh w) (hp : PendingAdmitted w)
    (h : World.step cfg w a = some w') : InstalledUpTo w' ch := by
  obtain ⟨t, ht, hins, hle⟩ := hi
  by_cases hinst : a = .task ch.goal .install
  · -- channels are installed for a later attempt than any before
    subst hinst
    obtain ⟨u, u', hu, -, hm, rfl⟩ := World.step_task h
    rw [ht] at hu
    cases hu
    obtain ⟨hphase, rfl⟩ := Move.of_install hm
    refine ⟨_, Function.update_self .., rfl, ?_⟩
    exact hle.trans ((hM _ t ht).fresh (.inr (.inr hphase)) hins).le
  · obtain ⟨t', ht', hinstall, -⟩ := remembered_step hf hp h ht
    obtain ⟨hins', hlast⟩ := hinstall hinst
    exact ⟨t', ht', hins'.trans hins, hlast ▸ hle⟩

/-- What is known of the goal channels and of the verdicts taken from them. -/
structure Resolution (w : World F) : Prop where
  /-- A channel whose sender is still there is unresolved. -/
  pending : ∀ ch, w.shared.ds.goalSender = some ch →
    w.shared.resolvedBy ch = none ∧ InstalledUpTo w ch
  known : ∀ ch r, w.shared.resolvedBy ch = some r → InstalledUpTo w ch
  box : ∀ ch v, w.shared.goalBox ch = some v →
    ∃ r, w.shared.resolvedBy ch = some r ∧ Resolver.value r = v
  verdict : ∀ g t v, w.task g = some t → t.exit = some (.verdict (some v)) →
    ∃ r, w.shared.resolvedBy ⟨g, t.lastScript⟩ = some r ∧ Resolver.value r = v

theorem Resolution.kept {ch : Chan} {r : Resolver} (hR : Resolution w) (hs : Resolving w w')
    (hr : w.shared.resolvedBy ch = some r) : w'.shared.resolvedBy ch = some r := by
  cases hs with
  | none he _ => rw [he]; exact hr
  | resolves ch' r' hg _ _ he _ _ =>
      have hne : ch ≠ ch' := by
        rintro rfl
        rw [(hR.pending ch hg).1] at hr
        cases hr
      rw [he, Function.update_of_ne hne]
      exact hr

theorem Resolution.installing {a : Action F} {ch : Chan} (hR : Resolution w)
    (hM : ∀ g t, w.task g = some t → Memory t) (hf : Fresh w) (hp : PendingAdmitted w)
    (h : World.step cfg w a = some w') (hs : w'.shared.ds.goalSender = some ch) :
    w'.shared.resolvedBy ch = none ∧ InstalledUpTo w' ch := by
  rcases channelSenders_step h with ⟨g, t, rfl, ht, hg, -⟩ | ⟨-, hg, -⟩
  · rw [hg] at hs
    cases hs
    obtain ⟨u, u', hu, -, hm, rfl⟩ := World.step_task h
    rw [ht] at hu
    cases hu
    obtain ⟨hphase, rfl⟩ := Move.of_install hm
    refine ⟨?_, _, Function.update_self .., rfl, le_rfl⟩
    -- these channels are newer than any the goal has installed so far
    by_contra hne
    obtain ⟨r, hr⟩ := Option.ne_none_iff_exists'.mp hne
    rw [(effect_resolving _).1] at hr
    obtain ⟨v, hv, hins, hle⟩ := hR.known _ r hr
    rw [ht] at hv
    cases hv
    exact Nat.not_lt_of_le hle ((hM g t ht).fresh (.inr (.inr hphase)) hins)
  · obtain ⟨hnone, hins⟩ := hR.pending ch (hg ch hs)
    refine ⟨?_, hins.step hM hf hp h⟩
    cases resolving_step h with
    | none he _ => rw [he]; exact hnone
    | resolves ch' r hg' _ _ _ _ hg'' => rw [hg''] at hs; cases hs

/-- A script is written only from inside the loop. -/
theorem Memory.lastScript_of_exit {t t' : Task F} {i : TaskInput} (hM : Memory t)
    (hm : Task.Move t i t') (he : t.exit ≠ none) : t'.lastScript = t.lastScript := by
  by_cases hwr : i = .write (.ok ())
  · subst hwr
    refine absurd (hM.exit_none ?_) he
    rw [(Move.of_write hm).1]
    exact ⟨rfl, nofun, nofun⟩
  by_cases hins : i = .install
  · subst hins
    rw [(Move.of_install hm).2]
  · exact (Move.remembers hm hins hwr).2.2.2.1

theorem Resolution.verdict_step {a : Action F} {g : Nat} {t' : Task F} {v : Bool}
    (hR : Resolution w) (hM : ∀ g t, w.task g = some t → Memory t) (hp : PendingAdmitted w)
    (h : World.step cfg w a = some w') (ht' : w'.task g = some t')
    (he : t'.exit = some (.verdict (some v))) :
    ∃ r, w'.shared.resolvedBy ⟨g, t'.lastScript⟩ = some r ∧ Resolver.value r = v := by
  have hs := resolving_step h
  cases task_origin hp h ht' with
  | same ht =>
      obtain ⟨r, hr, hv⟩ := hR.verdict g t' v ht he
      exact ⟨r, hR.kept hs hr, hv⟩
  | moved t i ha ht hready hm =>
      rcases Move.kind hm with ⟨e, hl, rfl⟩ | ⟨-, hexit, -⟩
      · cases he
        have hscript : t.lastScript = t.attempt := ((hM g t ht).sent (Leaves.sent hl)).2.2
        -- a verdict is taken from the goal's own channel, the one of its last script
        have hi : i = .goal (some v) := by
          generalize t.phase = q at hl
          cases hl
          rfl
        subst hi
        obtain ⟨r, hr, hv⟩ := hR.box ⟨g, t.attempt⟩ v (by
          simpa [World.ready, World.goalResolves] using hready)
        exact ⟨r, hR.kept hs (hscript.symm ▸ hr), hv⟩
      · rw [hexit] at he
        obtain ⟨r, hr, hv⟩ := hR.verdict g t v ht he
        rw [(hM g t ht).lastScript_of_exit hm (by rw [he]; exact Option.some_ne_none _)]
        exact ⟨r, hR.kept hs hr, hv⟩
  | accepted command script uuid _ _ _ heq => rw [heq] at he; cases he
  | spawned t _ _ ht _ heq =>
      rw [heq] at he ⊢
      obtain ⟨r, hr, hv⟩ := hR.verdict g t v ht he
      exact ⟨r, hR.kept hs hr, hv⟩

theorem resolution_step {a : Action F} (hR : Resolution w)
    (hM : ∀ g t, w.task g = some t → Memory t) (hf : Fresh w) (hp : PendingAdmitted w)
    (h : World.step cfg w a = some w') : Resolution w' := by
  have hs := resolving_step h
  refine ⟨fun ch hc => hR.installing hM hf hp h hc, fun ch r hr => ?_, fun ch v hv => ?_,
    fun g t v ht he => hR.verdict_step hM hp h ht he⟩
  · refine InstalledUpTo.step ?_ hM hf hp h
    cases hs with
    | none he _ => exact hR.known ch r (he ▸ hr)
    | resolves ch' r' hg _ _ he _ _ =>
        by_cases hch : ch = ch'
        · -- the sender that is used up was in `DriverState`, so its channel had been installed
          exact hch ▸ (hR.pending ch' hg).2
        · rw [he, Function.update_of_ne hch] at hr
          exact hR.known ch r hr
  · cases hs with
    | none he hb => rw [he]; exact hR.box ch v (hb ch v hv)
    | resolves ch' r' hg _ _ he hb _ =>
        rw [hb] at hv
        rw [he]
        by_cases hch : ch = ch'
        · subst hch
          rw [Function.update_self] at hv ⊢
          exact ⟨r', rfl, Option.some.inj hv⟩
        · -- a channel is resolved once: the others keep what they had
          rw [Function.update_of_ne hch] at hv ⊢
          exact hR.box ch v hv

/-- What a script is said to have caused was caused by the channel's own script. -/
def OwnScript (w : World F) : Prop :=
  ∀ ch r c, w.shared.resolvedBy ch = some r → Resolver.script r = some c → c = ch

theorem ownScript_step {a : Action F} (hO : OwnScript w) (hV : Voiced w)
    (hS : SendersOf (Live w) w.shared) (h : World.step cfg w a = some w') : OwnScript w' := by
  intro ch r c hr hc
  cases resolving_step h with
  | none he _ => exact hO ch r c (he ▸ hr) hc
  | resolves ch' r' hg hscript _ he _ _ =>
      rw [he] at hr
      by_cases hch : ch = ch'
      · subst hch
        rw [Function.update_self] at hr
        cases hr
        -- only the channel's own script can be heard while its sender is there
        exact (hV.caused (hS.goal ch hg) (hV.goal ch hg) (hscript c hc)).1
      · rw [Function.update_of_ne hch] at hr
        exact hO ch r c hr hc

/-- A goal left on a stop that was answered with success has had a stop acknowledged. -/
def StopsAcked (w : World F) : Prop :=
  ∀ g t reply, w.task g = some t → t.exit = some (.stopAnswered reply) → reply.success = true →
    w.shared.stopAcked g = true

theorem stopAcked_step {a : Action F} {g : Nat} (h : World.step cfg w a = some w')
    (hg : w.shared.stopAcked g = true) : w'.shared.stopAcked g = true := by
  cases ledger_move h with
  | same hs _ => rwa [hs.stopAcked]
  | submit _ _ _ hs _ | take _ _ _ _ _ hs => rwa [hs]
  | answer r reply _ _ hs =>
      rw [hs]
      exact acknowledge_mono hg

theorem stopsAcked_step {a : Action F} (hA : StopsAcked w) (hQ : StopsQueued w)
    (hL : Ledger w.dashboard.holds w.shared) (hp : PendingAdmitted w)
    (h : World.step cfg w a = some w') : StopsAcked w' := by
  intro g t' reply ht' he hsucc
  refine stopAcked_step h ?_
  cases task_origin hp h ht' with
  | same ht => exact hA g t' reply ht he hsucc
  | moved t i ha ht hready hm =>
      -- only the answer to the stop is this exit, and the ledger says what was answered
      rcases Move.kind hm with ⟨e, hl, rfl⟩ | ⟨-, hexit, -⟩
      · cases he
        obtain ⟨hphase, rfl⟩ := (Leaves.stopReplied_iff hl reply).mpr rfl
        obtain ⟨up, hsent⟩ := hQ g t ht (.inl hphase)
        exact hL.acked ⟨.stop, t.stopRequest, .goal g, up⟩ reply g hsent
          (of_decide_eq_true hready) hsucc rfl rfl
      · exact hA g t reply ht (hexit ▸ he) hsucc
  | accepted command script uuid _ _ _ heq => rw [heq] at he; cases he
  | spawned t _ _ ht _ heq => rw [heq] at he; exact hA g t reply ht he hsucc

/-! ## Every run -/

/-- What a goal whose last script was `⟨g, t.lastScript⟩` is released on. -/
inductive Released (w : World F) (g : Nat) (t : Task F) : Prop
  /-- A script's `ok`, `error` or close resolved the goal. -/
  | heard (r : Resolver) (c : Chan) : w.shared.resolvedBy ⟨g, t.lastScript⟩ = some r →
      Resolver.script r = some c → Released w g t
  /-- A stop issued for the goal was answered with success. -/
  | stopped : w.shared.stopAcked g = true → Released w g t
  /-- A safety stop, published as a failure. -/
  | safetyStop : w.shared.resolvedBy ⟨g, t.lastScript⟩ = some .safetyStop →
      t.published = some .failed → Released w g t
  /-- Given up, published as a failure. -/
  | givenUp (e : Exit) : t.exit = some e → Exit.givesUp e = true →
      t.published = some .failed → Released w g t

section Reachable

variable [Zero F] {ok : World F → Action F → Prop}

theorem resolution_reachable (h : Run cfg ok w) : Resolution w := by
  refine h.invariant ⟨?_, ?_, ?_, ?_⟩ fun _ _ _ hr hR _ hs =>
    resolution_step hR (memory_reachable hr) (fresh_reachable hr) (pendingAdmitted_reachable hr) hs
  · intro ch hc; cases hc
  · intro ch r hc; cases hc
  · intro ch v hc; cases hc
  · intro g t v ht; cases ht

theorem stopsAcked_reachable (h : Run cfg ok w) : StopsAcked w :=
  h.invariant (fun _ _ _ ht => by cases ht) fun _ _ _ hr hA _ hs =>
    stopsAcked_step hA (stopsQueued_reachable hr) (ledger_reachable hr)
      (pendingAdmitted_reachable hr) hs

theorem ownScript_reachable (h : Run cfg Unmixed w) : OwnScript w :=
  h.invariant (fun _ _ _ hr => by cases hr) fun _ _ _ hr hO _ hs =>
    ownScript_step hO (voiced_reachable hr) (sendersLive_reachable hr) hs

/--
**What a goal is released on.** When a goal reaches its teardown, unless a cancel's stop was
refused: a script's `ok`, `error` or close resolved it, a stop for it was acknowledged, or
it has been published as `failed` on a safety stop or because it was given up. In a run
whose lines are not mixed up, the script heard from is the last one the goal sent.
-/
theorem released_reachable {g : Nat} {t : Task F} (h : Run cfg ok w) (ht : w.task g = some t)
    (hp : t.phase = .teardown)
    (hstop : ∀ reply, t.exit = some (.stopAnswered reply) → reply.success = true) :
    Released w g t
    ∧ (Run cfg Unmixed w → ∀ r c, w.shared.resolvedBy ⟨g, t.lastScript⟩ = some r →
        Resolver.script r = some c → c = ⟨g, t.lastScript⟩) := by
  refine ⟨?_, fun hU r c => ownScript_reachable hU _ r c⟩
  have hM := memory_reachable h g t ht
  -- at its teardown a task has left the loop
  obtain ⟨e, he⟩ : ∃ e, t.exit = some e := by
    refine Option.ne_none_iff_exists'.mp fun hn => ?_
    exact (hM.looping hn).2.2.1 hp
  have hpub : t.published = some e.requestState := by
    have := hM.left e he
    rwa [hp] at this
  cases e with
  | stopAnswered reply => exact .stopped (stopsAcked_reachable h g t reply ht he (hstop reply he))
  | verdict v =>
      cases v with
      -- the channel was closed without a verdict
      | none => exact .givenUp _ he rfl hpub
      | some v =>
          obtain ⟨r, hr, hv⟩ := (resolution_reachable h).verdict g t v ht he
          cases r with
          | safetyStop => subst hv; exact .safetyStop hr hpub
          | ok c | error c | closed c => exact .heard _ c hr rfl
  | _ => exact .givenUp _ he rfl hpub

end Reachable

namespace Scenario

def relative : RobotCommand Int := { move with commandType := "unsafe_move_l_relative" }

/-- A relative move, up to its task being spawned. -/
def requestRelative (uuid : String) : List (Action Int) :=
  [.client (.requestState .initial), .client (.requestTrigger true), .command .tick,
    .command .redis, .command (.prepare (.ok (relative, program))), .command (.admission uuid),
    .command .redis, .command .store]

/-- The reply is handed over and published. -/
def dashboardDone : List (Action Int) :=
  [.dashboard .answer, .server .reply, .server .redis, .server .redis]

/-- A pause, and a `play` that does not get the paused program running again. -/
def pauseResume : List (Action Int) :=
  askDashboard "pause" "" ++ [.dashboard (.take ⟨.pause, 0, .server, true⟩)]
    ++ trip "Pausing program" ++ trip "PAUSED x"
    ++ [.dashboard (.lock false)] ++ dashboardDone
    ++ askDashboard "resume" ""
    ++ [.dashboard (.take ⟨.resume, 1, .server, true⟩), .dashboard (.lock false)]
    ++ trip "Starting program" ++ trip "Program running: false"
    ++ [.dashboard (.lock false), .dashboard (.signal (.ok ()))]

/-- The keys once that resume is under way. -/
def resuming : RequestKeys :=
  { requestState := .executing, dashboardCommand := "resume", dashboardCommandArg := ""
    dashboardRequestState := .executing, dashboardRequestResult := "PAUSED" }

def refusal : String :=
  match remainingCommand relative 0 with
  | .error reason => reason
  | .ok _ => ""

end Scenario

open Scenario

set_option maxRecDepth 2000 in
/-- A relative move that is paused and not resumed: its goal is torn down, its script still
there. -/
theorem not_released :
    ¬ ∀ (w : World Int) (g : Nat) (t : Task Int), Lts.Reachable (World.step config) World.init w →
      w.task g = some t → t.phase = .teardown → 0 < t.scripts →
      (∃ r c, w.shared.resolvedBy ⟨g, t.lastScript⟩ = some r ∧ Resolver.script r = some c)
      ∨ w.shared.stopAcked g = true := by
  intro h
  have hrun : (Lts.run (World.step config) World.init
      (start ++ dashboardUp ++ requestRelative "a" ++ launch 0 ++ shake ⟨0, 0⟩ "a" ++ pauseResume
        ++ [.task 0 .resume, .task 0 (.measure 0)] ++ fail 0 refusal resuming)).any (fun w =>
        (w.task 0).any (fun t => t.phase == .teardown && t.scripts == 1 && t.lastScript == 0)
          && w.shared.resolvedBy ⟨0, 0⟩ == none && !w.shared.stopAcked 0) = true := by
    decide
  obtain ⟨w, hw, hp⟩ := Lts.exists_of_run hrun
  obtain ⟨hp, hack⟩ := Bool.and_eq_true_iff.mp hp
  obtain ⟨hp, hres⟩ := Bool.and_eq_true_iff.mp hp
  obtain ⟨t, ht, hp⟩ := (Option.any_eq_true _ _).mp hp
  obtain ⟨hp, hlast⟩ := Bool.and_eq_true_iff.mp hp
  obtain ⟨hp, hn⟩ := Bool.and_eq_true_iff.mp hp
  -- the goal gives up while its script is paused: nothing was heard of it and nobody stopped it
  rcases h w 0 t hw ht (eq_of_beq hp) (by rw [eq_of_beq hn]; decide) with ⟨r, c, hr, -⟩ | hack'
  · rw [eq_of_beq hlast, eq_of_beq hres] at hr
    cases hr
  · rw [hack'] at hack
    cases hack

/-- The attempt loop was left on its goal channel. -/
def onVerdict : Exit → Bool
  | .verdict _ => true
  | _ => false

/-- A goal whose script reports `ok`, at its teardown. -/
theorem released_trace : ∃ (w : World Int) (t : Task Int), Run config Unmixed w
    ∧ w.task 0 = some t ∧ t.phase = .teardown ∧ Released w 0 t
    ∧ ∀ r c, w.shared.resolvedBy ⟨0, t.lastScript⟩ = some r → Resolver.script r = some c →
        c = ⟨0, t.lastScript⟩ := by
  have hrun : (Lts.runBy (World.step config) Unmixed World.init
      (start ++ request "a" ++ launch 0 ++ shake ⟨0, 0⟩ "a"
        ++ [.socket (.line (some "ok")), .task 0 (.goal (some true))]
        ++ succeed 0 { requestState := .executing })).any (fun w =>
        (w.task 0).any fun t => t.phase == .teardown && t.exit.any onVerdict) = true := by
    decide
  obtain ⟨w, hw, hp⟩ := Lts.exists_of_runBy hrun
  obtain ⟨t, ht, hp⟩ := (Option.any_eq_true _ _).mp hp
  obtain ⟨hp, hexit⟩ := Bool.and_eq_true_iff.mp hp
  have hstop : ∀ reply, t.exit = some (.stopAnswered reply) → reply.success = true := by
    intro reply he
    rw [he] at hexit
    cases hexit
  obtain ⟨hR, hown⟩ := released_reachable hw ht (eq_of_beq hp) hstop
  exact ⟨w, t, hw, ht, eq_of_beq hp, hR, hown hw⟩

end UrRedisDriver.Proof
