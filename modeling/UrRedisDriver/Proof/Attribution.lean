import UrRedisDriver.Proof.Admission
import UrRedisDriver.Proof.Senders

/-!
# Whose verdict it is

`socket_server` resolves whichever goal's sender is in `DriverState`, whatever connection
the line or the close came from. That is the right goal as long as no other script can be
heard from once a goal's channels are installed: none is running on the robot, none has a
connection in the listener and none is being served.
-/

namespace UrRedisDriver.Proof

open UrRedisDriver

variable {F : Type} {cfg : Config F} {w w' : World F}

/-- The scripts `socket_server` can still hear from. -/
def audible (w : World F) : List Chan :=
  w.shared.running ++ w.shared.backlog.map Conn.script ++ (w.socket.conn.map Conn.script).toList

/-- A goal is live and has not had any channels installed. -/
def unheard (w : World F) : Bool :=
  (List.range w.goals).any fun g =>
    match w.task g with
    | some t => t.phase != .done && !t.installed
    | none => false

/--
The step installs no channels while a script can be heard from, and reads no progress line
for a goal that has no channels yet.
-/
def unmixed (w : World F) : Action F → Bool
  | .task _ .install => (audible w).isEmpty
  | .socket (.line (some l)) =>
      match w.socket, ScriptLine.read l with
      | .reading _ _, .waypoint (some _) => !unheard w
      | _, _ => true
  | _ => true

def Unmixed (w : World F) (a : Action F) : Prop := AdmitsCovered w a ∧ unmixed w a = true

instance (w : World F) (a : Action F) : Decidable (Unmixed w a) :=
  inferInstanceAs (Decidable (_ ∧ _))

/-- The script is the last one its goal sent. -/
def LastSent (w : World F) (ch : Chan) : Prop :=
  ∃ t, w.task ch.goal = some t ∧ 0 < t.scripts ∧ t.lastScript = ch.attempt

/-! ## Who can be heard -/

theorem mem_audible {s : Chan} : s ∈ audible w ↔
    s ∈ w.shared.running ∨ (∃ c ∈ w.shared.backlog, c.script = s)
      ∨ ∃ c, w.socket.conn = some c ∧ c.script = s := by
  simp [audible, Option.mem_toList]

theorem conn_audible {c : Conn} (h : w.socket.conn = some c) : c.script ∈ audible w :=
  mem_audible.mpr (.inr (.inr ⟨c, h, rfl⟩))

/-- `socket_server` serves a connection it took from the listener, and none else. -/
theorem SocketMove.conn {s s' : Shared F} {p p' : SocketPhase} (h : SocketServer.Move s p s' p') :
    s'.running = s.running
    ∧ ∀ c, c ∈ s'.backlog ∨ p'.conn = some c → c ∈ s.backlog ∨ p.conn = some c := by
  cases h with
  | quiet p' hp =>
      refine ⟨rfl, fun c hc => hc.imp id fun hc => ?_⟩
      rcases hp with rfl | ⟨hp, -, -⟩
      · cases hc
      · exact hp ▸ hc
  | accept c rest goalId handshake feedback _ hb =>
      -- the listener takes a connection out of its own queue: none comes from nowhere
      refine ⟨rfl, fun c' hc => .inl ?_⟩
      rw [hb]
      rcases hc with hc | hc
      · exact List.mem_cons_of_mem _ hc
      · cases hc
        exact List.mem_cons_self ..
  | turnAway c rest _ hb =>
      refine ⟨rfl, fun c' hc => .inl ?_⟩
      rw [hb]
      exact List.mem_cons_of_mem _ (hc.resolve_right nofun)
  | echo c goalId handshake feedback v hp => rw [hp]; exact ⟨rfl, fun c hc => hc⟩
  | feedback c ch box hc _ _ => exact ⟨rfl, fun c' hc' => hc'.imp id fun h => hc.trans h⟩
  | ok c ch _ =>
      obtain ⟨box, by_, he⟩ := s.resolveGoal_eq true (.ok c.script)
      rw [he]
      exact ⟨rfl, fun c hc => hc⟩
  | error c ch _ =>
      obtain ⟨box, by_, he⟩ := s.resolveGoal_eq false (.error c.script)
      rw [he]
      exact ⟨rfl, fun c hc => hc⟩
  | waypoint => exact ⟨rfl, fun c hc => hc⟩
  | close c ch _ =>
      obtain ⟨box, by_, he⟩ := s.resolveGoal_eq false (.closed c.script)
      rw [he]
      exact ⟨rfl, fun c hc => .inl (hc.resolve_right nofun)⟩

theorem RealtimeMove.scripts {s s' : Shared F} {p p' : RtPhase}
    (h : RealtimeReader.Move s p s' p') :
    s'.running = s.running ∧ s'.backlog = s.backlog := by
  cases h with
  | abort =>
      obtain ⟨box, by_, he⟩ := s.resolveGoal_eq false .safetyStop
      rw [he]
      exact ⟨rfl, rfl⟩
  | _ => exact ⟨rfl, rfl⟩

theorem effect_scripts {up : Bool} {s : Shared F} {g : Nat} {t : Task F} {i : TaskInput}
    (hi : i ≠ .write (.ok ())) :
    (World.effect cfg up s g t i).running = s.running
    ∧ (World.effect cfg up s g t i).backlog = s.backlog := by
  cases i with
  | write r =>
      cases r with
      | ok u => exact absurd rfl hi
      | error e => exact ⟨rfl, rfl⟩
  | feedback m => cases m <;> exact ⟨rfl, rfl⟩
  | sendStop r => cases r <;> exact ⟨rfl, rfl⟩
  | redis keys =>
      simp only [World.effect]
      split <;> exact ⟨rfl, rfl⟩
  | _ => exact ⟨rfl, rfl⟩

/-- A script is heard from once it has been written, and no earlier. -/
theorem audible_step {a : Action F} (h : World.step cfg w a = some w') :
    ∀ s ∈ audible w', s ∈ audible w
      ∨ ∃ g t, a = .task g (.write (.ok ())) ∧ w.task g = some t ∧ s = ⟨g, t.attempt⟩ := by
  intro s hs
  cases a with
  | client i => rw [World.step_client h] at hs; exact .inl hs
  | robot i =>
      obtain ⟨s', hs', rfl⟩ := World.step_robot h
      left
      rw [mem_audible] at hs ⊢
      cases i with
      -- a script that dials is running, so it could be heard from before
      | dial ch =>
          simp only [World.robotStep] at hs'
          split at hs' <;> cases hs'
          rename_i hrun
          rcases hs with hs | ⟨c, hc, rfl⟩ | hs
          · exact .inl hs
          · rcases List.mem_append.mp hc with hc | hc
            · exact .inr (.inl ⟨c, hc, rfl⟩)
            · rw [List.mem_singleton.mp hc]
              exact .inl hrun
          · exact .inr (.inr hs)
      | finish ch =>
          simp only [World.robotStep] at hs'
          split at hs' <;> cases hs'
          exact hs.imp (fun hs => List.mem_of_mem_erase hs) id
  | command i =>
      obtain ⟨_, _, _, _, _, _, _, _, _, _, rfl⟩ := World.step_command_frame h
      exact .inl hs
  | task g i =>
      obtain ⟨t, t', ht, -, -, rfl⟩ := World.step_task h
      -- the one input that puts a script on the robot
      by_cases hi : i = .write (.ok ())
      · subst hi
        rw [mem_audible] at hs ⊢
        rcases hs with hs | hs
        · rcases List.mem_cons.mp hs with hs | hs
          · exact .inr ⟨g, t, rfl, ht, hs⟩
          · exact .inl (.inl hs)
        · exact .inl (.inr hs)
      · left
        simp only [mem_audible, effect_scripts hi] at hs ⊢
        exact hs
  | socket i =>
      obtain ⟨s', p, hm, rfl⟩ := World.step_socket h
      obtain ⟨hr, hc⟩ := SocketMove.conn hm
      left
      rw [mem_audible] at hs ⊢
      rcases hs with hs | ⟨c, hc', rfl⟩ | ⟨c, hc', rfl⟩
      · exact .inl (hr ▸ hs)
      · exact .inr ((hc c (.inl hc')).imp (fun h => ⟨c, h, rfl⟩) fun h => ⟨c, h, rfl⟩)
      · exact .inr ((hc c (.inr hc')).imp (fun h => ⟨c, h, rfl⟩) fun h => ⟨c, h, rfl⟩)
  | realtime i =>
      obtain ⟨s', p, hm, rfl⟩ := World.step_realtime h
      obtain ⟨hr, hb⟩ := RealtimeMove.scripts hm
      left
      simp only [mem_audible, hr, hb] at hs ⊢
      exact hs
  | dashboard i => cases World.step_dashboard h <;> exact .inl hs
  | server i =>
      obtain ⟨s', p, hm, rfl⟩ := World.step_server h
      obtain ⟨keys, queue, n, sent, rfl⟩ := hm.frame
      exact .inl hs

/-! ## What a task remembers -/

/-- Only installing channels and writing a script are remembered. -/
theorem Move.remembers {t t' : Task F} {i : TaskInput} (h : Task.Move t i t')
    (hi : i ≠ .install) (hw : i ≠ .write (.ok ())) :
    t'.installed = t.installed ∧ t'.lastInstall = t.lastInstall ∧ t'.scripts = t.scripts
    ∧ t'.lastScript = t.lastScript ∧ t'.phase ≠ .writing := by
  cases h with
  | install => exact absurd rfl hi
  | write => exact absurd rfl hw
  | hop i p hh =>
      refine ⟨rfl, rfl, rfl, rfl, ?_⟩
      generalize t.phase = q at hh
      cases hh <;> simp
  | leave i e hh =>
      -- where a task leaves to, it does not write a script
      refine ⟨rfl, rfl, rfl, rfl, fun hp => ?_⟩
      have := leave_phase t e
      rw [hp] at this
      cases this
  | publish keys p written hh =>
      refine ⟨rfl, rfl, rfl, rfl, fun hp => ?_⟩
      rcases hh.publishing.2 with hpub | rfl
      · rw [show p = .writing from hp] at hpub; cases hpub
      · cases hp
  | feedback m hp hf => exact ⟨rfl, rfl, rfl, rfl, by rw [hp]; exact nofun⟩
  | _ => exact ⟨rfl, rfl, rfl, rfl, nofun⟩

theorem Move.of_install {t t' : Task F} (h : Task.Move t .install t') :
    t.phase = .installing
    ∧ t' = { t with phase := .writing, installed := true, lastInstall := t.attempt } := by
  cases h with
  | install hp => exact ⟨hp, rfl⟩
  | hop i p hh => generalize t.phase = q at hh; cases hh
  | leave i e hh => generalize t.phase = q at hh; cases hh

theorem Move.of_write {t t' : Task F} (h : Task.Move t (.write (.ok ())) t') :
    t.phase = .writing
    ∧ t' = { t with
        phase := .handshaking, scripts := t.scripts + 1, lastScript := t.attempt } := by
  cases h with
  | write hp => exact ⟨hp, rfl⟩
  | hop i p hh => generalize t.phase = q at hh; cases hh
  | leave i e hh => generalize t.phase = q at hh; cases hh

/-! ## The invariant -/

/-- A goal with channels is the only one whose script can be heard from. -/
structure Voiced (w : World F) : Prop where
  heard : ∀ g t, w.task g = some t → t.phase ≠ .done → t.installed = true →
    audible w = [] ∨ (0 < t.scripts ∧ t.lastScript = t.lastInstall
      ∧ ∀ s ∈ audible w, s = ⟨g, t.lastScript⟩)
  /-- Nothing can be heard while a script is about to be written. -/
  writing : ∀ g t, w.task g = some t → t.phase = .writing →
    audible w = [] ∧ t.lastInstall = t.attempt
  /-- A sender in `DriverState` is of the channels its goal installed last. -/
  goal : ∀ ch, w.shared.ds.goalSender = some ch →
    ∃ t, w.task ch.goal = some t ∧ t.installed = true ∧ t.lastInstall = ch.attempt
  handshake : ∀ ch, w.shared.ds.handshakeSender = some ch →
    ∃ t, w.task ch.goal = some t ∧ t.installed = true ∧ t.lastInstall = ch.attempt
  /-- A handshake in progress is with the script it is for. -/
  held : ∀ h, w.socket.heldHandshake = some h →
    ∃ c, w.socket.conn = some c ∧ c.script = h ∧ LastSent w h

/-- The script of a line is the last one sent by the goal whose sender is in the slot. -/
theorem Voiced.caused {ch s : Chan} (hV : Voiced w) (hl : Live w ch.goal)
    (hch : ∃ t, w.task ch.goal = some t ∧ t.installed = true ∧ t.lastInstall = ch.attempt)
    (hs : s ∈ audible w) : s = ch ∧ LastSent w ch := by
  obtain ⟨t, ht, hi, hlast⟩ := hch
  obtain ⟨u, hu, hd⟩ := live_iff.mp hl
  rw [ht] at hu
  cases hu
  rcases hV.heard ch.goal t ht hd hi with hnone | ⟨hpos, heq, hall⟩
  · rw [hnone] at hs; cases hs
  · have hsent : t.lastScript = ch.attempt := heq.trans hlast
    refine ⟨?_, t, ht, hpos, hsent⟩
    rw [hall s hs, hsent]

/-- A step that is not the goal's own write makes nothing new heard while the goal is live. -/
theorem audible_keep {a : Action F} {g : Nat} (h : World.step cfg w a = some w')
    (hone : AtMostOneLive w) (hl : Live w g) (ha : a ≠ .task g (.write (.ok ()))) :
    ∀ s ∈ audible w', s ∈ audible w := by
  intro s hs
  rcases audible_step h s hs with hs | ⟨g', t, rfl, ht, -⟩
  · exact hs
  · obtain ⟨t, t', ht, -, hm, -⟩ := World.step_task h
    have hg : g = g' := hone g g' hl (live_iff.mpr ⟨t, ht, (Move.phase_ne hm).1⟩)
    exact absurd rfl (hg ▸ ha)

/-- A task that is as it was before the step has not just written a script. -/
theorem not_write_of_same {a : Action F} {g : Nat} {t : Task F} (h : World.step cfg w a = some w')
    (ht : w.task g = some t) (ht' : w'.task g = some t) : a ≠ .task g (.write (.ok ())) := by
  rintro rfl
  obtain ⟨u, u', hu, -, hm, rfl⟩ := World.step_task h
  rw [ht] at hu
  cases hu
  simp only [Function.update_self, Option.some.injEq] at ht'
  have hn := congrArg Task.scripts (Move.of_write hm).2
  rw [ht'] at hn
  exact absurd hn (Nat.ne_of_lt (Nat.lt_succ_self _))

theorem eq_nil_of_subset {l l' : List Chan} (h : ∀ s ∈ l', s ∈ l) (hl : l = []) : l' = [] :=
  List.eq_nil_iff_forall_not_mem.mpr fun s hs => by
    have := h s hs
    rw [hl] at this
    cases this

theorem heard_step {a : Action F} {g : Nat} {t' : Task F} (hV : Voiced w)
    (hone : AtMostOneLive w) (hok : unmixed w a = true) (hp : PendingAdmitted w)
    (h : World.step cfg w a = some w') (ht' : w'.task g = some t') (hd : t'.phase ≠ .done)
    (hi : t'.installed = true) :
    audible w' = [] ∨ (0 < t'.scripts ∧ t'.lastScript = t'.lastInstall
      ∧ ∀ s ∈ audible w', s = ⟨g, t'.lastScript⟩) := by
  have hshrink {t : Task F} (hsub : ∀ s ∈ audible w', s ∈ audible w)
      (hold : audible w = [] ∨ (0 < t.scripts ∧ t.lastScript = t.lastInstall
        ∧ ∀ s ∈ audible w, s = ⟨g, t.lastScript⟩)) :
      audible w' = [] ∨ (0 < t.scripts ∧ t.lastScript = t.lastInstall
        ∧ ∀ s ∈ audible w', s = ⟨g, t.lastScript⟩) := by
    rcases hold with hnone | ⟨hpos, heq, hall⟩
    · exact .inl (eq_nil_of_subset hsub hnone)
    · exact .inr ⟨hpos, heq, fun s hs => hall s (hsub s hs)⟩
  cases task_origin hp h ht' with
  | same ht =>
      have hl : Live w g := live_iff.mpr ⟨t', ht, hd⟩
      exact hshrink (audible_keep h hone hl (not_write_of_same h ht ht')) (hV.heard g t' ht hd hi)
  | moved t i ha ht _ hm =>
      subst ha
      have hl : Live w g := live_iff.mpr ⟨t, ht, (Move.phase_ne hm).1⟩
      by_cases hins : i = .install
      · subst hins
        -- `unmixed` has a goal install its channels in silence
        have hnone : audible w = [] := List.isEmpty_iff.mp hok
        exact .inl (eq_nil_of_subset (audible_keep h hone hl (by simp)) hnone)
      by_cases hwr : i = .write (.ok ())
      · subst hwr
        obtain ⟨hphase, rfl⟩ := Move.of_write hm
        obtain ⟨hnone, hlast⟩ := hV.writing g t ht hphase
        refine .inr ⟨Nat.succ_pos _, hlast.symm, fun s hs => ?_⟩
        -- nothing was heard before the write, so what is heard now is this script
        rcases audible_step h s hs with hs | ⟨g', u, ha, hu, rfl⟩
        · rw [hnone] at hs; cases hs
        · cases ha
          rw [ht] at hu
          cases hu
          rfl
      · obtain ⟨h1, h2, h3, h4, -⟩ := Move.remembers hm hins hwr
        rw [h2, h3, h4]
        refine hshrink (audible_keep h hone hl (by simp [hwr])) ?_
        exact hV.heard g t ht (Move.phase_ne hm).1 (h1 ▸ hi)
  | accepted command script uuid _ _ _ he => rw [he] at hi; cases hi
  | spawned t ha _ ht hta he =>
      subst he
      have hne : t.phase ≠ .done := by rw [hta]; exact nofun
      exact hshrink (audible_keep h hone (live_iff.mpr ⟨t, ht, hne⟩) (by rw [ha]; simp))
        (hV.heard g t ht hne hi)

theorem writing_step {a : Action F} {g : Nat} {t' : Task F} (hV : Voiced w)
    (hone : AtMostOneLive w) (hok : unmixed w a = true) (hp : PendingAdmitted w)
    (h : World.step cfg w a = some w') (ht' : w'.task g = some t') (hw : t'.phase = .writing) :
    audible w' = [] ∧ t'.lastInstall = t'.attempt := by
  cases task_origin hp h ht' with
  | same ht =>
      have hl : Live w g := live_iff.mpr ⟨t', ht, by rw [hw]; exact nofun⟩
      obtain ⟨hnone, hlast⟩ := hV.writing g t' ht hw
      have hsub := audible_keep h hone hl (not_write_of_same h ht ht')
      exact ⟨eq_nil_of_subset hsub hnone, hlast⟩
  | moved t i ha ht _ hm =>
      subst ha
      have hl : Live w g := live_iff.mpr ⟨t, ht, (Move.phase_ne hm).1⟩
      by_cases hins : i = .install
      · subst hins
        have hnone : audible w = [] := List.isEmpty_iff.mp hok
        refine ⟨eq_nil_of_subset (audible_keep h hone hl (by simp)) hnone, ?_⟩
        rw [(Move.of_install hm).2]
      by_cases hwr : i = .write (.ok ())
      · subst hwr
        rw [(Move.of_write hm).2] at hw
        cases hw
      -- no other input leads to `writing`
      · exact absurd hw (Move.remembers hm hins hwr).2.2.2.2
  | accepted command script uuid _ _ _ he => rw [he] at hw; cases hw
  | spawned t _ _ _ _ he => rw [he] at hw; cases hw

/-- What a goal installed last is forgotten only when it installs again, and which script it
sent last only when it sends another. -/
theorem remembered_step {a : Action F} {g : Nat} {t : Task F} (hf : Fresh w)
    (hp : PendingAdmitted w) (h : World.step cfg w a = some w') (ht : w.task g = some t) :
    ∃ t', w'.task g = some t'
      ∧ (a ≠ .task g .install → t'.installed = t.installed ∧ t'.lastInstall = t.lastInstall)
      ∧ (a ≠ .task g (.write (.ok ())) → t'.scripts = t.scripts
        ∧ t'.lastScript = t.lastScript) := by
  obtain ⟨t', ht'⟩ := task_persists h ht
  refine ⟨t', ht', ?_⟩
  cases task_origin hp h ht' with
  | same hs =>
      rw [ht] at hs
      cases hs
      exact ⟨fun _ => ⟨rfl, rfl⟩, fun _ => ⟨rfl, rfl⟩⟩
  | moved u i he hu _ hm =>
      rw [ht] at hu
      cases hu
      subst he
      by_cases hins : i = .install
      · subst hins
        rw [(Move.of_install hm).2]
        exact ⟨fun hn => absurd rfl hn, fun _ => ⟨rfl, rfl⟩⟩
      by_cases hwr : i = .write (.ok ())
      · subst hwr
        rw [(Move.of_write hm).2]
        exact ⟨fun _ => ⟨rfl, rfl⟩, fun hn => absurd rfl hn⟩
      · obtain ⟨h1, h2, h3, h4, -⟩ := Move.remembers hm hins hwr
        exact ⟨fun _ => ⟨h1, h2⟩, fun _ => ⟨h3, h4⟩⟩
  | accepted command script uuid _ _ hg _ =>
      -- the new goal takes a fresh slot
      rw [hf _ hg.ge] at ht
      cases ht
  | spawned u _ _ hu _ he =>
      rw [ht] at hu
      cases hu
      rw [he]
      exact ⟨fun _ => ⟨rfl, rfl⟩, fun _ => ⟨rfl, rfl⟩⟩

theorem lastInstall_step {a : Action F} {ch : Chan} (hf : Fresh w) (hp : PendingAdmitted w)
    (h : World.step cfg w a = some w') (ha : a ≠ .task ch.goal .install)
    (hch : ∃ t, w.task ch.goal = some t ∧ t.installed = true ∧ t.lastInstall = ch.attempt) :
    ∃ t, w'.task ch.goal = some t ∧ t.installed = true ∧ t.lastInstall = ch.attempt := by
  obtain ⟨t, ht, hi, hlast⟩ := hch
  obtain ⟨t', ht', hinstall, -⟩ := remembered_step hf hp h ht
  obtain ⟨hi', hlast'⟩ := hinstall ha
  exact ⟨t', ht', hi'.trans hi, hlast'.trans hlast⟩

theorem LastSent.step {a : Action F} {ch : Chan} (hs : LastSent w ch) (hf : Fresh w)
    (hp : PendingAdmitted w) (h : World.step cfg w a = some w')
    (ha : a ≠ .task ch.goal (.write (.ok ()))) : LastSent w' ch := by
  obtain ⟨t, ht, hpos, hlast⟩ := hs
  obtain ⟨t', ht', -, hsent⟩ := remembered_step hf hp h ht
  obtain ⟨hscripts, hlast'⟩ := hsent ha
  exact ⟨t', ht', hscripts ▸ hpos, hlast'.trans hlast⟩

/-- The sender of a channel is there because it was, or because its goal just installed it. -/
theorem channelSenders_step {a : Action F} (h : World.step cfg w a = some w') :
    (∃ g t, a = .task g .install ∧ w.task g = some t
      ∧ w'.shared.ds.goalSender = some ⟨g, t.attempt⟩
      ∧ w'.shared.ds.handshakeSender = some ⟨g, t.attempt⟩)
    ∨ ((∀ g, a ≠ .task g .install)
      ∧ (∀ ch, w'.shared.ds.goalSender = some ch → w.shared.ds.goalSender = some ch)
      ∧ ∀ ch, w'.shared.ds.handshakeSender = some ch → w.shared.ds.handshakeSender = some ch) := by
  by_cases hi : ∃ g, a = .task g .install
  · obtain ⟨g, rfl⟩ := hi
    obtain ⟨t, t', ht, -, -, rfl⟩ := World.step_task h
    exact .inl ⟨g, t, rfl, ht, rfl, rfl⟩
  have hi' : ∀ g, a ≠ .task g .install := fun g he => hi ⟨g, he⟩
  refine .inr ⟨hi', ?_⟩
  by_cases hs : a = .command .store
  · subst hs
    cases World.step_command h with
    | store g command _ => exact ⟨fun _ hc => hc, fun _ hc => hc⟩
    | other _ keys p hplain => cases hplain
  · have hd := drops_step h hi' hs
    exact ⟨hd.goal, hd.handshake⟩

theorem held_step {a : Action F} {hch : Chan} (hV : Voiced w) (hS : SendersOf (Live w) w.shared)
    (hf : Fresh w) (hp : PendingAdmitted w) (h : World.step cfg w a = some w')
    (hh : w'.socket.heldHandshake = some hch) :
    ∃ c, w'.socket.conn = some c ∧ c.script = hch ∧ LastSent w' hch := by
  -- a handshake that was already in progress
  have hold (hsock : w'.socket.heldHandshake = w.socket.heldHandshake)
      (hconn : w'.socket.conn = w.socket.conn) :
      ∃ c, w'.socket.conn = some c ∧ c.script = hch ∧ LastSent w' hch := by
    rw [hsock] at hh
    obtain ⟨c, hc, hcs, hsent⟩ := hV.held hch hh
    refine ⟨c, hconn ▸ hc, hcs, hsent.step hf hp h ?_⟩
    rintro rfl
    obtain ⟨t, t', ht, -, hm, -⟩ := World.step_task h
    -- a script is not written while another still has its connection
    have hnone := (hV.writing _ t ht (Move.of_write hm).1).1
    have := conn_audible hc
    rw [hnone] at this
    cases this
  cases a with
  | socket i =>
      obtain ⟨s, p, hm, rfl⟩ := World.step_socket h
      cases hm with
      | quiet p' hp' =>
          rcases hp' with rfl | ⟨hc, hhs, -⟩
          · cases hh
          · exact hold hhs hc
      | accept c rest goalId handshake feedback _ hb hhs =>
          cases hh
          have hmem : c.script ∈ audible w :=
            mem_audible.mpr (.inr (.inl ⟨c, by rw [hb]; exact List.mem_cons_self .., rfl⟩))
          -- the installed channels are the sender's, since it was heard with them in place
          obtain ⟨hcs, hsent⟩ := hV.caused (hS.handshake hch hhs) (hV.handshake hch hhs) hmem
          exact ⟨c, rfl, hcs, hsent.step hf hp h (by simp)⟩
      | ok c ch hr => rw [hr] at hh; cases hh
      | error c ch hr => rw [hr] at hh; cases hh
      | waypoint c ch n hr => rw [hr] at hh; cases hh
      | _ => cases hh
  | _ =>
      have hs : w'.socket = w.socket := World.socket_of_ne h (by simp)
      exact hold (by rw [hs]) (by rw [hs])

theorem voiced_step {a : Action F} (hV : Voiced w) (hone : AtMostOneLive w)
    (hS : SendersOf (Live w) w.shared) (hf : Fresh w) (hp : PendingAdmitted w)
    (hok : unmixed w a = true) (h : World.step cfg w a = some w') : Voiced w' where
  heard _ _ ht hd hi := heard_step hV hone hok hp h ht hd hi
  writing _ _ ht hw := writing_step hV hone hok hp h ht hw
  goal ch hs := by
    -- the sender is one that this very step installs, or an old one of a task that installs
    -- nothing
    rcases channelSenders_step h with ⟨g, t, rfl, ht, hg, -⟩ | ⟨hi, hg, -⟩
    · rw [hg] at hs
      cases hs
      obtain ⟨u, u', hu, -, hm, rfl⟩ := World.step_task h
      rw [ht] at hu
      cases hu
      have hu' := (Move.of_install hm).2
      exact ⟨u', Function.update_self .., by rw [hu'], by rw [hu']⟩
    · exact lastInstall_step hf hp h (hi _) (hV.goal ch (hg ch hs))
  handshake ch hs := by
    rcases channelSenders_step h with ⟨g, t, rfl, ht, -, hg⟩ | ⟨hi, -, hg⟩
    · rw [hg] at hs
      cases hs
      obtain ⟨u, u', hu, -, hm, rfl⟩ := World.step_task h
      rw [ht] at hu
      cases hu
      have hu' := (Move.of_install hm).2
      exact ⟨u', Function.update_self .., by rw [hu'], by rw [hu']⟩
    · exact lastInstall_step hf hp h (hi _) (hV.handshake ch (hg ch hs))
  held _ hh := held_step hV hS hf hp h hh

/-- A live goal without channels is what a progress line must not be read for. -/
theorem unheard_of {g : Nat} {t : Task F} (hf : Fresh w) (ht : w.task g = some t)
    (hd : t.phase ≠ .done) (hi : t.installed = false) : unheard w = true := by
  have hg : g < w.goals := by
    by_contra hg
    rw [hf g (by omega)] at ht
    cases ht
  refine List.any_eq_true.mpr ⟨g, List.mem_range.mpr hg, ?_⟩
  rw [ht]
  simp [hd, hi]

section Reachable

variable [Zero F]

theorem voiced_reachable (h : Run cfg Unmixed w) : Voiced w := by
  refine h.invariant ⟨?_, ?_, ?_, ?_, ?_⟩ fun _ _ _ hr hV hok hs =>
    voiced_step hV (exclusive_reachable (hr.mono fun _ _ hu => hu.1)).one
      (sendersLive_reachable hr) (fresh_reachable hr) (pendingAdmitted_reachable hr) hok.2 hs
  · intro g t ht; cases ht
  · intro g t ht; cases ht
  · intro ch hc; cases hc
  · intro ch hc; cases hc
  · intro h hh; cases hh

end Reachable

end UrRedisDriver.Proof
