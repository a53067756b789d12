import UrRedisDriver.Proof.Release
import UrRedisDriver.Proof.Waypoints

/-!
# Whose attempt it is

A goal that is re-issued keeps its number and changes its attempt, so that a line comes from a
script of the right goal does not yet make it one of the script that is under way. Between the
end of one attempt and the moment the script of the next one is written, every line there is
to read is of an earlier script.
-/

namespace UrRedisDriver.Proof

open UrRedisDriver

variable {F : Type} {cfg : Config F} {w w' : World F}

/-- A live goal has not had the script of its current attempt written. -/
def unsent (w : World F) : Bool :=
  (List.range w.goals).any fun g =>
    match w.task g with
    | some t => t.phase != .done && (t.scripts == 0 || t.lastScript != t.attempt)
    | none => false

/--
The step reads no line that counts, and none that would be a verdict on a goal, while a live
goal is without the script of its attempt.
-/
def inTime (w : World F) : Action F → Bool
  | .socket (.line l) =>
      match w.socket, l.map ScriptLine.read with
      | .reading _ _, some (.waypoint (some _)) => !unsent w
      | .reading _ _, none | .reading _ _, some .ok | .reading _ _, some .error =>
          w.shared.ds.goalSender.isNone || !unsent w
      | _, _ => true
  | _ => true

def HeardInTime (w : World F) (a : Action F) : Prop := Unmixed w a ∧ inTime w a = true

instance (w : World F) (a : Action F) : Decidable (HeardInTime w a) :=
  inferInstanceAs (Decidable (_ ∧ _))

/-- The script was sent by its goal in the attempt the goal is in. -/
def CurrentScript (w : World F) (ch : Chan) : Prop :=
  ∃ t, w.task ch.goal = some t ∧ t.attempt = ch.attempt ∧ 0 < t.scripts
    ∧ t.lastScript = ch.attempt

/-- What the read loop resolves a goal on: a close, an `ok` or an `error`. -/
def Resolves : Option String → Prop
  | none => True
  | some s => ScriptLine.read s = .ok ∨ ScriptLine.read s = .error

/--
What `socket_server` makes of a line, or of a close, comes from the current script of the goal
it is taken for: the echo it reports on a handshake channel, the verdict it sends on a goal
channel and the progress it stores while a goal is live.
-/
structure Attributed (w : World F) (l : Option String) : Prop where
  handshake : ∀ c goalId h fb, w.socket = .echoing c goalId h fb →
    c.script = h ∧ CurrentScript w h
  goal : ∀ c fb ch, w.socket = .reading c fb → Resolves l → w.shared.ds.goalSender = some ch →
    c.script = ch ∧ CurrentScript w ch
  waypoint : ∀ c fb s n g, w.socket = .reading c fb → l = some s →
    ScriptLine.read s = .waypoint (some n) → Live w g → c.script.goal = g ∧ CurrentScript w c.script

/-- A live goal without its script is what a line must not be read for. -/
theorem current_of_sent {g : Nat} {t : Task F} (hf : Fresh w) (hs : unsent w = false)
    (ht : w.task g = some t) (hd : t.phase ≠ .done) :
    0 < t.scripts ∧ t.lastScript = t.attempt := by
  have hg : g < w.goals := by
    by_contra hg
    rw [hf g (by omega)] at ht
    cases ht
  have hno := List.any_eq_false.mp hs g (List.mem_range.mpr hg)
  rw [ht] at hno
  simp only [Bool.and_eq_true, bne_iff_ne, ne_eq, Bool.or_eq_true, beq_iff_eq] at hno
  constructor
  · by_contra h0
    exact hno ⟨hd, .inl (by omega)⟩
  · by_contra hne
    exact hno ⟨hd, .inr hne⟩

theorem LastSent.current {ch : Chan} (h : LastSent w ch) (hf : Fresh w) (hs : unsent w = false)
    (hl : Live w ch.goal) : CurrentScript w ch := by
  obtain ⟨t, ht, hpos, hlast⟩ := h
  obtain ⟨u, hu, hd⟩ := live_iff.mp hl
  rw [ht] at hu
  cases hu
  have hsent := current_of_sent hf hs ht hd
  exact ⟨t, ht, hsent.2.symm.trans hlast, hpos, hlast⟩

/-! ## A handshake belongs to its attempt -/

/-- A handshake sender that has not been used: in `DriverState`, or with `socket_server`. -/
def HandshakeOut (w : World F) (h : Chan) : Prop :=
  w.shared.ds.handshakeSender = some h ∨ w.socket.heldHandshake = some h

/-- The attempt is not past its handshake, or the goal has left its loop in it. -/
def InHandshake (t : Task F) (h : Chan) : Prop :=
  t.attempt = h.attempt
    ∧ (t.phase = .writing ∨ t.phase = .handshaking ∨ t.exit.isSome = true)

/-- As long as a handshake sender is out, its goal stays in its attempt. -/
structure Awaited (w : World F) : Prop where
  /-- There is one sender for each channel. -/
  once : ∀ h, w.shared.ds.handshakeSender = some h → w.socket.heldHandshake ≠ some h
  boxed : ∀ h v, w.shared.handshakeBox h = some v → InstalledUpTo w h
  out : ∀ h, HandshakeOut w h → w.shared.handshakeBox h = none ∧ InstalledUpTo w h
    ∧ ∃ t, w.task h.goal = some t ∧ InHandshake t h

/-- A task stays in its attempt until its handshake has succeeded. -/
theorem InHandshake.move {t t' : Task F} {i : TaskInput} {h : Chan} (hI : InHandshake t h)
    (hM : Memory t) (hm : Task.Move t i t') (hi : i ≠ .handshake (.value true)) :
    InHandshake t' h := by
  obtain ⟨hattempt, hphase⟩ := hI
  -- in the loop, a goal has not left it
  have hin : ∀ p, t.phase = p → Phase.looping p → p ≠ .writing → p ≠ .handshaking → False := by
    intro p hp hl hw hh
    rcases hphase with hq | hq | hq
    · exact hw (hp ▸ hq)
    · exact hh (hp ▸ hq)
    · rw [hM.exit_none (hp ▸ hl)] at hq
      cases hq
  cases hm with
  | hop i p hh =>
      refine ⟨hattempt, .inr (.inr ?_)⟩
      rcases hphase with hq | hq | hq
      · rw [hq] at hh
        cases hh
      · rw [hq] at hh
        cases hh
      · exact hq
  | leave i e hh => exact ⟨hattempt, .inr (.inr rfl)⟩
  | install hp => exact ⟨hattempt, .inl rfl⟩
  | write hp => exact ⟨hattempt, .inr (.inl rfl)⟩
  | handshake hp => exact absurd rfl hi
  | activate remaining nextScript hp =>
      exact (hin _ hp ⟨rfl, by simp, by simp⟩ (by simp) (by simp)).elim
  | publish keys p written hh =>
      refine ⟨hattempt, .inr (.inr ?_)⟩
      rcases hphase with hq | hq | hq
      · rw [hq] at hh
        cases hh
      · rw [hq] at hh
        cases hh
      · exact hq
  | feedback m hp | stop id hp | restop id hp | measure n next hp =>
      exact (hin _ hp ⟨rfl, by simp, by simp⟩ (by simp) (by simp)).elim

/-- What is in a handshake channel was there, or `socket_server` has just put it there. -/
theorem handshakeBox_step {a : Action F} {h : Chan} {v : Bool}
    (hs : World.step cfg w a = some w') (hb : w'.shared.handshakeBox h = some v) :
    w.shared.handshakeBox h = some v
      ∨ (w.socket.heldHandshake = some h ∧ w'.socket.heldHandshake = none
        ∧ w'.shared.ds = w.shared.ds ∧ w'.task = w.task) := by
  cases a with
  | client i | robot i | server i =>
      obtain ⟨_, _, _, _, _, _, _, rfl⟩ := World.step_outside hs rfl
      exact .inl hb
  | command i =>
      obtain ⟨_, _, _, _, _, _, _, _, _, _, rfl⟩ := World.step_command_frame hs
      exact .inl hb
  | task g i =>
      obtain ⟨t, t', -, -, -, rfl⟩ := World.step_task hs
      left
      cases i with
      | handshake r =>
          -- the value is taken out of the task's own channel
          by_cases he : h = ⟨g, t.attempt⟩
          · subst he
            simp [World.effect] at hb
          · simpa [World.effect, Function.update_of_ne he] using hb
      | write r => cases r <;> exact hb
      | feedback m => cases m <;> exact hb
      | sendStop r => cases r <;> exact hb
      | redis keys =>
          simp only [World.effect] at hb
          split at hb <;> exact hb
      | _ => exact hb
  | socket i =>
      obtain ⟨s, p, hm, rfl⟩ := World.step_socket hs
      cases hm with
      | echo c goalId handshake feedback v' hp =>
          by_cases he : h = handshake
          · subst he
            exact .inr ⟨by rw [hp]; rfl, rfl, rfl, rfl⟩
          · exact .inl (by simpa [Function.update_of_ne he] using hb)
      | ok c ch hp =>
          obtain ⟨box, r, heq⟩ := w.shared.resolveGoal_eq true (.ok c.script)
          exact .inl (by simpa [heq] using hb)
      | error c ch hp =>
          obtain ⟨box, r, heq⟩ := w.shared.resolveGoal_eq false (.error c.script)
          exact .inl (by simpa [heq] using hb)
      | close c ch hp =>
          obtain ⟨box, r, heq⟩ := w.shared.resolveGoal_eq false (.closed c.script)
          exact .inl (by simpa [heq, Shared.clearGoal] using hb)
      | _ => exact .inl hb
  | realtime i =>
      obtain ⟨s, p, hm, rfl⟩ := World.step_realtime hs
      cases hm with
      | abort =>
          obtain ⟨box, r, heq⟩ := w.shared.resolveGoal_eq false .safetyStop
          exact .inl (by simpa [heq, Shared.clearGoal] using hb)
      | _ => exact .inl hb
  | dashboard i => cases World.step_dashboard hs <;> exact .inl hb

/-- `socket_server` has a handshake sender because it had, or because it has just taken it. -/
theorem heldHandshake_step {a : Action F} {h : Chan} (hs : World.step cfg w a = some w')
    (hh : w'.socket.heldHandshake = some h) :
    w.socket.heldHandshake = some h
      ∨ (w.shared.ds.handshakeSender = some h ∧ w'.shared.ds.handshakeSender = none) := by
  cases a with
  | socket i =>
      obtain ⟨s, p, hm, rfl⟩ := World.step_socket hs
      cases hm with
      | quiet p' hp =>
          rcases hp with rfl | ⟨-, hheld, -⟩
          · cases hh
          · exact .inl (hheld ▸ hh)
      | accept c rest goalId handshake feedback _ _ hsender =>
          -- the sender is moved: what the listener holds is no longer stored
          cases hh
          exact .inr ⟨hsender, rfl⟩
      | ok c ch hp | error c ch hp | waypoint c ch n hp => exact .inl hh
      | _ => cases hh
  | _ => exact .inl (World.socket_of_ne hs (by simp) ▸ hh)

/-- A handshake sender is out because it was, or because its goal has just installed it. -/
theorem handshakeOut_step {a : Action F} {h : Chan} (hs : World.step cfg w a = some w')
    (hh : HandshakeOut w' h) : HandshakeOut w h
      ∨ ∃ g t, a = .task g .install ∧ w.task g = some t ∧ h = ⟨g, t.attempt⟩ := by
  rcases hh with hsender | hheld
  · rcases channelSenders_step hs with ⟨g, t, ha, ht, -, hnew⟩ | ⟨-, -, hold⟩
    · rw [hnew] at hsender
      cases hsender
      exact .inr ⟨g, t, ha, ht, rfl⟩
    · exact .inl (.inl (hold h hsender))
  · exact .inl ((heldHandshake_step hs hheld).elim .inr fun hsender => .inl hsender.1)

/-- A goal that is about to install channels has no handshake sender out. -/
theorem Awaited.not_installing {g : Nat} {t : Task F} {h : Chan} (hA : Awaited w)
    (hM : Memory t) (ht : w.task g = some t) (hp : t.phase = .installing) (hg : h.goal = g) :
    ¬ HandshakeOut w h := by
  intro hout
  obtain ⟨-, -, u, hu, -, hphase⟩ := hA.out h hout
  rw [hg, ht] at hu
  cases hu
  rcases hphase with hq | hq | hq
  · rw [hp] at hq
    cases hq
  · rw [hp] at hq
    cases hq
  · rw [hM.exit_none (hp ▸ ⟨rfl, by simp, by simp⟩)] at hq
    cases hq

theorem Awaited.once_step {a : Action F} {h : Chan} (hA : Awaited w)
    (hM : ∀ g t, w.task g = some t → Memory t) (hs : World.step cfg w a = some w')
    (hsender : w'.shared.ds.handshakeSender = some h) : w'.socket.heldHandshake ≠ some h := by
  intro hheld
  rcases heldHandshake_step hs hheld with hold | ⟨-, hnone⟩
  · rcases channelSenders_step hs with ⟨g, t, rfl, ht, -, hnew⟩ | ⟨-, -, hkept⟩
    · rw [hnew] at hsender
      cases hsender
      -- an older sender of the goal would still be awaited
      obtain ⟨u, u', hu, -, hm, -⟩ := World.step_task hs
      rw [ht] at hu
      cases hu
      exact hA.not_installing (hM g t ht) ht (Move.of_install hm).1 rfl (.inr hold)
    · exact hA.once h (hkept h hsender) hold
  · rw [hnone] at hsender
    cases hsender

/-- The goal of a sender that stays out stays in the attempt it is for. -/
theorem Awaited.stays {a : Action F} {h : Chan} (hA : Awaited w)
    (hM : ∀ g t, w.task g = some t → Memory t) (hf : Fresh w) (hp : PendingAdmitted w)
    (hs : World.step cfg w a = some w') (hout : HandshakeOut w h) (hout' : HandshakeOut w' h) :
    w'.shared.handshakeBox h = none ∧ ∃ t, w'.task h.goal = some t ∧ InHandshake t h := by
  obtain ⟨hnone, -, t, ht, hin⟩ := hA.out h hout
  constructor
  · by_contra hne
    obtain ⟨v, hv⟩ := Option.ne_none_iff_exists'.mp hne
    rcases handshakeBox_step hs hv with hold | ⟨hheld, hgone, hds, -⟩
    · rw [hnone] at hold
      cases hold
    · -- the sender has just been used up, and there is no second one
      rcases hout' with hsender | hstill
      · exact hA.once h (hds ▸ hsender) hheld
      · rw [hgone] at hstill
        cases hstill
  · obtain ⟨t', ht'⟩ := task_persists hs ht
    refine ⟨t', ht', ?_⟩
    cases task_origin hp hs ht' with
    | same hsame =>
        rw [ht] at hsame
        cases hsame
        exact hin
    | moved u i _ hu hready hm =>
        rw [ht] at hu
        cases hu
        refine hin.move (hM _ t ht) hm ?_
        rintro rfl
        -- nothing has been reported to it yet
        have hbox : w.shared.handshakeBox ⟨h.goal, t.attempt⟩ = some true := by
          simpa [World.ready] using hready
        rw [hin.1, hnone] at hbox
        cases hbox
    | accepted command script uuid _ _ hg _ =>
        rw [hf h.goal hg.ge] at ht
        cases ht
    | spawned u _ _ hu hadmitted _ =>
        rw [ht] at hu
        cases hu
        obtain ⟨-, hq⟩ := hin
        rw [hadmitted, (hM _ t ht).exit_none (hadmitted ▸ ⟨rfl, by simp, by simp⟩)] at hq
        simp at hq

theorem awaited_step {a : Action F} (hA : Awaited w)
    (hM : ∀ g t, w.task g = some t → Memory t) (hf : Fresh w) (hp : PendingAdmitted w)
    (hs : World.step cfg w a = some w') : Awaited w' where
  once h hsender := hA.once_step hM hs hsender
  boxed h v hv := by
    refine InstalledUpTo.step ?_ hM hf hp hs
    rcases handshakeBox_step hs hv with hold | ⟨hheld, -⟩
    · exact hA.boxed h v hold
    · exact (hA.out h (.inr hheld)).2.1
  out h hout := by
    rcases handshakeOut_step hs hout with hold | ⟨g, t, rfl, ht, rfl⟩
    · obtain ⟨hnone, htask⟩ := hA.stays hM hf hp hs hold hout
      exact ⟨hnone, (hA.out h hold).2.1.step hM hf hp hs, htask⟩
    · obtain ⟨u, u', hu, -, hm, rfl⟩ := World.step_task hs
      rw [ht] at hu
      cases hu
      obtain ⟨hphase, rfl⟩ := Move.of_install hm
      refine ⟨?_, ⟨_, Function.update_self .., rfl, le_rfl⟩, _, Function.update_self .., rfl,
        .inl rfl⟩
      -- nothing can have been put into the channels of an attempt that had none
      by_contra hne
      obtain ⟨v, hv⟩ := Option.ne_none_iff_exists'.mp hne
      obtain ⟨x, hx, hins, hle⟩ := hA.boxed _ v hv
      rw [ht] at hx
      cases hx
      exact Nat.not_lt_of_le hle ((hM g t ht).fresh (.inr (.inr hphase)) hins)

/-! ## Every line -/

theorem Voiced.attributed {l : Option String} (hV : Voiced w) (hA : Awaited w)
    (hS : SendersOf (Live w) w.shared) (hf : Fresh w)
    (hok : HeardInTime w (.socket (.line l))) : Attributed w l where
  handshake c goalId h fb hsock := by
    obtain ⟨c', hc', hcs, t, ht, hpos, hlast⟩ := hV.held h (by rw [hsock]; rfl)
    rw [hsock] at hc'
    cases hc'
    -- a handshake that is still out keeps its goal in the attempt it was installed for
    obtain ⟨-, -, u, hu, hin⟩ := hA.out h (.inr (by rw [hsock]; rfl))
    rw [ht] at hu
    cases hu
    exact ⟨hcs, t, ht, hin.1, hpos, hlast⟩
  goal c fb ch hsock hres hs := by
    have hlive := hS.goal ch hs
    -- the script that is heard is the last one of its goal, and by the condition that of its
    -- attempt
    obtain ⟨hcs, hsent⟩ := hV.caused hlive (hV.goal ch hs) (conn_audible (by rw [hsock]; rfl))
    refine ⟨hcs, hsent.current hf ?_ hlive⟩
    have htime := hok.2
    cases l with
    | none => simpa [inTime, hsock, hs] using htime
    | some s => rcases hres with hread | hread <;> simpa [inTime, hsock, hs, hread] using htime
  waypoint c fb s n g hsock hl hread hlive := by
    subst hl
    have hsent : unsent w = false := by
      have htime := hok.2
      simpa [inTime, hsock, hread] using htime
    obtain ⟨t, ht, hd⟩ := live_iff.mp hlive
    have hmem : c.script ∈ audible w := conn_audible (by rw [hsock]; rfl)
    cases hi : t.installed with
    | false =>
        -- a goal without channels: such a progress line is what `Unmixed` excludes
        have hu : unmixed w (.socket (.line (some s))) = true := hok.1.2
        simp only [unmixed, hsock, hread, unheard_of hf ht hd hi] at hu
        cases hu
    | true =>
        have hcaused : c.script = (⟨g, t.lastInstall⟩ : Chan) ∧ LastSent w ⟨g, t.lastInstall⟩ :=
          hV.caused hlive ⟨t, ht, hi, rfl⟩ hmem
        rw [hcaused.1]
        exact ⟨rfl, hcaused.2.current hf hsent hlive⟩

section Reachable

variable [Zero F]

theorem awaited_reachable {ok : World F → Action F → Prop} (h : Run cfg ok w) : Awaited w := by
  refine h.invariant ⟨?_, ?_, ?_⟩ fun _ _ _ hr hA _ hs =>
    awaited_step hA (memory_reachable hr) (fresh_reachable hr) (pendingAdmitted_reachable hr) hs
  · intro h hh
    cases hh
  · intro h v hv
    cases hv
  · rintro h (hh | hh) <;> cases hh

/--
**Verdict attribution.** In every run in which no request passes the admission block while a
live goal is exposed, no channels are installed while a script can be heard from, and no line
that counts or would be a verdict is read while a live goal is without the script of its
attempt, whatever `socket_server` makes of a line or a close comes from the script that the
goal it is taken for has sent in its current attempt.
-/
theorem line_attributed {l : Option String} (h : Run cfg HeardInTime w)
    (hok : HeardInTime w (.socket (.line l))) : Attributed w l :=
  (voiced_reachable (h.mono fun _ _ hh => hh.1)).attributed (awaited_reachable h)
    (sendersLive_reachable h) (fresh_reachable h) hok

end Reachable

open Scenario

namespace Scenario

/-- A paused script that is stopped, ends and is heard to, and the next attempt's script at
work. -/
def heardAgain : List (Action Int) :=
  [.task 0 .resume, .task 0 (.measure 1), .task 0 .claim, .task 0 (.sendStop (some 2)),
    .dashboard (.take ⟨.stop, 2, .goal 0, true⟩)]
    ++ trip "Stopped"
    ++ [.dashboard .answer, .task 0 (.stopReply (some (.ok "Stopped"))),
      .robot (.finish ⟨0, 0⟩), .socket (.line none), .task 0 (.drain (some (some false))),
      .task 0 .reset, .task 0 .activate]
    ++ launch 0 ++ shake ⟨0, 1⟩ "a"

end Scenario

set_option maxRecDepth 4000 in
/-- A goal in its second attempt, whose script reports a waypoint and then `ok`. -/
theorem line_attributed_trace : ∃ w : World Int, Run config HeardInTime w
    ∧ w.socket = .reading ⟨⟨0, 1⟩⟩ ⟨0, 1⟩ ∧ w.shared.ds.goalSender = some ⟨0, 1⟩
    ∧ Attributed w (some "waypoint_reached 0") ∧ Attributed w (some "ok") := by
  have hrun : (Lts.runBy (World.step config) HeardInTime World.init
      (firstReported ++ pauseResumeAt 0 ++ heardAgain)).any (fun w =>
        w.socket == .reading ⟨⟨0, 1⟩⟩ ⟨0, 1⟩ && w.shared.ds.goalSender == some ⟨0, 1⟩
          && decide (HeardInTime w (.socket (.line (some "waypoint_reached 0"))))
          && decide (HeardInTime w (.socket (.line (some "ok"))))) = true := by
    decide
  obtain ⟨w, hw, hp⟩ := Lts.exists_of_runBy hrun
  simp only [Bool.and_eq_true, beq_iff_eq, decide_eq_true_eq] at hp
  obtain ⟨⟨⟨hsock, hsender⟩, hway⟩, hok⟩ := hp
  exact ⟨w, hw, hsock, hsender, line_attributed hw hway, line_attributed hw hok⟩

/-- A goal that has succeeded and is gone, its script's connection still open when the next
goal installs its channels: the close will fail the next goal. -/
theorem not_line_attributed :
    ¬ ∀ (w w' : World Int) (l : Option String), Lts.Reachable (World.step config) World.init w →
      World.step config w (.socket (.line l)) = some w' → Attributed w l := by
  intro h
  have hrun : (Lts.run (World.step config) World.init
      (start ++ request "a" ++ launch 0 ++ shake ⟨0, 0⟩ "a"
        ++ [.socket (.line (some "ok")), .task 0 (.goal (some true))]
        ++ succeed 0 { requestState := .executing } ++ [.task 0 .teardown]
        ++ request "b" ++ [.task 1 (.connect (.ok ())), .task 1 .install])).any (fun w =>
        (World.step config w (.socket (.line none))).isSome
          && (w.socket == .reading ⟨⟨0, 0⟩⟩ ⟨0, 0⟩
            && w.shared.ds.goalSender == some ⟨1, 0⟩)) = true := by
    decide
  obtain ⟨w, hw, hp⟩ := Lts.exists_of_run hrun
  obtain ⟨hstep, hp⟩ := Bool.and_eq_true_iff.mp hp
  obtain ⟨w', hs⟩ := Option.isSome_iff_exists.mp hstep
  obtain ⟨hsock, hsender⟩ := Bool.and_eq_true_iff.mp hp
  -- the close of the first goal's connection finds the second goal's sender
  have hcause := ((h w w' none hw hs).goal _ _ _ (eq_of_beq hsock) trivial (eq_of_beq hsender)).1
  exact absurd hcause (by decide)

end UrRedisDriver.Proof
