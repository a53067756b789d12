import UrRedisDriver.Proof.Lifetime

/-!
# The senders in `DriverState`

Two blocks put senders in: the one that installs an attempt's channels and the one that
stores an accepted goal's. Everything else only drops them, and a teardown drops them all,
whoever they belong to.
-/

namespace UrRedisDriver.Proof

open UrRedisDriver

variable {F : Type} {cfg : Config F} {w w' : World F}

/-- No sender is in `s'` that was not in `s`. -/
structure Drops (s s' : Shared F) : Prop where
  goal : ∀ ch, s'.ds.goalSender = some ch → s.ds.goalSender = some ch
  handshake : ∀ ch, s'.ds.handshakeSender = some ch → s.ds.handshakeSender = some ch
  feedback : ∀ ch, s'.ds.feedbackSender = some ch → s.ds.feedbackSender = some ch
  cancel : ∀ g, s'.ds.cancelSender = some g → s.ds.cancelSender = some g
  resume : ∀ g, s'.ds.resumeSender = some g → s.ds.resumeSender = some g

theorem Drops.refl (s : Shared F) : Drops s s :=
  ⟨fun _ h => h, fun _ h => h, fun _ h => h, fun _ h => h, fun _ h => h⟩

theorem resolveGoal_drops (s : Shared F) (v : Bool) (r : Resolver) :
    Drops s (s.resolveGoal v r) := by
  obtain ⟨box, by_, he⟩ := s.resolveGoal_eq v r
  rw [he]
  exact { Drops.refl s with goal := nofun }

theorem SocketMove.drops {s s' : Shared F} {p p' : SocketPhase}
    (h : SocketServer.Move s p s' p') : Drops s s' := by
  cases h with
  | accept => exact { Drops.refl s with handshake := nofun }
  | ok c ch _ => exact resolveGoal_drops ..
  | error c ch _ => exact resolveGoal_drops ..
  | close c ch _ => exact { resolveGoal_drops s false (.closed c.script) with feedback := nofun }
  | _ => exact { Drops.refl s with }

theorem RealtimeMove.drops {s s' : Shared F} {p p' : RtPhase}
    (h : RealtimeReader.Move s p s' p') : Drops s s' := by
  cases h with
  | abort => exact { resolveGoal_drops s false .safetyStop with feedback := nofun }
  | _ => exact { Drops.refl s with }

theorem deliverCancel_drops (s : Shared F) : Drops s (CommandServer.deliverCancel s) := by
  unfold CommandServer.deliverCancel
  split
  · exact { Drops.refl s with cancel := nofun }
  · exact .refl s

theorem teardown_drops (s : Shared F) : Drops s (World.teardown s) :=
  ⟨nofun, nofun, nofun, nofun, nofun⟩

theorem effect_drops {up : Bool} {s : Shared F} {g : Nat} {t : Task F} {i : TaskInput}
    (hi : i ≠ .install) : Drops s (World.effect cfg up s g t i) := by
  cases i with
  | install => exact absurd rfl hi
  | teardown => exact teardown_drops s
  | write r => cases r <;> exact { Drops.refl s with }
  | feedback m => cases m <;> exact { Drops.refl s with }
  | sendStop r => cases r <;> exact { Drops.refl s with }
  | redis keys =>
      simp only [World.effect]
      split <;> exact { Drops.refl s with }
  | _ => exact { Drops.refl s with }

theorem drops_step {a : Action F} (h : World.step cfg w a = some w')
    (hi : ∀ g, a ≠ .task g .install) (hs : a ≠ .command .store) : Drops w.shared w'.shared := by
  cases a with
  | client i | robot i | server i =>
      obtain ⟨_, _, _, _, _, _, _, rfl⟩ := World.step_outside h rfl
      exact { Drops.refl _ with }
  | command i =>
      cases World.step_command h with
      | store => exact absurd rfl hs
      | cancel => exact deliverCancel_drops _
      | accept => exact .refl _
      | other => exact { Drops.refl _ with }
  | task g i =>
      obtain ⟨t, t', -, -, -, rfl⟩ := World.step_task h
      exact effect_drops (by rintro rfl; exact hi g rfl)
  | socket i =>
      -- the listener and the realtime task take senders out and put none in
      obtain ⟨s, p, hm, rfl⟩ := World.step_socket h
      exact SocketMove.drops hm
  | realtime i =>
      obtain ⟨s, p, hm, rfl⟩ := World.step_realtime h
      exact RealtimeMove.drops hm
  | dashboard i =>
      cases World.step_dashboard h with
      | other i ds p hf =>
          obtain ⟨_, _, _, _, _, _, _, rfl⟩ := hf.writes
          exact { Drops.refl _ with }
      | _ => exact { Drops.refl _ with }

/-! ## Senders belong to live goals -/

/-- Whose sender is in the slot. -/
structure SendersOf (P : Nat → Prop) (s : Shared F) : Prop where
  goal : ∀ ch, s.ds.goalSender = some ch → P ch.goal
  handshake : ∀ ch, s.ds.handshakeSender = some ch → P ch.goal
  feedback : ∀ ch, s.ds.feedbackSender = some ch → P ch.goal
  cancel : ∀ g, s.ds.cancelSender = some g → P g
  resume : ∀ g, s.ds.resumeSender = some g → P g

theorem SendersOf.of_drops {P Q : Nat → Prop} {s s' : Shared F} (h : SendersOf P s)
    (hd : Drops s s') (hpq : ∀ g, P g → Q g) : SendersOf Q s' where
  goal ch hc := hpq _ (h.goal ch (hd.goal ch hc))
  handshake ch hc := hpq _ (h.handshake ch (hd.handshake ch hc))
  feedback ch hc := hpq _ (h.feedback ch (hd.feedback ch hc))
  cancel g hc := hpq _ (h.cancel g (hd.cancel g hc))
  resume g hc := hpq _ (h.resume g (hd.resume g hc))

theorem sendersLive_step {a : Action F} (hS : SendersOf (Live w) w.shared) (hf : Fresh w)
    (hp : PendingAdmitted w) (h : World.step cfg w a = some w') :
    SendersOf (Live w') w'.shared := by
  have hlive (g : Nat) (ha : a ≠ .task g .teardown) (hl : Live w g) : Live w' g :=
    live_of_step hf h hl ha
  cases a with
  | command i =>
      have hkeep (g : Nat) (hl : Live w g) : Live w' g := hlive g (by simp) hl
      cases World.step_command h with
      -- the two signals are those of the goal just accepted, and it is live
      | store g command hc =>
          obtain ⟨t, ht, hta⟩ := hp g (by rw [hc]; rfl)
          have hg := hkeep g (live_iff.mpr ⟨t, ht, by rw [hta]; exact nofun⟩)
          exact ⟨fun ch hc => hkeep _ (hS.goal ch hc), fun ch hc => hkeep _ (hS.handshake ch hc),
            fun ch hc => hkeep _ (hS.feedback ch hc), fun g' hc => by cases hc; exact hg,
            fun g' hc => by cases hc; exact hg⟩
      | cancel => exact hS.of_drops (deliverCancel_drops _) hkeep
      | accept => exact hS.of_drops (.refl _) hkeep
      | other => exact hS.of_drops { Drops.refl _ with } hkeep
  | task g i =>
      by_cases hi : i = .teardown
      · subst hi
        obtain ⟨t, t', -, -, -, rfl⟩ := World.step_task h
        -- a teardown leaves no sender behind
        exact ⟨nofun, nofun, nofun, nofun, nofun⟩
      have hkeep (g' : Nat) (hl : Live w g') : Live w' g' :=
        hlive g' (by simp [hi]) hl
      by_cases hi' : i = .install
      · subst hi'
        obtain ⟨t, t', ht, -, hm, rfl⟩ := World.step_task h
        have hg := hkeep g (live_iff.mpr ⟨t, ht, (Move.phase_ne hm).1⟩)
        exact ⟨fun ch hc => by cases hc; exact hg, fun ch hc => by cases hc; exact hg,
          fun ch hc => by cases hc; exact hg, fun g' hc => hkeep g' (hS.cancel g' hc),
          fun g' hc => hkeep g' (hS.resume g' hc)⟩
      · exact hS.of_drops (drops_step h (by simp [hi']) (by simp)) hkeep
  | _ => exact hS.of_drops (drops_step h (by simp) (by simp)) fun g => hlive g (by simp)

section Reachable

variable [Zero F] {ok : World F → Action F → Prop}

theorem sendersLive_reachable (h : Run cfg ok w) : SendersOf (Live w) w.shared :=
  h.invariant ⟨nofun, nofun, nofun, nofun, nofun⟩ fun _ _ _ hr hS _ hs =>
    sendersLive_step hS (fresh_reachable hr) (pendingAdmitted_reachable hr) hs

end Reachable

end UrRedisDriver.Proof
