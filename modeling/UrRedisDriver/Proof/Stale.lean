import UrRedisDriver.Proof.Admission
import UrRedisDriver.Proof.Requests

/-!
# Stale commands

The dashboard channel outlives the connection and the patience of whoever queued a command,
and the dashboard task never looks whether anybody still waits for the reply. A command is
written for somebody who waits as long as nobody gives up on one that has not been written
yet, and as long as nothing is queued for a connection that is not up.
-/

namespace UrRedisDriver.Proof

open UrRedisDriver

variable {F : Type} {cfg : Config F} {w w' : World F}

/-- Whoever queued the command still waits for its reply. -/
def Waits (w : World F) (r : Request) : Prop :=
  match r.requester with
  | .server => w.server.awaits = some r.id
  | .goal g => ∃ t, w.task g = some t
      ∧ (t.phase = .stopPending ∨ t.phase = .restopPending) ∧ t.stopRequest = r.id

/-- Some line of this command is still to be written. -/
def unwritten (w : World F) (id : Nat) : Bool :=
  w.shared.queue.any (·.id == id) || w.dashboard.serves.any (·.id == id)

/--
The step gives up on no command with a line still to be written, and queues none while
the dashboard socket is not being served. Those who can give up are `dashboard_server`, by
its timeout, and a goal whose verdict arrives while the stop of its cancel is pending.
-/
def attended (w : World F) : Action F → Bool
  | .server .timeout => w.server.awaits.all fun id => !unwritten w id
  | .task g (.goal _) =>
      (w.task g).all fun t => t.phase != .stopPending || !unwritten w t.stopRequest
  | .server .submit => w.dashboard.up
  | .task _ (.sendStop (some _)) => w.dashboard.up
  | _ => true

abbrev Attended (w : World F) (a : Action F) : Prop := attended w a = true

/-- The command is in the channel, or being written. -/
def Due (w : World F) (r : Request) : Prop := r ∈ w.shared.queue ∨ w.dashboard.serves = some r

theorem Due.unwritten {r : Request} (h : Due w r) : unwritten w r.id = true := by
  rcases h with h | h
  · simp only [Proof.unwritten, Bool.or_eq_true, List.any_eq_true]
    exact .inl ⟨r, h, by simp⟩
  · simp [Proof.unwritten, h]

theorem Due.outstanding {r : Request} (h : Due w r) :
    r ∈ outstanding w.dashboard.holds w.shared := by
  rcases h with h | h
  · exact List.mem_append_right _ h
  · exact List.mem_append_left _ (by rw [DashPhase.holds_of_serves h]; simp)

/-- Every command that is due was queued for this connection or another that was up, and is
waited for. -/
def Tended (w : World F) : Prop := ∀ r, Due w r → Waits w r ∧ r.queuedWhileUp = true

theorem not_ready_stopReply {g : Nat} {t : Task F} {r : Option DashboardReply}
    (hreply : w.shared.reply t.stopRequest = none) : w.ready g t (.stopReply r) = false := by
  cases r <;> simp [World.ready, hreply]

/-- A goal does not stop waiting for a stop that is not answered, but for its verdict. -/
theorem Move.keepsWaiting {t t' : Task F} {i : TaskInput} {g : Nat} (hm : Task.Move t i t')
    (hready : w.ready g t i = true) (hreply : w.shared.reply t.stopRequest = none)
    (hp : t.phase = .stopPending ∨ t.phase = .restopPending) :
    t.phase = .stopPending ∧ ∃ v, i = .goal v := by
  -- there is no reply yet, so nothing that waits for it goes on
  have hno (r : Option DashboardReply) : i ≠ .stopReply r := by
    rintro rfl
    rw [not_ready_stopReply hreply] at hready
    cases hready
  cases hm with
  | hop i p hh =>
      generalize t.phase = q at hh hp
      cases hh with
      | stopped r => exact absurd rfl (hno r)
      | _ => simp at hp
  | leave i e hh =>
      generalize t.phase = q at hh hp
      cases hh with
      | verdict _ v hq =>
          rcases hp with rfl | rfl
          · -- a verdict may still win while a stop is under way
            exact ⟨rfl, v, rfl⟩
          · simp at hq
      | answered reply => exact absurd rfl (hno _)
      | unanswered => exact absurd rfl (hno _)
      | _ => simp at hp
  | publish keys p written hh =>
      have hpub := hh.publishing.1
      rcases hp with hp | hp <;> rw [hp] at hpub <;> cases hpub
  | install hq | write hq | handshake hq | feedback m hq | stop id hq | restop id hq
  | measure n next hq | activate remaining nextScript hq => rw [hq] at hp; simp at hp

/-- Who waits for a command that is due waits on, unless the step gives up on it. -/
theorem Waits.step {a : Action F} {r : Request} (hw : Waits w r) (hd : Due w r)
    (hok : Attended w a) (hf : Fresh w) (hp : PendingAdmitted w)
    (hl : Ledger w.dashboard.holds w.shared) (h : World.step cfg w a = some w') : Waits w' r := by
  have hnone : w.shared.reply r.id = none := hl.unanswered r hd.outstanding
  -- only the waiter's own next input can end the wait, and `hok` keeps that one out
  unfold Waits at hw ⊢
  split
  · -- `dashboard_server`
    rename_i hreq
    rw [hreq] at hw
    dsimp only at hw
    cases a with
    | server i =>
        obtain ⟨s, p, hm, rfl⟩ := World.step_server h
        cases hm with
        | submit cmd hs => rw [hs] at hw; cases hw
        | reply id p' ha hr _ =>
            rw [hw] at ha
            cases ha
            -- the ledger has no reply for a command that is still due
            rw [hnone] at hr
            cases hr
        | timeout id p' ha _ =>
            have hgone : attended w (.server .timeout) = true := hok
            simp only [attended, hw, Option.all_some, hd.unwritten] at hgone
            cases hgone
        | other i keys p' hn _ => rw [hw] at hn; cases hn
    | _ => rwa [World.server_of_ne h (by simp)]
  · -- a goal
    rename_i g hreq
    rw [hreq] at hw
    obtain ⟨t, ht, hphase, hid⟩ := hw
    obtain ⟨t', ht'⟩ := task_persists h ht
    cases task_origin hp h ht' with
    | same hs =>
        rw [ht] at hs
        cases hs
        exact ⟨t, ht', hphase, hid⟩
    | moved u i ha hu hready hm =>
        rw [ht] at hu
        cases hu
        subst ha
        -- the one exit from `stopPending` without a reply is a verdict
        obtain ⟨hq, v, rfl⟩ := Move.keepsWaiting hm hready (hid ▸ hnone) hphase
        have hgone : attended w (.task g (.goal v)) = true := hok
        simp only [attended, ht, Option.all_some, hq, hid, hd.unwritten] at hgone
        cases hgone
    | accepted command script uuid _ _ hg _ =>
        -- the new goal takes a fresh slot, so it is not this one
        rw [hf g hg.ge] at ht
        cases ht
    | spawned u _ _ hu hta _ =>
        rw [ht] at hu
        cases hu
        rw [hta] at hphase
        simp at hphase

theorem serves_start {r r' : Request} (h : (DashPhase.start r).serves = some r') : r' = r := by
  unfold DashPhase.start at h
  split at h <;> simpa [DashPhase.serves, eq_comm] using h

/-- A command is due because it was, or because this step queued it. -/
theorem Due.step {a : Action F} {r : Request} (h : World.step cfg w a = some w')
    (hd : Due w' r) (hok : Attended w a) : Due w r ∨ (Waits w' r ∧ r.queuedWhileUp = true) := by
  cases a with
  | task g i =>
      obtain ⟨t, t', ht, hready, hm, rfl⟩ := World.step_task h
      -- of a goal's inputs only `sendStop` queues anything
      by_cases hi : ∃ id, i = .sendStop (some id)
      · obtain ⟨id, rfl⟩ := hi
        have hn : id = w.shared.nextRequest := by
          simp only [World.ready, Bool.and_eq_true, beq_iff_eq] at hready
          exact hready.2
        rcases hd with hd | hd
        · rcases List.mem_append.mp hd with hd | hd
          · exact .inl (.inl hd)
          · right
            -- the new command: its sender went to wait for it in this same step
            rw [List.mem_singleton.mp hd]
            refine ⟨⟨t', Function.update_self .., ?_, ?_⟩, hok⟩
            · rcases Move.of_sendStop hm with ⟨-, rfl⟩ | ⟨-, rfl⟩ <;> simp
            · rcases Move.of_sendStop hm with ⟨-, rfl⟩ | ⟨-, rfl⟩ <;> exact hn
        · exact .inl (.inr hd)
      · have hs : SameLedger w.shared (World.effect cfg w.dashboard.up w.shared g t i) :=
          effect_sameLedger fun id he => hi ⟨id, he⟩
        rw [Due, hs.queue] at hd
        exact .inl hd
  | dashboard i =>
      cases World.step_dashboard h with
      | take r' rest hdash hq =>
          rcases hd with hd | hd
          · exact .inl (.inl (by rw [hq]; exact List.mem_cons_of_mem _ hd))
          -- the command being served is the one that headed the queue
          · rw [serves_start hd]
            exact .inl (.inl (by rw [hq]; exact List.mem_cons_self ..))
      | signal r' g result _ _ =>
          rcases hd with hd | hd
          · exact .inl (.inl hd)
          · cases hd
      | answer r' result p _ hp =>
          rcases hd with hd | hd
          · exact .inl (.inl hd)
          · rcases hp with rfl | rfl <;> cases hd
      | other i ds p hf => exact .inl (hd.imp id (hf.serves r))
  | server i =>
      obtain ⟨s, p, hm, rfl⟩ := World.step_server h
      cases hm with
      | submit cmd hs =>
          rcases hd with hd | hd
          · rcases List.mem_append.mp hd with hd | hd
            · exact .inl (.inl hd)
            · right
              rw [List.mem_singleton.mp hd]
              exact ⟨rfl, hok⟩
          · exact .inl (.inr hd)
      | reply => exact .inl hd
      | timeout => exact .inl hd
      | other => exact .inl hd
  | _ =>
      have hs := sameLedger_step h (by simp) (by simp) (by simp)
      rw [Due, hs.queue, World.dashboard_of_ne h (by simp)] at hd
      exact .inl hd

theorem tended_step {a : Action F} (hT : Tended w) (hok : Attended w a) (hf : Fresh w)
    (hp : PendingAdmitted w) (hl : Ledger w.dashboard.holds w.shared)
    (h : World.step cfg w a = some w') : Tended w' := by
  intro r hd'
  rcases Due.step h hd' hok with hd | hnew
  · obtain ⟨hw, hup⟩ := hT r hd
    exact ⟨hw.step hd hok hf hp hl h, hup⟩
  · exact hnew

section Reachable

variable [Zero F]

theorem tended_reachable (h : Run cfg Attended w) : Tended w := by
  refine h.invariant ?_ fun _ _ _ hr hT hok hs =>
    tended_step hT hok (fresh_reachable hr) (pendingAdmitted_reachable hr) (ledger_reachable hr) hs
  rintro r (hr | hr) <;> cases hr

/--
**No stale command is written.** In every run in which nobody gives up on a command with a
line still to be written and none is queued while the dashboard socket is down, whoever
queued a command is waiting for it whenever a line of it is about to be written, and no
command is carried over from when the socket was down.
-/
theorem written_waited {r : Request} {sender : Option Nat} {play : String} {trip : Trip}
    (h : Run cfg Attended w) (hd : w.dashboard = .sending (.request r sender play) trip) :
    Waits w r ∧ r.queuedWhileUp = true :=
  tended_reachable h r (.inr (by rw [hd]; rfl))

end Reachable

open Scenario

/-- The queued command whose line is about to be written. -/
def beingWritten : DashPhase → Option Request
  | .sending (.request r _ _) _ => some r
  | _ => none

theorem sending_of_beingWritten {p : DashPhase} {r : Request} (h : beingWritten p = some r) :
    ∃ sender play trip, p = .sending (.request r sender play) trip := by
  unfold beingWritten at h
  split at h
  · cases h; exact ⟨_, _, _, rfl⟩
  · cases h

/-- A `stop` queued while the socket is down, reported as timed out, and written once the
socket is up. -/
theorem not_written_waited :
    ¬ ∀ (w : World Int) (r : Request) (sender : Option Nat) (play : String) (trip : Trip),
      Lts.Reachable (World.step config) World.init w →
      w.dashboard = .sending (.request r sender play) trip →
      Waits w r ∧ r.queuedWhileUp = true := by
  intro h
  have hrun : (Lts.run (World.step config) World.init (askDashboard "stop" ""
      ++ [.server .timeout] ++ dashboardUp
      ++ [.dashboard (.take ⟨.stop, 0, .server, false⟩)])).any (fun w =>
        (beingWritten w.dashboard).any fun r => !r.queuedWhileUp) = true := by
    decide
  obtain ⟨w, hw, hp⟩ := Lts.exists_of_run hrun
  obtain ⟨r, hr, hp⟩ := (Option.any_eq_true _ _).mp hp
  obtain ⟨sender, play, trip, hd⟩ := sending_of_beingWritten hr
  rw [(h w r sender play trip hw hd).2] at hp
  cases hp

/-- A `stop` queued for a socket that is up. -/
theorem written_waited_trace : ∃ (w : World Int) (r : Request), Run config Attended w
    ∧ Waits w r ∧ r.queuedWhileUp = true := by
  have hrun : (Lts.runBy (World.step config) Attended World.init (dashboardUp
      ++ askDashboard "stop" "" ++ [.dashboard (.take ⟨.stop, 0, .server, true⟩)])).any (fun w =>
        (beingWritten w.dashboard).isSome) = true := by
    decide
  obtain ⟨w, hw, hp⟩ := Lts.exists_of_runBy hrun
  obtain ⟨r, hr⟩ := Option.isSome_iff_exists.mp hp
  obtain ⟨sender, play, trip, hd⟩ := sending_of_beingWritten hr
  exact ⟨w, r, hw, written_waited hw hd⟩

end UrRedisDriver.Proof
