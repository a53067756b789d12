import UrRedisDriver.Proof.Lifetime

/-!
# Commands on their way through the dashboard channel

Every command queued for the dashboard task has the number of its reply channel. The
commands that were queued and not answered yet are the one the task holds and the ones in
the queue, in the order of their numbers; a reply channel is written once.
-/

namespace UrRedisDriver.Proof

open UrRedisDriver

variable {F : Type} {cfg : Config F} {w w' : World F}

/-- The commands not answered yet, oldest first. -/
def outstanding (held : Option Request) (s : Shared F) : List Request := held.toList ++ s.queue

/-- The state of the dashboard channel and its reply channels. -/
structure Ledger (held : Option Request) (s : Shared F) : Prop where
  count : s.sent.length = s.nextRequest
  sent : ∀ r ∈ outstanding held s, s.sent[r.id]? = some r
  sorted : (outstanding held s).Pairwise fun r r' => r.id < r'.id
  unanswered : ∀ r ∈ outstanding held s, s.reply r.id = none
  fresh : ∀ id, s.nextRequest ≤ id → s.reply id = none
  acked : ∀ (r : Request) reply g, s.sent[r.id]? = some r → s.reply r.id = some reply →
    reply.success = true → r.command = .stop → r.requester = .goal g → s.stopAcked g = true

/-! ## What leaves it alone -/

structure SameLedger (s s' : Shared F) : Prop where
  queue : s'.queue = s.queue
  nextRequest : s'.nextRequest = s.nextRequest
  reply : s'.reply = s.reply
  sent : s'.sent = s.sent
  stopAcked : s'.stopAcked = s.stopAcked

theorem Ledger.of_same {held : Option Request} {s s' : Shared F} (h : Ledger held s)
    (hs : SameLedger s s') : Ledger held s' := by
  obtain ⟨hq, hn, hr, ht, ha⟩ := hs
  have ho : outstanding held s' = outstanding held s := by rw [outstanding, hq, outstanding]
  exact
    { count := by rw [ht, hn]; exact h.count
      sent := by rw [ho, ht]; exact h.sent
      sorted := by rw [ho]; exact h.sorted
      unanswered := by rw [ho, hr]; exact h.unanswered
      fresh := by rw [hn, hr]; exact h.fresh
      acked := by rw [ht, hr, ha]; exact h.acked }

theorem resolveGoal_sameLedger (s : Shared F) (v : Bool) (r : Resolver) :
    SameLedger s (s.resolveGoal v r) := by
  obtain ⟨box, by_, he⟩ := s.resolveGoal_eq v r
  rw [he]
  exact ⟨rfl, rfl, rfl, rfl, rfl⟩

theorem SocketMove.sameLedger {s s' : Shared F} {p p' : SocketPhase}
    (h : SocketServer.Move s p s' p') : SameLedger s s' := by
  cases h with
  | ok c ch _ => exact resolveGoal_sameLedger ..
  | error c ch _ => exact resolveGoal_sameLedger ..
  | close c ch _ => exact { resolveGoal_sameLedger s false (.closed c.script) with }
  | _ => exact ⟨rfl, rfl, rfl, rfl, rfl⟩

theorem RealtimeMove.sameLedger {s s' : Shared F} {p p' : RtPhase}
    (h : RealtimeReader.Move s p s' p') : SameLedger s s' := by
  cases h with
  | abort => exact { resolveGoal_sameLedger s false .safetyStop with }
  | _ => exact ⟨rfl, rfl, rfl, rfl, rfl⟩

/-- A goal's task only ever queues a stop. -/
theorem effect_sameLedger {up : Bool} {s : Shared F} {g : Nat} {t : Task F} {i : TaskInput}
    (hi : ∀ id, i ≠ .sendStop (some id)) : SameLedger s (World.effect cfg up s g t i) := by
  cases i with
  | sendStop r =>
      cases r with
      | none => exact ⟨rfl, rfl, rfl, rfl, rfl⟩
      | some id => exact absurd rfl (hi id)
  | write r => cases r <;> exact ⟨rfl, rfl, rfl, rfl, rfl⟩
  | feedback m => cases m <;> exact ⟨rfl, rfl, rfl, rfl, rfl⟩
  | redis keys =>
      simp only [World.effect]
      split <;> exact ⟨rfl, rfl, rfl, rfl, rfl⟩
  | _ => exact ⟨rfl, rfl, rfl, rfl, rfl⟩

/-! ## What a command goes through -/

theorem getElem?_append_of_some {α : Type} {l l' : List α} {k : Nat} {x : α}
    (h : l[k]? = some x) : (l ++ l')[k]? = some x := by
  obtain ⟨hk, rfl⟩ := List.getElem?_eq_some_iff.mp h
  rw [List.getElem?_append_left hk, List.getElem?_eq_getElem hk]

theorem Ledger.submit {held : Option Request} {s : Shared F} (h : Ledger held s)
    (cmd : DashboardCommand) (req : Requester) (up : Bool) :
    Ledger held (s.submit cmd req up) := by
  have ho : outstanding held (s.submit cmd req up)
      = outstanding held s ++ [⟨cmd, s.nextRequest, req, up⟩] := by
    simp [outstanding, Shared.submit]
  have hlt (r : Request) (hr : r ∈ outstanding held s) : r.id < s.nextRequest := by
    rw [← h.count]
    exact (List.getElem?_eq_some_iff.mp (h.sent r hr)).1
  refine ⟨?_, ?_, ?_, ?_, ?_, ?_⟩
  · simp [Shared.submit, h.count]
  · rw [ho]
    intro r hr
    rcases List.mem_append.mp hr with hr | hr
    · exact getElem?_append_of_some (h.sent r hr)
    · rw [List.mem_singleton.mp hr]
      simp [Shared.submit, ← h.count]
  · rw [ho, List.pairwise_append]
    refine ⟨h.sorted, List.pairwise_singleton .., fun r hr r' hr' => ?_⟩
    rw [List.mem_singleton.mp hr']
    exact hlt r hr
  · rw [ho]
    intro r hr
    rcases List.mem_append.mp hr with hr | hr
    · exact h.unanswered r hr
    · rw [List.mem_singleton.mp hr]
      exact h.fresh _ le_rfl
  · intro id hid
    exact h.fresh id (Nat.le_of_succ_le hid)
  · intro r reply g hsent hreply
    -- the new command has no reply yet, so an answered one was there before
    have hr : r.id < s.sent.length := by
      by_contra hn
      rw [show (s.submit cmd req up).reply r.id = s.reply r.id from rfl,
        h.fresh r.id (by rw [← h.count]; omega)] at hreply
      cases hreply
    have hold : s.sent[r.id]? = some r := by
      rwa [show (s.submit cmd req up).sent = s.sent ++ [⟨cmd, s.nextRequest, req, up⟩] from rfl,
        List.getElem?_append_left hr] at hsent
    exact h.acked r reply g hold hreply

theorem Ledger.take {s : Shared F} {r : Request} {rest : List Request} (h : Ledger none s)
    (hq : s.queue = r :: rest) : Ledger (some r) { s with queue := rest } := by
  have ho : outstanding (some r) { s with queue := rest } = outstanding none s := by
    simp [outstanding, hq]
  exact
    { count := h.count
      sent := by rw [ho]; exact h.sent
      sorted := by rw [ho]; exact h.sorted
      unanswered := by rw [ho]; exact h.unanswered
      fresh := h.fresh
      acked := h.acked }

/-- The dashboard task answers the command it holds. -/
theorem Ledger.answer {s : Shared F} {r : Request} (h : Ledger (some r) s)
    (reply : DashboardReply) :
    Ledger none { s with
      reply := Function.update s.reply r.id (some reply)
      stopAcked := acknowledge s.stopAcked r reply } := by
  have ho : outstanding (some r) s = r :: s.queue := rfl
  have hsorted := h.sorted
  rw [ho, List.pairwise_cons] at hsorted
  have hr : s.sent[r.id]? = some r := h.sent r (by rw [ho]; exact List.mem_cons_self ..)
  refine ⟨h.count, ?_, hsorted.2, ?_, ?_, ?_⟩
  · intro r' hr'
    exact h.sent r' (by rw [ho]; exact List.mem_cons_of_mem _ hr')
  · intro r' hr'
    -- the commands are in the order of their numbers, so no other has this one
    have hne : r'.id ≠ r.id := Nat.ne_of_gt (hsorted.1 r' hr')
    dsimp only
    rw [Function.update_of_ne hne]
    exact h.unanswered r' (by rw [ho]; exact List.mem_cons_of_mem _ hr')
  · intro id hid
    have hne : id ≠ r.id := by
      have := (List.getElem?_eq_some_iff.mp hr).1
      rw [h.count] at this
      have hid' : s.nextRequest ≤ id := hid
      omega
    dsimp only
    rw [Function.update_of_ne hne]
    exact h.fresh id hid
  · intro r' reply' g hsent hreply hsucc hstop hreq
    by_cases hid : r'.id = r.id
    · have he : r' = r := by
        have hsent' : s.sent[r'.id]? = some r' := hsent
        rw [hid, hr] at hsent'
        exact (Option.some.inj hsent').symm
      subst he
      have hsame : reply = reply' := by simpa using hreply
      subst hsame
      exact acknowledge_stop hreq hstop hsucc
    · dsimp only at hreply
      rw [Function.update_of_ne hid] at hreply
      exact acknowledge_mono (h.acked r' reply' g hsent hreply hsucc hstop hreq)

/-! ## Every run -/

theorem Move.of_sendStop {t t' : Task F} {id : Nat} (h : Task.Move t (.sendStop (some id)) t') :
    (t.phase = .cancelling ∧ t' = { t with phase := .stopPending, stopRequest := id })
    ∨ (t.phase = .restopping ∧ t' = { t with phase := .restopPending, stopRequest := id }) := by
  cases h with
  | stop _ hp => exact .inl ⟨hp, rfl⟩
  | restop _ hp => exact .inr ⟨hp, rfl⟩
  | leave _ e hh => generalize t.phase = q at hh; cases hh
  | hop _ p hh => generalize t.phase = q at hh; cases hh

theorem holds_start (r : Request) : (DashPhase.start r).holds = some r := by
  unfold DashPhase.start
  split <;> rfl

/-- Commands are queued by a cancel and by `dashboard_server`, and answered by the dashboard
task. -/
theorem sameLedger_step {a : Action F} (h : World.step cfg w a = some w')
    (ht : ∀ g id, a ≠ .task g (.sendStop (some id))) (hs : ∀ i, a ≠ .server i)
    (hd : ∀ i, a ≠ .dashboard i) : SameLedger w.shared w'.shared := by
  cases a with
  | client i => rw [World.step_client h]; exact ⟨rfl, rfl, rfl, rfl, rfl⟩
  | robot i =>
      obtain ⟨s, hs, rfl⟩ := World.step_robot h
      obtain ⟨backlog, running, rfl⟩ := World.robotStep_frame hs
      exact ⟨rfl, rfl, rfl, rfl, rfl⟩
  | command i =>
      obtain ⟨_, _, _, _, _, _, _, _, _, _, rfl⟩ := World.step_command_frame h
      exact ⟨rfl, rfl, rfl, rfl, rfl⟩
  | task g i =>
      obtain ⟨t, t', -, -, -, rfl⟩ := World.step_task h
      exact effect_sameLedger fun id he => ht g id (by rw [he])
  | socket i =>
      obtain ⟨s, p, hm, rfl⟩ := World.step_socket h
      exact SocketMove.sameLedger hm
  | realtime i =>
      obtain ⟨s, p, hm, rfl⟩ := World.step_realtime h
      exact RealtimeMove.sameLedger hm
  | dashboard i => exact absurd rfl (hd i)
  | server i => exact absurd rfl (hs i)

/-- One step, by what it does to the commands that were queued and to their replies. -/
inductive LedgerMove (w w' : World F) : Prop
  | same : SameLedger w.shared w'.shared → w'.dashboard.holds = w.dashboard.holds →
      LedgerMove w w'
  | submit (cmd : DashboardCommand) (req : Requester) :
      cmd = .stop ∨ w.server = .submitting cmd →
      w'.shared = w.shared.submit cmd req w.dashboard.up → w'.dashboard = w.dashboard →
      LedgerMove w w'
  | take (r : Request) (rest : List Request) :
      w.dashboard.holds = none → w'.dashboard.holds = some r →
      w.shared.queue = r :: rest → w'.shared = { w.shared with queue := rest } → LedgerMove w w'
  | answer (r : Request) (reply : DashboardReply) :
      w.dashboard.holds = some r → w'.dashboard.holds = none →
      w'.shared = { w.shared with
        reply := Function.update w.shared.reply r.id (some reply)
        stopAcked := acknowledge w.shared.stopAcked r reply } → LedgerMove w w'

theorem ledger_move {a : Action F} (h : World.step cfg w a = some w') : LedgerMove w w' := by
  cases a with
  | task g i =>
      by_cases hi : ∃ id, i = .sendStop (some id)
      · obtain ⟨id, rfl⟩ := hi
        obtain ⟨t, t', -, -, -, rfl⟩ := World.step_task h
        exact .submit .stop (.goal g) (.inl rfl) rfl rfl
      · -- of a task's steps only a stop that finds room queues anything
        refine .same (sameLedger_step h ?_ (by simp) (by simp)) ?_
        · rintro g' id he
          cases he
          exact hi ⟨id, rfl⟩
        · rw [World.dashboard_of_ne h (by simp)]
  | server i =>
      obtain ⟨s, p, hm, rfl⟩ := World.step_server h
      cases hm with
      | submit cmd hp => exact .submit cmd .server (.inr hp) rfl rfl
      | _ => exact .same ⟨rfl, rfl, rfl, rfl, rfl⟩ rfl
  | dashboard i =>
      cases World.step_dashboard h with
      | take r rest hd hq => exact .take r rest (by rw [hd]; rfl) (holds_start r) hq rfl
      | signal r g result hd _ => exact .same ⟨rfl, rfl, rfl, rfl, rfl⟩ (by rw [hd]; rfl)
      | answer r result p hd hp =>
          refine .answer r _ (by rw [hd]; rfl) ?_ rfl
          rcases hp with rfl | rfl <;> rfl
      | other i ds p hf => exact .same ⟨rfl, rfl, rfl, rfl, rfl⟩ hf.holds
  | _ =>
      refine .same (sameLedger_step h (by simp) (by simp) (by simp)) ?_
      rw [World.dashboard_of_ne h (by simp)]

theorem ledger_step {a : Action F} (hl : Ledger w.dashboard.holds w.shared)
    (h : World.step cfg w a = some w') : Ledger w'.dashboard.holds w'.shared := by
  cases ledger_move h with
  | same hs hd =>
      rw [hd]
      exact hl.of_same hs
  | submit cmd req _ hs hd =>
      rw [hs, hd]
      exact hl.submit ..
  | take r rest hnone hr hq hs =>
      rw [hr, hs]
      rw [hnone] at hl
      exact hl.take hq
  | answer r reply hr hnone hs =>
      rw [hnone, hs]
      rw [hr] at hl
      exact hl.answer reply

/-- A goal waiting on a stop waits on one that it queued. -/
def StopsQueued (w : World F) : Prop :=
  ∀ g t, w.task g = some t → t.phase = .stopPending ∨ t.phase = .restopPending →
    ∃ up, w.shared.sent[t.stopRequest]? = some ⟨.stop, t.stopRequest, .goal g, up⟩

/-- A task starts waiting on a stop by queueing it. -/
theorem Move.awaitsStop {t t' : Task F} {i : TaskInput} (h : Task.Move t i t')
    (hp : t'.phase = .stopPending ∨ t'.phase = .restopPending) :
    ∃ id, i = .sendStop (some id) ∧ t'.stopRequest = id := by
  cases h with
  | stop id _ => exact ⟨id, rfl, rfl⟩
  | restop id _ => exact ⟨id, rfl, rfl⟩
  | hop i p hh => generalize t.phase = q at hh; cases hh <;> simp at hp
  | leave i e hh =>
      -- leaving leads to a publication, not to waiting for a stop
      have := leave_phase t e
      rcases hp with hp | hp <;> rw [hp] at this <;> cases this
  | publish keys p written hh =>
      rcases hh.publishing.2 with hpub | rfl
      · rcases hp with rfl | rfl <;> cases hpub
      · simp at hp
  | feedback m hq hf =>
      dsimp only at hp
      rw [hq] at hp
      simp at hp
  | _ => simp at hp

/-- Nothing is ever taken off the record of what was queued. -/
theorem sent_step {a : Action F} (h : World.step cfg w a = some w') :
    ∃ l, w'.shared.sent = w.shared.sent ++ l := by
  cases ledger_move h with
  | same hs _ => exact ⟨[], by rw [hs.sent, List.append_nil]⟩
  | submit cmd req _ hs _ => exact ⟨_, by rw [hs, Shared.submit]⟩
  | take _ _ _ _ _ hs | answer _ _ _ _ hs => exact ⟨[], by rw [hs, List.append_nil]⟩

theorem stopsQueued_step {a : Action F} (hS : StopsQueued w) (hp : PendingAdmitted w)
    (hl : Ledger w.dashboard.holds w.shared) (h : World.step cfg w a = some w') :
    StopsQueued w' := by
  intro g t' ht' hphase
  obtain ⟨l, hsent⟩ := sent_step h
  cases task_origin hp h ht' with
  | same ht =>
      obtain ⟨up, hup⟩ := hS g t' ht hphase
      exact ⟨up, hsent ▸ getElem?_append_of_some hup⟩
  | moved t i ha ht hready hm =>
      obtain ⟨id, rfl, hid⟩ := Move.awaitsStop hm hphase
      subst ha
      obtain ⟨u, u', -, -, -, rfl⟩ := World.step_task h
      -- the number the task remembers is the one the request is queued under
      have hn : id = w.shared.nextRequest := by
        simp only [World.ready, Bool.and_eq_true, beq_iff_eq] at hready
        exact hready.2
      refine ⟨w.dashboard.up, ?_⟩
      rw [hid, hn]
      simp [World.effect, Shared.submit, ← hl.count]
  | accepted command script uuid _ _ _ he => rw [he] at hphase; simp [Task.accepted] at hphase
  | spawned t _ _ _ _ he => rw [he] at hphase; simp [Task.spawn] at hphase

section Reachable

variable [Zero F] {ok : World F → Action F → Prop}

theorem ledger_init : Ledger none (Shared.init (F := F)) where
  count := rfl
  sent r hr := by simp [outstanding, Shared.init] at hr
  sorted := .nil
  unanswered _ _ := rfl
  fresh _ _ := rfl
  acked r reply g hr := by simp [Shared.init] at hr

theorem ledger_reachable (h : Run cfg ok w) : Ledger w.dashboard.holds w.shared :=
  h.invariant (I := fun w => Ledger w.dashboard.holds w.shared) ledger_init
    fun _ _ _ _ hl _ hs => ledger_step hl hs

theorem stopsQueued_reachable (h : Run cfg ok w) : StopsQueued w :=
  h.invariant (fun _ _ ht => by cases ht) fun _ _ _ hr hS _ hs =>
    stopsQueued_step hS (pendingAdmitted_reachable hr) (ledger_reachable hr) hs

end Reachable

end UrRedisDriver.Proof
