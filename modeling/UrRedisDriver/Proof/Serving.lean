import UrRedisDriver.Proof.Pairing

/-!
# Commands are served once, in the order they came

The commands that were queued for the dashboard task are answered from the front, each of them
once, and none is lost with a connection that drops. What the controller is told to do for one
of them is a fixed list of orders. A connection that drops cuts the list short, and nothing of
it is said again on the next one. Whatever else the task writes are questions of its own.
-/

namespace UrRedisDriver.Proof

open UrRedisDriver

variable {F : Type} {cfg : Config F} {w w' : World F}

/-! ## The order of the answers -/

/-- The first `n` commands that were queued are the answered ones. The others are held by the
task or waiting, in the order they came. -/
structure ServedTo (n : Nat) (held : Option Request) (s : Shared F) : Prop where
  numbered : ∀ k (r : Request), s.sent[k]? = some r → r.id = k
  rest : outstanding held s = s.sent.drop n
  answered : ∀ id, (s.reply id).isSome = true ↔ id < n
  le : n ≤ s.sent.length

theorem ServedTo.of_same {n : Nat} {held : Option Request} {s s' : Shared F}
    (h : ServedTo n held s) (hs : SameLedger s s') : ServedTo n held s' := by
  obtain ⟨hq, -, hr, ht, -⟩ := hs
  have ho : outstanding held s' = outstanding held s := by rw [outstanding, hq, outstanding]
  exact
    { numbered := by rw [ht]; exact h.numbered
      rest := by rw [ho, ht]; exact h.rest
      answered := by rw [hr]; exact h.answered
      le := by rw [ht]; exact h.le }

theorem ServedTo.submit {n : Nat} {held : Option Request} {s : Shared F} (h : ServedTo n held s)
    (hcount : s.sent.length = s.nextRequest) (cmd : DashboardCommand) (req : Requester)
    (up : Bool) : ServedTo n held (s.submit cmd req up) where
  numbered k r hr := by
    rcases Nat.lt_or_ge k s.sent.length with hk | hk
    · rw [Shared.submit, List.getElem?_append_left hk] at hr
      exact h.numbered k r hr
    · -- the new one: its number is how many were queued before it
      rw [Shared.submit, List.getElem?_append_right hk] at hr
      obtain ⟨hk', rfl⟩ := List.getElem?_eq_some_iff.mp hr
      have : k = s.nextRequest := by simp at hk'; omega
      simpa using this.symm
  rest := by
    have ho : outstanding held (s.submit cmd req up)
        = outstanding held s ++ [⟨cmd, s.nextRequest, req, up⟩] := by
      simp [outstanding, Shared.submit]
    rw [ho, h.rest, Shared.submit, List.drop_append_of_le_length h.le]
  answered := h.answered
  le := by
    have := h.le
    simp only [Shared.submit, List.length_append]
    omega

theorem ServedTo.take {n : Nat} {s : Shared F} {r : Request} {rest : List Request}
    (h : ServedTo n none s) (hq : s.queue = r :: rest) :
    ServedTo n (some r) { s with queue := rest } where
  numbered := h.numbered
  rest := by
    rw [← h.rest]
    simp [outstanding, hq]
  answered := h.answered
  le := h.le

/-- The command that is answered is the first that was not. -/
theorem ServedTo.answer {n : Nat} {s : Shared F} {r : Request} (h : ServedTo n (some r) s)
    (reply : DashboardReply) (acked : Nat → Bool) : ServedTo (n + 1) none { s with
      reply := Function.update s.reply r.id (some reply), stopAcked := acked } := by
  have hrest : r :: s.queue = s.sent.drop n := h.rest
  -- the request that is answered is the next one of those that were queued
  have hn : n < s.sent.length := by
    by_contra hge
    rw [List.drop_eq_nil_of_le (by omega)] at hrest
    cases hrest
  rw [List.drop_eq_getElem_cons hn] at hrest
  obtain ⟨hr, hqueue⟩ := List.cons.inj hrest
  have hid : r.id = n := h.numbered n r (by rw [hr]; exact List.getElem?_eq_getElem hn)
  refine ⟨h.numbered, hqueue, ?_, hn⟩
  intro id
  dsimp only
  by_cases he : id = r.id
  · subst he
    simp [hid]
  · -- of the numbers below `n + 1` this one is `n`, so the others are below `n`
    rw [Function.update_of_ne he, h.answered id]
    omega

theorem servedTo_step {a : Action F} {n : Nat} (hS : ServedTo n w.dashboard.holds w.shared)
    (hl : Ledger w.dashboard.holds w.shared) (h : World.step cfg w a = some w') :
    ∃ m, ServedTo m w'.dashboard.holds w'.shared := by
  cases ledger_move h with
  | same hs hd => exact ⟨n, by rw [hd]; exact hS.of_same hs⟩
  | submit cmd req _ hs hd =>
      rw [hs, hd]
      exact ⟨n, hS.submit hl.count cmd req _⟩
  | take r rest hnone hr hq hs =>
      rw [hr, hs]
      rw [hnone] at hS
      exact ⟨n, hS.take hq⟩
  | answer r reply hr hnone hs =>
      rw [hnone, hs]
      rw [hr] at hS
      exact ⟨n + 1, hS.answer reply _⟩

/-- A reply that was given stays as it is. -/
theorem reply_step {a : Action F} {id : Nat} {reply : DashboardReply}
    (hl : Ledger w.dashboard.holds w.shared) (h : World.step cfg w a = some w')
    (hr : w.shared.reply id = some reply) : w'.shared.reply id = some reply := by
  cases ledger_move h with
  | same hs _ => rw [hs.reply, hr]
  | submit _ _ _ hs _ => rw [hs]; exact hr
  | take _ _ _ _ _ hs => rw [hs]; exact hr
  | answer r reply' hheld _ hs =>
      have hne : id ≠ r.id := by
        rintro rfl
        rw [hl.unanswered r (by rw [hheld]; exact List.mem_cons_self ..)] at hr
        cases hr
      rw [hs]
      dsimp only
      rw [Function.update_of_ne hne, hr]

section Reachable

variable [Zero F] {ok : World F → Action F → Prop}

theorem servedTo_init : ServedTo 0 none (Shared.init (F := F)) where
  numbered k r hr := by simp [Shared.init] at hr
  rest := rfl
  answered id := by simp [Shared.init]
  le := Nat.zero_le _

theorem servedTo_reachable (h : Run cfg ok w) : ∃ n, ServedTo n w.dashboard.holds w.shared :=
  h.invariant (I := fun w => ∃ n, ServedTo n w.dashboard.holds w.shared) ⟨0, servedTo_init⟩
    fun _ _ _ hr hS _ hs => servedTo_step hS.choose_spec (ledger_reachable hr) hs

/--
**Every command is answered once, in the order they came.** In every reachable state the
answered commands are the first ones queued; of the others the task holds at most the oldest
and the rest waits behind it. Whatever happens next, an answer that was given stays.
-/
theorem answered_in_order (h : Run cfg ok w) :
    (∃ n ≤ w.shared.sent.length,
      w.dashboard.holds.toList ++ w.shared.queue = w.shared.sent.drop n
        ∧ ∀ id, (w.shared.reply id).isSome = true ↔ id < n)
      ∧ ∀ a w', World.step cfg w a = some w' → ∀ id reply, w.shared.reply id = some reply →
        w'.shared.reply id = some reply := by
  obtain ⟨n, hS⟩ := servedTo_reachable h
  exact ⟨⟨n, hS.le, hS.rest, hS.answered⟩,
    fun a w' hs id reply hr => reply_step (ledger_reachable h) hs hr⟩

end Reachable

/-! ## What the controller is told for a command -/

/-- A command that tells the controller to do something; the others ask it something. -/
def told (cmd : DashboardCommand) : List DashboardCommand :=
  if cmd.expect.isSome then [cmd] else []

/-- What serving a command comes to, in the order it is told. -/
def orders : DashboardCommand → List DashboardCommand
  | .unlockProtectiveStop => [.closeSafetyPopup, .unlockProtectiveStop]
  | .resume => [.play]
  | cmd => told cmd

/-- What has been told before a round trip. -/
def toldBefore : Trip → List DashboardCommand
  | .pauseState => [.pause]
  | .resumeRunning | .resumeState => [.play]
  | .unlock => [.closeSafetyPopup]
  | _ => []

/-- The round trips a command is served by. -/
def suits (cmd : DashboardCommand) : Trip → Prop
  | .command => orders cmd = told cmd
  | .pause | .pauseState => cmd = .pause
  | .play | .resumeRunning | .resumeState => cmd = .resume
  | .closePopup | .unlock => cmd = .unlockProtectiveStop
  | _ => False

/-- What has been told once a round trip's line is written is what was to be told, or begins
it. -/
theorem told_front {cmd : DashboardCommand} {t : Trip} (h : suits cmd t) :
    toldBefore t ++ told (t.sends cmd) <+: orders cmd := by
  cases t with
  | command => rw [show orders cmd = told cmd from h]; exact List.prefix_refl _
  | pause | pauseState | play | resumeRunning | resumeState | closePopup | unlock =>
      rw [show cmd = _ from h]
      decide
  | _ => exact absurd h id

/-- The task is at `p` with a command, having told the controller `os` for it. -/
inductive Serving (r : Request) : DashPhase → List DashboardCommand → Prop
  | reading : r.command = .resume ∨ r.command = .unlockProtectiveStop → Serving r (.reading r) []
  | sending (sender : Option Nat) (play : String) (t : Trip) : suits r.command t →
      Serving r (.sending (.request r sender play) t) (toldBefore t)
  | awaiting (sender : Option Nat) (play : String) (t : Trip) : suits r.command t →
      Serving r (.awaiting (.request r sender play) t) (toldBefore t ++ told (t.sends r.command))
  | latching (last : ProgramState) : r.command = .pause → Serving r (.latching r last) [.pause]
  | releasing (sender : Option Nat) (play : String) (resumed : Bool) : r.command = .resume →
      Serving r (.releasing r sender play resumed) [.play]
  | signalling (g : Nat) : r.command = .resume → Serving r (.signalling r g) [.play]
  | confirming : r.command = .unlockProtectiveStop →
      Serving r (.confirming r) [.closeSafetyPopup, .unlockProtectiveStop]
  | answering (result : Except String DashboardReply) (os : List DashboardCommand) :
      os <+: orders r.command → Serving r (.answering r result) os

/-- A command for which everything has been told. -/
theorem Serving.all {r : Request} {os : List DashboardCommand} (h : orders r.command = os)
    (result : Except String DashboardReply) : Serving r (.answering r result) os :=
  .answering result os (by rw [h])

/-- The reply to a round trip is followed by the next one it suits, or by the end of them. -/
theorem Serving.reply {r : Request} {sender : Option Nat} {play : String} {t : Trip}
    (h : suits r.command t) (reply : DashboardReply) (late : Bool) :
    Serving r (DashPhase.afterRequest r sender play reply late t)
      (toldBefore t ++ told (t.sends r.command)) := by
  -- ending early is no harm: what was told is then a beginning of the list
  have hend (result : Except String DashboardReply) := Serving.answering result _ (told_front h)
  cases t with
  | pause =>
      simp only [DashPhase.afterRequest]
      split
      · exact .sending none "" .pauseState h
      · exact hend _
  | pauseState =>
      simp only [DashPhase.afterRequest]
      split
      · exact .latching _ h
      · -- asked again: a question is no order
        exact .sending none "" .pauseState h
  | play =>
      simp only [DashPhase.afterRequest]
      split
      · exact .sending sender _ .resumeRunning h
      · exact .releasing sender _ false h
  | resumeRunning =>
      simp only [DashPhase.afterRequest]
      split
      · exact .sending sender play .resumeState h
      · split
        · exact .releasing sender play false h
        · exact .sending sender play .resumeRunning h
  | resumeState =>
      -- neither question is an order, however often the two alternate
      simp only [DashPhase.afterRequest]
      split
      · exact .releasing sender play true h
      · split
        · exact .releasing sender play false h
        · exact .sending sender play .resumeRunning h
  | closePopup => exact .sending sender play .unlock h
  | unlock =>
      simp only [DashPhase.afterRequest]
      split
      · exact .confirming h
      · exact hend _
  | command => exact hend _
  | _ => exact absurd h id

/-- What a step of the task writes on the socket; a write that fails may have arrived. -/
def writes : DashPhase → DashInput → List DashboardCommand
  | .sending j t, .write _ => [t.sends j.command]
  | _, _ => []

/-- What a step of the task tells the controller to do. -/
def tells (p : DashPhase) (i : DashInput) : List DashboardCommand :=
  (writes p i).filter fun cmd => cmd.expect.isSome

theorem tells_write (j : Job) (t : Trip) (r : Except String Unit) :
    tells (.sending j t) (.write r) = told (t.sends j.command) := by
  rw [tells, writes, List.filter_singleton, told, cond_eq_ite]

/-- **One step.** Until the command is answered, the task goes on with it. -/
theorem Serving.step {r : Request} {p p' : DashPhase} {os : List DashboardCommand}
    {ds ds' : DriverState F} {i : DashInput} (hs : Serving r p os)
    (h : DashPhase.step ds p i = some (ds', p')) (hi : i ≠ .answer) :
    Serving r p' (os ++ tells p i) := by
  cases hs with
  | reading hc =>
      cases i with
      | lock late =>
          simp only [DashPhase.step] at h
          -- what follows the first look at the state depends on which of the two commands it is
          rcases hc with hc | hc <;> rw [hc] at h <;> dsimp only at h <;> split at h <;> cases h
          · exact .sending _ _ .play hc
          · exact .answering _ _ (List.nil_prefix)
          · exact .sending _ _ .closePopup hc
          · exact .answering _ _ (List.nil_prefix)
      | _ => simp [DashPhase.step] at h
  | sending sender play t ht =>
      cases i with
      | write w =>
          -- the one step at which anything is told, and told once even if the write fails
          rw [tells_write]
          cases w with
          | ok u => cases h; exact .awaiting sender play t ht
          | error e => cases h; exact .answering _ _ (told_front ht)
      | _ => simp [DashPhase.step] at h
  | awaiting sender play t ht =>
      cases i with
      | reply line late =>
          rw [show tells _ (.reply line late) = [] from rfl, List.append_nil]
          cases line with
          | ok line => cases h; exact .reply ht _ late
          | error e => cases h; exact .answering _ _ (told_front ht)
      | _ => simp [DashPhase.step] at h
  | latching last hc =>
      -- from here on the list of the command is complete, and nothing more is written
      cases i with
      | lock late => cases h; exact .all (by rw [hc]; rfl) _
      | _ => simp [DashPhase.step] at h
  | releasing sender play resumed hc =>
      have hend (result : Except String DashboardReply) :
          Serving r (.answering r result) [.play] := .all (by rw [hc]; rfl) result
      cases i with
      | lock late =>
          cases h
          cases resumed with
          | true => exact hend _
          | false =>
              cases sender with
              | some g => exact .signalling g hc
              | none => exact hend _
      | _ => simp [DashPhase.step] at h
  | signalling g hc =>
      cases i with
      | signal v => cases v <;> cases h <;> exact .all (by rw [hc]; rfl) _
      | _ => simp [DashPhase.step] at h
  | confirming hc =>
      cases i with
      | lock late =>
          have hall (result : Except String DashboardReply) :
              Serving r (.answering r result) [.closeSafetyPopup, .unlockProtectiveStop] :=
            .all (by rw [hc]; rfl) result
          simp only [DashPhase.step] at h
          split at h
          · cases h; exact hall _
          · split at h <;> cases h
            · exact hall _
            · exact .confirming hc
      | _ => simp [DashPhase.step] at h
  | answering result os hos =>
      cases i with
      | answer => exact absurd rfl hi
      | _ => cases result <;> simp [DashPhase.step] at h

/-- What the task asks on its own account. -/
def ownQuestions : List DashboardCommand :=
  [.getRobotModel, .getSerialNumber, .polyscopeVersion, .isInRemoteControl, .programState,
    .isProgramRunning, .getOperationalMode]

/-- What is written for a command: an order it comes to, itself, or a question about the
program. -/
def WrittenFor (r : Request) (cmd : DashboardCommand) : Prop :=
  cmd ∈ orders r.command ∨ cmd = r.command ∨ cmd ∈ [DashboardCommand.programState, .isProgramRunning]

/-- What is written on behalf of nobody, and what on behalf of a command. -/
structure Accounted (s : Shared F) (y : Option Nat × DashboardCommand) : Prop where
  own : y.1 = none → y.2 ∈ ownQuestions
  asked : ∀ id, y.1 = some id → ∃ r ∈ s.sent, r.id = id ∧ WrittenFor r y.2
  /-- It is one line on the wire, unless it is the command itself. -/
  line : OneLine y.2 ∨ ∃ r ∈ s.sent, y.1 = some r.id ∧ y.2 = r.command

theorem Accounted.mono {s s' : Shared F} {y : Option Nat × DashboardCommand} (h : Accounted s y)
    (hs : ∀ r ∈ s.sent, r ∈ s'.sent) : Accounted s' y where
  own := h.own
  asked id hid := by
    obtain ⟨r, hr, hw⟩ := h.asked id hid
    exact ⟨r, hs r hr, hw⟩
  line := h.line.imp id fun ⟨r, hr, hw⟩ => ⟨r, hs r hr, hw⟩

section Reachable

variable [Zero F]

variable {ok : World F → Action F → Prop}

end Reachable

open Scenario

namespace Scenario

/-- A pause that is confirmed with the second question, and a stop queued behind it. -/
def paused : List (Action Int) :=
  dashboardUp ++ askDashboard "pause" "" ++ [.dashboard (.take ⟨.pause, 0, .server, true⟩)]
    ++ trip "Pausing program"
    ++ [.dashboard (.write (.ok ())), .dashboard (.reply (.ok "PLAYING a.urp") false)]
    ++ trip "PAUSED a.urp" ++ [.dashboard (.lock false), .dashboard .answer]

end Scenario

/-- A pause is answered. -/
theorem answered_in_order_trace : ∃ w : World Int, Run config (fun _ _ => True) w
    ∧ (w.shared.reply 0).isSome = true
    ∧ ∃ n ≤ w.shared.sent.length, w.dashboard.holds.toList ++ w.shared.queue = w.shared.sent.drop n
      ∧ ∀ id, (w.shared.reply id).isSome = true ↔ id < n := by
  have hrun : (Lts.run (World.step config) World.init paused).any
      (fun w => (w.shared.reply 0).isSome) = true := by
    decide
  obtain ⟨w, hw, hreply⟩ := Lts.exists_of_run hrun
  exact ⟨w, hw, hreply, (answered_in_order hw).1⟩

end UrRedisDriver.Proof
