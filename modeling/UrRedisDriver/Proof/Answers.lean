import UrRedisDriver.Proof.Serving

/-!
# Dashboard requests are answered once

What `dashboard_server` owes its client: a trigger that is consumed in `initial` gets one
terminal `dashboard_request_state`, and the result it comes with is the answer to the command of
that very request. It is why it was not understood, the reply to the command that was queued for
it, or that this reply took too long; never what somebody else was told.
-/

namespace UrRedisDriver.Proof

open UrRedisDriver

variable {F : Type} {cfg : Config F} {w w' : World F}

/-- A dashboard request, as far as it has got. -/
structure Inquiry where
  name : String
  arg : String
  /-- The number of the reply channel it was queued with. -/
  number : Option Nat := none
  response : String := ""
  success : Bool := false

/-- What has been consumed, the request that is under way and those that are over. -/
structure Minutes where
  consumed : Nat := 0
  current : Option Inquiry := none
  settled : List Inquiry := []

/--
One step of `dashboard_server`, `keys` being what it leaves in Redis: a trigger that is down
there opens an inquiry, and the answer and the terminal state are what is read there.
-/
def noteServer (s : Shared F) (keys : RequestKeys) (p : ServerPhase) (i : ServerInput)
    (m : Minutes) : Minutes :=
  match p, i with
  | .consuming .initial name arg, .redis =>
      if keys.dashboardRequestTrigger then m
      else { m with consumed := m.consumed + 1, current := some { name := name, arg := arg } }
  | .submitting _, .submit =>
      { m with current := m.current.map fun e => { e with number := some s.nextRequest } }
  | .finishing _ _, .redis =>
      { m with current := m.current.map fun e => { e with response := keys.dashboardRequestResult } }
  | .closing _, .redis =>
      if keys.dashboardRequestState.terminal then
        { m with
          current := none
          settled := m.settled ++ (m.current.map fun e =>
            { e with success := decide (keys.dashboardRequestState = .succeeded) }).toList }
      else m
  | _, _ => m

/-- The minutes, kept from the keys as each step leaves them. -/
def noteMinutes (cfg : Config F) (w : World F) (a : Action F) (m : Minutes) : Minutes :=
  match World.step cfg w a with
  | none => m
  | some w' => match a with
    | .server i => noteServer w.shared w'.shared.keys w.server i m
    | _ => m

/-- The driver with the minutes of its dashboard requests. -/
abbrev MinutesRun [Zero F] (cfg : Config F) (ok : World F → Action F → Prop)
    (x : World F × Minutes) : Prop :=
  Lts.ReachableBy (Lts.recorded (World.step cfg) (noteMinutes cfg)) (fun x a => ok x.1 a)
    (World.init, {}) x

/-- What is written for a command whose reply did not come. -/
def lateText (cmd : DashboardCommand) : String :=
  s!"timed out waiting for the controller after {(cmd.replyTimeout + dashboardCommandSlack) / 1000}s"

/-- A command was queued for `dashboard_server`, under this number. -/
def QueuedAs (s : Shared F) (cmd : DashboardCommand) (id : Nat) : Prop :=
  ∃ r ∈ s.sent, r.id = id ∧ r.command = cmd ∧ r.requester = .server

/-- An answer that is one to this request. -/
inductive OwnAnswer (s : Shared F) (e : Inquiry) : Prop
  | misunderstood (reason : String) (hp : DashboardCommand.parse e.name e.arg = .error reason)
      (hn : e.number = none) (hs : e.success = false) (ht : e.response = reason)
  | answered (cmd : DashboardCommand) (id : Nat) (reply : DashboardReply)
      (hp : DashboardCommand.parse e.name e.arg = .ok cmd) (hn : e.number = some id)
      (hq : QueuedAs s cmd id) (hr : s.reply id = some reply) (hs : e.success = reply.success)
      (ht : e.response = reply.response)
  | late (cmd : DashboardCommand) (id : Nat)
      (hp : DashboardCommand.parse e.name e.arg = .ok cmd) (hn : e.number = some id)
      (hq : QueuedAs s cmd id) (hs : e.success = false) (ht : e.response = lateText cmd)

/-- What goes on can only add to what was queued and answered. -/
structure Grows (s s' : Shared F) : Prop where
  sent : ∀ r ∈ s.sent, r ∈ s'.sent
  reply : ∀ id reply, s.reply id = some reply → s'.reply id = some reply
  next : s.nextRequest ≤ s'.nextRequest

theorem grows_step {a : Action F} (hl : Ledger w.dashboard.holds w.shared)
    (h : World.step cfg w a = some w') : Grows w.shared w'.shared := by
  obtain ⟨l, hsent⟩ := sent_step h
  refine ⟨fun r hr => hsent ▸ List.mem_append_left l hr, fun _ _ => reply_step hl h, ?_⟩
  cases ledger_move h with
  | same hs _ => exact hs.nextRequest.ge
  | submit _ _ _ hs _ => rw [hs]; exact Nat.le_succ _
  | take _ _ _ _ _ hs => rw [hs]
  | answer _ _ _ _ hs => rw [hs]

theorem QueuedAs.grows {s s' : Shared F} {cmd : DashboardCommand} {id : Nat} (h : QueuedAs s cmd id)
    (hg : Grows s s') : QueuedAs s' cmd id := by
  obtain ⟨r, hr, h⟩ := h
  exact ⟨r, hg.sent r hr, h⟩

theorem OwnAnswer.grows {s s' : Shared F} {e : Inquiry} (h : OwnAnswer s e) (hg : Grows s s') :
    OwnAnswer s' e := by
  cases h with
  | misunderstood reason hp hn hs ht => exact .misunderstood reason hp hn hs ht
  | answered cmd id reply hp hn hq hr hs ht =>
      exact .answered cmd id reply hp hn (hq.grows hg) (hg.reply id reply hr) hs ht
  | late cmd id hp hn hq hs ht => exact .late cmd id hp hn (hq.grows hg) hs ht

/-! ## Where a request has got to -/

/-- What is known of the request `dashboard_server` is at. -/
inductive AtStage (s : Shared F) : ServerPhase → Option Inquiry → Prop
  | idle : AtStage s .idle none
  | consuming (state : ActionRequestState) (name arg : String) :
      AtStage s (.consuming state name arg) none
  | starting (cmd : DashboardCommand) (e : Inquiry)
      (hp : DashboardCommand.parse e.name e.arg = .ok cmd) (hn : e.number = none) :
      AtStage s (.starting cmd) (some e)
  | submitting (cmd : DashboardCommand) (e : Inquiry)
      (hp : DashboardCommand.parse e.name e.arg = .ok cmd) (hn : e.number = none) :
      AtStage s (.submitting cmd) (some e)
  | waiting (id : Nat) (cmd : DashboardCommand) (e : Inquiry)
      (hp : DashboardCommand.parse e.name e.arg = .ok cmd) (hn : e.number = some id)
      (hq : QueuedAs s cmd id) : AtStage s (.waiting id cmd) (some e)
  | finishing (success : Bool) (response : String) (e : Inquiry)
      (h : OwnAnswer s { e with success := success, response := response }) :
      AtStage s (.finishing success response) (some e)
  | closing (success : Bool) (e : Inquiry) (h : OwnAnswer s { e with success := success }) :
      AtStage s (.closing success) (some e)

theorem AtStage.grows {s s' : Shared F} {p : ServerPhase} {c : Option Inquiry}
    (h : AtStage s p c) (hg : Grows s s') : AtStage s' p c := by
  cases h with
  | idle => exact .idle
  | consuming state name arg => exact .consuming state name arg
  | starting cmd e hp hn => exact .starting cmd e hp hn
  | submitting cmd e hp hn => exact .submitting cmd e hp hn
  | waiting id cmd e hp hn hq => exact .waiting id cmd e hp hn (hq.grows hg)
  | finishing success response e h => exact .finishing success response e (h.grows hg)
  | closing success e h => exact .closing success e (h.grows hg)

/-- The numbers that were used, oldest first. -/
def Minutes.numbers (m : Minutes) : List Nat :=
  (m.settled ++ m.current.toList).filterMap Inquiry.number

/-- The minutes are in order. -/
structure Kept (s : Shared F) (p : ServerPhase) (m : Minutes) : Prop where
  stage : AtStage s p m.current
  count : m.consumed = m.settled.length + m.current.toList.length
  settled : ∀ e ∈ m.settled, OwnAnswer s e
  numbers : m.numbers.Pairwise (· < ·)
  known : ∀ id ∈ m.numbers, id < s.nextRequest

theorem Kept.grows {s s' : Shared F} {p : ServerPhase} {m : Minutes} (h : Kept s p m)
    (hg : Grows s s') : Kept s' p m where
  stage := h.stage.grows hg
  count := h.count
  settled := fun e he => (h.settled e he).grows hg
  numbers := h.numbers
  known := fun id hid => (h.known id hid).trans_le hg.next

/-- A request that gets on without a number gives the minutes none. -/
theorem Kept.stay {s : Shared F} {p p' : ServerPhase} {m : Minutes} {e e' : Inquiry}
    (h : Kept s p m) (hc : m.current = some e) (hn : e'.number = e.number)
    (hstage : AtStage s p' (some e')) : Kept s p' { m with current := some e' } := by
  have hnumbers : Minutes.numbers { m with current := some e' } = m.numbers := by
    simp only [Minutes.numbers, hc, Option.toList_some, List.filterMap_append,
      List.filterMap_cons, hn]
  refine ⟨hstage, ?_, h.settled, hnumbers ▸ h.numbers, hnumbers ▸ h.known⟩
  rw [h.count, hc]
  rfl

/-- A trigger is consumed, and its request has no number yet. -/
theorem Kept.opened {s : Shared F} {p p' : ServerPhase} {m : Minutes} {e : Inquiry}
    (h : Kept s p m) (hc : m.current = none) (hn : e.number = none)
    (hstage : AtStage s p' (some e)) :
    Kept s p' { m with consumed := m.consumed + 1, current := some e } := by
  have hnumbers : Minutes.numbers { m with consumed := m.consumed + 1, current := some e }
      = m.numbers := by
    simp [Minutes.numbers, hc, hn]
  refine ⟨hstage, ?_, h.settled, hnumbers ▸ h.numbers, hnumbers ▸ h.known⟩
  have hcount := h.count
  rw [hc] at hcount
  exact congrArg (· + 1) hcount

/-- Its command is queued, under a number that no request had. -/
theorem Kept.queued {s s' : Shared F} {p p' : ServerPhase} {m : Minutes} {e : Inquiry}
    (h : Kept s' p m) (hknown : ∀ id ∈ m.numbers, id < s.nextRequest)
    (hnext : s.nextRequest < s'.nextRequest) (hc : m.current = some e) (hn : e.number = none)
    (hstage : AtStage s' p' (some { e with number := some s.nextRequest })) :
    Kept s' p' { m with current := some { e with number := some s.nextRequest } } := by
  have hnumbers : Minutes.numbers { m with current := some { e with number := some s.nextRequest } }
      = m.numbers ++ [s.nextRequest] := by
    simp [Minutes.numbers, hc, hn]
  refine ⟨hstage, ?_, h.settled, ?_, ?_⟩
  · have hcount := h.count
    rw [hc] at hcount
    exact hcount
  · rw [hnumbers]
    refine List.pairwise_append.mpr ⟨h.numbers, List.pairwise_singleton _ _, ?_⟩
    -- the numbers only grow, and this one was the next to be given
    intro id hid id' hid'
    rw [List.mem_singleton.mp hid']
    exact hknown id hid
  · rw [hnumbers]
    intro id hid
    rcases List.mem_append.mp hid with hid | hid
    · exact h.known id hid
    · rw [List.mem_singleton.mp hid]
      exact hnext

/-- The request is over, with an answer that is one to it. -/
theorem Kept.closed {s : Shared F} {p p' : ServerPhase} {m : Minutes} {e e' : Inquiry}
    (h : Kept s p m) (hc : m.current = some e) (hn : e'.number = e.number) (hown : OwnAnswer s e')
    (hstage : AtStage s p' none) :
    Kept s p' { m with current := none, settled := m.settled ++ [e'] } := by
  have hnumbers : Minutes.numbers { m with current := none, settled := m.settled ++ [e'] }
      = m.numbers := by
    simp only [Minutes.numbers, hc, Option.toList_some, Option.toList_none, List.append_nil,
      List.filterMap_append, List.filterMap_cons, hn]
  refine ⟨hstage, ?_, ?_, hnumbers ▸ h.numbers, hnumbers ▸ h.known⟩
  · rw [h.count, hc]
    simp
  · intro e'' he''
    rcases List.mem_append.mp he'' with he'' | he''
    · exact h.settled e'' he''
    · rw [List.mem_singleton.mp he'']
      exact hown

/-- The terminal state that is written is what the minutes read there. -/
theorem noteServer_closing {s : Shared F} {keys : RequestKeys} {success : Bool} {consumed : Nat}
    {e : Inquiry} {settled : List Inquiry}
    (hk : keys.dashboardRequestState = if success then .succeeded else .failed) :
    noteServer s keys (.closing success) .redis ⟨consumed, some e, settled⟩
      = ⟨consumed, none, settled ++ [{ e with success := success }]⟩ := by
  unfold noteServer
  dsimp only
  rw [hk]
  cases success <;> rfl

theorem kept_server {up : Bool} {s s' : Shared F} {p p' : ServerPhase} {i : ServerInput}
    {m : Minutes} (hK : Kept s p m) (hg : Grows s s')
    (h : DashboardServer.step up s p i = some (s', p')) :
    Kept s' p' (noteServer s s'.keys p i m) := by
  have hK' := hK.grows hg
  have hstage := hK'.stage
  obtain ⟨consumed, current, settled⟩ := m
  cases hstage with
  | idle =>
      cases i with
      | tick =>
          simp only [DashboardServer.step] at h
          split at h <;> cases h
          · exact { hK' with stage := .consuming _ _ _ }
          · exact hK'
      | _ => simp [DashboardServer.step] at h
  | consuming state name arg =>
      cases i with
      | redis =>
          simp only [DashboardServer.step, Option.some.injEq, Prod.mk.injEq] at h
          obtain ⟨rfl, rfl⟩ := h
          -- a trigger that finds another state is reset without an answer
          by_cases hstate : state = .initial
          · subst hstate
            rw [if_pos rfl]
            refine hK'.opened rfl rfl ?_
            -- what is not understood is answered at once, without a number
            cases hp : DashboardCommand.parse name arg with
            | ok cmd => exact .starting cmd _ hp rfl
            | error reason => exact .finishing false reason _ (.misunderstood reason hp rfl rfl rfl)
          · rw [if_neg hstate]
            have hsame (keys : RequestKeys) : noteServer s keys (.consuming state name arg) .redis
                ⟨consumed, none, settled⟩ = ⟨consumed, none, settled⟩ := by
              unfold noteServer
              cases state <;> first | rfl | exact absurd rfl hstate
            rw [hsame]
            exact { hK' with stage := .idle }
      | _ => simp [DashboardServer.step] at h
  | starting cmd e hp hn =>
      cases i with
      | redis =>
          cases h
          exact hK'.stay rfl rfl (.submitting cmd e hp hn)
      | _ => simp [DashboardServer.step] at h
  | submitting cmd e hp hn =>
      cases i with
      | submit =>
          simp only [DashboardServer.step] at h
          split at h
          · cases h
            exact hK'.queued hK.known (Nat.lt_succ_self _) rfl hn
              (.waiting _ cmd _ hp rfl ⟨⟨cmd, s.nextRequest, .server, up⟩, by simp [Shared.submit],
                rfl, rfl, rfl⟩)
          · -- the channel is full: the request cannot be sent yet
            cases h
      | _ => simp [DashboardServer.step] at h
  | waiting id cmd e hp hn hq =>
      cases i with
      | reply =>
          simp only [DashboardServer.step] at h
          split at h
          · rename_i r hr
            cases h
            exact hK'.stay rfl rfl
              (.finishing _ _ e (.answered cmd id r hp hn hq hr rfl rfl))
          · cases h
      | timeout =>
          simp only [DashboardServer.step] at h
          split at h
          · cases h
          · cases h
            exact hK'.stay rfl rfl (.finishing _ _ e (.late cmd id hp hn hq rfl rfl))
      | _ => simp [DashboardServer.step] at h
  | finishing success response e hans =>
      cases i with
      | redis =>
          cases h
          exact hK'.stay rfl rfl (.closing success { e with response := response } hans)
      | _ => simp [DashboardServer.step] at h
  | closing success e hans =>
      cases i with
      | redis =>
          cases h
          rw [noteServer_closing rfl]
          exact hK'.closed rfl rfl hans .idle
      | _ => simp [DashboardServer.step] at h

theorem kept_step {a : Action F} {m : Minutes} (hK : Kept w.shared w.server m)
    (hl : Ledger w.dashboard.holds w.shared) (h : World.step cfg w a = some w') :
    Kept w'.shared w'.server (noteMinutes cfg w a m) := by
  -- the steps of the others can only add requests and replies
  have hg := grows_step hl h
  simp only [noteMinutes, h]
  by_cases ha : ∃ i, a = .server i
  · obtain ⟨i, rfl⟩ := ha
    obtain ⟨s, p, hs, rfl⟩ := World.step_server_eq h
    exact kept_server hK hg hs
  · have hne : ∀ i, a ≠ .server i := fun i hi => ha ⟨i, hi⟩
    rw [World.server_of_ne h hne]
    cases a with
    | server i => exact absurd rfl (hne i)
    | _ => exact hK.grows hg

/-- A request has been consumed and has no terminal state yet. -/
def ServerPhase.owes : ServerPhase → Bool
  | .idle | .consuming _ _ _ => false
  | _ => true

theorem AtStage.owes {s : Shared F} {p : ServerPhase} {c : Option Inquiry} (h : AtStage s p c) :
    c.isSome = ServerPhase.owes p := by
  cases h <;> rfl

section Reachable

variable [Zero F] {ok : World F → Action F → Prop}

theorem kept_init : Kept (Shared.init (F := F)) .idle {} where
  stage := .idle
  count := rfl
  settled := fun e he => by cases he
  numbers := List.Pairwise.nil
  known := fun id hid => by cases hid

theorem kept_reachable {x : World F × Minutes} (h : MinutesRun cfg ok x) :
    Kept x.1.shared x.1.server x.2 := by
  refine h.invariant (I := fun x => Kept x.1.shared x.1.server x.2) kept_init ?_
  intro y a y' hr hK _ hs
  obtain ⟨hstep, hnote⟩ := Lts.recorded_eq_some.mp hs
  have hrun : Run cfg (fun _ _ => True) y.1 := hr.forget fun _ _ _ => trivial
  rw [hnote]
  exact kept_step hK (ledger_reachable hrun) hstep

/--
**Each dashboard request is answered once, with its own answer.** In every run, whatever the
controller, the connection and the client do, the dashboard triggers consumed in `initial` are as
many as the terminal states written, and one more while a request is under way. What was written
for each is why it was not understood, or what the command queued for it came to: the reply to
that very command, or that it did not come in time. No two requests share a reply.
-/
theorem dashboard_answered_once {x : World F × Minutes} (h : MinutesRun cfg ok x) :
    x.2.consumed = x.2.settled.length + (ServerPhase.owes x.1.server).toNat
      ∧ (∀ e ∈ x.2.settled, OwnAnswer x.1.shared e)
      ∧ (x.2.settled.filterMap Inquiry.number).Pairwise (· < ·) := by
  have hK := kept_reachable h
  refine ⟨?_, hK.settled, ?_⟩
  · -- a request is under way exactly where the phase owes an answer
    rw [hK.count, ← hK.stage.owes]
    cases x.2.current <;> rfl
  · have hn := hK.numbers
    rw [Minutes.numbers, List.filterMap_append] at hn
    exact (List.pairwise_append.mp hn).1

end Reachable

namespace Scenario

/-- A pause that is answered and written down, then a request that is not understood. -/
def pausedThenDance : List (Action Int) :=
  paused ++ [.server .reply, .server .redis, .server .redis, .client (.dashboardRequest "dance" ""),
    .client (.dashboardRequestState .initial), .client (.dashboardRequestTrigger true),
    .server .tick, .server .redis, .server .redis, .server .redis]

end Scenario

open Scenario

/-- Two requests, two terminal states, and one reply that was waited for. -/
theorem dashboard_answered_once_trace : ∃ x : World Int × Minutes,
    MinutesRun config (fun _ _ => True) x
      ∧ (x.2.consumed = 2 ∧ x.2.settled.filterMap Inquiry.number = [0])
      ∧ x.2.consumed = x.2.settled.length + (ServerPhase.owes x.1.server).toNat
      ∧ (∀ e ∈ x.2.settled, OwnAnswer x.1.shared e)
      ∧ (x.2.settled.filterMap Inquiry.number).Pairwise (· < ·) := by
  have hrun : (Lts.runBy (Lts.recorded (World.step config) (noteMinutes config)) (fun _ _ => True)
      (World.init, {}) pausedThenDance).any
        (fun x => x.2.consumed == 2 && x.2.settled.filterMap Inquiry.number == [0]) = true := by
    decide
  obtain ⟨x, hx, hp⟩ := Lts.exists_of_runBy hrun
  have hx' : MinutesRun config (fun _ _ => True) x := hx
  exact ⟨x, hx', by simpa using hp, dashboard_answered_once hx'⟩

end UrRedisDriver.Proof
