import UrRedisDriver.Proof.Admission
import UrRedisDriver.Proof.Requests
import UrRedisDriver.Session

/-!
# Which command a reply is for

The dashboard task writes a command, reads one line and takes that for the reply. It is, as
long as every command is one line: then one line at a time is in flight. The text of a
command is one line exactly if its free-form argument has no line break in it, which
`parse` does not look at.
-/

namespace UrRedisDriver.Proof

open UrRedisDriver

variable {F : Type} {cfg : Config F} {w w' : World F}

/-! ## The text of a command -/

/-- The free-form argument of a command. -/
def DashboardCommand.argument : DashboardCommand → String
  | .load s | .loadInstallation s | .generateSupportFile s | .popup s | .addToLog s => s
  | _ => ""

/-- What `send_command` writes for it is one line. -/
def OneLine (cmd : DashboardCommand) : Prop := ∀ c ∈ cmd.wire.toList, Text.isLineBreak c = false

instance (cmd : DashboardCommand) : Decidable (OneLine cmd) :=
  List.decidableBAll _ _

/-- A fixed text is checked character by character. -/
theorem unbroken_of_all {s : String} (h : (s.toList.all fun c => !Text.isLineBreak c) = true) :
    ∀ c ∈ s.toList, Text.isLineBreak c = false := fun c hc => by
  simpa using List.all_eq_true.mp h c hc

theorem append_oneLine {s t : String} (hs : ∀ c ∈ s.toList, Text.isLineBreak c = false) :
    (∀ c ∈ (s ++ t).toList, Text.isLineBreak c = false)
      ↔ ∀ c ∈ t.toList, Text.isLineBreak c = false := by
  rw [String.toList_append, List.forall_mem_append]
  exact and_iff_right hs

theorem oneLine_iff (cmd : DashboardCommand) :
    OneLine cmd ↔ ∀ c ∈ (DashboardCommand.argument cmd).toList, Text.isLineBreak c = false := by
  have hnil : ∀ c ∈ "".toList, Text.isLineBreak c = false := nofun
  cases cmd with
  | load s => exact append_oneLine (unbroken_of_all (by decide +kernel))
  | loadInstallation s => exact append_oneLine (unbroken_of_all (by decide +kernel))
  | generateSupportFile s => exact append_oneLine (unbroken_of_all (by decide +kernel))
  | popup s => exact append_oneLine (unbroken_of_all (by decide +kernel))
  | addToLog s => exact append_oneLine (unbroken_of_all (by decide +kernel))
  | setOperationalMode m =>
      cases m <;> exact iff_of_true (unbroken_of_all (by decide +kernel)) hnil
  | generateFlightReport t =>
      cases t <;> exact iff_of_true (unbroken_of_all (by decide +kernel)) hnil
  | _ => exact iff_of_true (unbroken_of_all (by decide +kernel)) hnil

theorem stop_oneLine : OneLine .stop := unbroken_of_all (by decide +kernel)

theorem head_append {s t : String} {c : Char} (h : s.toList.head? = some c) :
    (s ++ t).toList.head? = some c := by
  rw [String.toList_append, List.head?_append, h, Option.some_or]

/-- No command has the text that closes the connection. -/
theorem wire_ne_quit (cmd : DashboardCommand) : cmd.wire.toList ≠ "quit".toList := by
  have of_head {l : List Char} {c : Char} (h : l.head? = some c) (hc : c ≠ 'q') :
      l ≠ "quit".toList := by
    rintro rfl
    exact hc (Option.some.inj (h.symm.trans (by decide +kernel)))
  cases cmd with
  | load s => exact of_head (head_append (c := 'l') (by decide +kernel)) (by decide)
  | loadInstallation s => exact of_head (head_append (c := 'l') (by decide +kernel)) (by decide)
  | generateSupportFile s => exact of_head (head_append (c := 'g') (by decide +kernel)) (by decide)
  | popup s => exact of_head (head_append (c := 'p') (by decide +kernel)) (by decide)
  | addToLog s => exact of_head (head_append (c := 'a') (by decide +kernel)) (by decide)
  | setOperationalMode m => cases m <;> decide +kernel
  | generateFlightReport t => cases t <;> decide +kernel
  | _ => decide +kernel

/-- What a round trip sends is one line if the command being served is. -/
theorem sends_oneLine {cmd : DashboardCommand} (h : OneLine cmd) (t : Trip) :
    OneLine (t.sends cmd) := by
  cases t with
  | command => exact h
  | _ => exact (oneLine_iff _).mpr nofun

/-! ## The commands on their way -/

/-- The command `dashboard_server` has accepted and not queued yet. -/
def ServerPhase.accepted : ServerPhase → Option DashboardCommand
  | .starting cmd | .submitting cmd => some cmd
  | _ => none

/-- The step accepts no command with a line break in its free-form argument. -/
def acceptsOneLine (w : World F) : Action F → Bool
  | .server .redis =>
      match w.server with
      | .consuming .initial name arg =>
          match DashboardCommand.parse name arg with
          | .ok cmd => !(DashboardCommand.argument cmd).toList.any Text.isLineBreak
          | .error _ => true
      | _ => true
  | _ => true

abbrev AcceptsOneLine (w : World F) (a : Action F) : Prop := acceptsOneLine w a = true

/-- Every command accepted from a client and not answered yet is one line. -/
structure OneLiners (w : World F) : Prop where
  accepted : ∀ cmd, ServerPhase.accepted w.server = some cmd → OneLine cmd
  outstanding : ∀ r ∈ outstanding w.dashboard.holds w.shared, OneLine r.command

/-- A command that is accepted was parsed from what the tick read. -/
theorem accepted_step {up : Bool} {s s' : Shared F} {p p' : ServerPhase} {i : ServerInput}
    {cmd : DashboardCommand} (h : DashboardServer.step up s p i = some (s', p'))
    (hc : ServerPhase.accepted p' = some cmd) :
    ServerPhase.accepted p = some cmd
    ∨ ∃ name arg, p = .consuming .initial name arg ∧ i = .redis
        ∧ DashboardCommand.parse name arg = .ok cmd := by
  cases p with
  | idle =>
      cases i with
      | tick =>
          simp only [DashboardServer.step] at h
          split at h <;> cases h <;> cases hc
      | _ => simp [DashboardServer.step] at h
  | consuming state name arg =>
      -- the only way a command comes in: a trigger in `initial` whose text is understood
      cases i with
      | redis =>
          simp only [DashboardServer.step, Option.some.injEq, Prod.mk.injEq] at h
          obtain ⟨-, rfl⟩ := h
          split at hc
          · rename_i hstate
            subst hstate
            split at hc
            · rename_i hparse
              cases hc
              exact .inr ⟨name, arg, rfl, rfl, hparse⟩
            · cases hc
          · cases hc
      | _ => simp [DashboardServer.step] at h
  | starting cmd' =>
      cases i with
      | redis => cases h; exact .inl hc
      | _ => simp [DashboardServer.step] at h
  | submitting cmd' =>
      -- once it is queued, the queue answers for it and this phase holds nothing
      cases i with
      | submit =>
          simp only [DashboardServer.step] at h
          split at h <;> cases h
          cases hc
      | _ => simp [DashboardServer.step] at h
  | waiting id cmd' =>
      cases i with
      | reply | timeout =>
          simp only [DashboardServer.step] at h
          split at h <;> cases h
          cases hc
      | _ => simp [DashboardServer.step] at h
  | finishing success response | closing success =>
      cases i with
      | redis => cases h; cases hc
      | _ => simp [DashboardServer.step] at h

/-- A command gets into the channel from a goal, or from `dashboard_server`. -/
theorem outstanding_step {a : Action F} (h : World.step cfg w a = some w') :
    ∀ r ∈ outstanding w'.dashboard.holds w'.shared,
      r ∈ outstanding w.dashboard.holds w.shared ∨ r.command = .stop
      ∨ ServerPhase.accepted w.server = some r.command := by
  intro r hr
  cases ledger_move h with
  | same hs hd =>
      rw [outstanding, hd, hs.queue] at hr
      exact .inl hr
  | submit cmd req hcmd hs hd =>
      rw [outstanding, hd, hs, Shared.submit, ← List.append_assoc] at hr
      rcases List.mem_append.mp hr with hr | hr
      · exact .inl hr
      · rw [List.mem_singleton.mp hr]
        exact .inr (hcmd.imp id fun hp => by rw [hp]; rfl)
  | take r' rest hnone hr' hq hs =>
      -- the command that headed the queue is the one the task holds now
      rw [outstanding, hr', hs] at hr
      rw [outstanding, hnone, hq]
      exact .inl hr
  | answer r' reply hr' hnone hs =>
      rw [outstanding, hnone, hs] at hr
      exact .inl (List.mem_append_right _ hr)

theorem oneLiners_step {a : Action F} (hO : OneLiners w) (hok : AcceptsOneLine w a)
    (h : World.step cfg w a = some w') : OneLiners w' where
  accepted cmd hc := by
    by_cases ha : ∃ i, a = .server i
    · obtain ⟨i, rfl⟩ := ha
      obtain ⟨s, p, hs, rfl⟩ := World.step_server_eq h
      -- what is newly accepted is one line by the condition on the step
      rcases accepted_step hs hc with hold | ⟨name, arg, hp, rfl, hparse⟩
      · exact hO.accepted cmd hold
      · rw [AcceptsOneLine, acceptsOneLine, hp] at hok
        simp only [hparse] at hok
        exact (oneLine_iff cmd).mpr (by simpa using hok)
    · have hserver : w'.server = w.server := World.server_of_ne h fun i he => ha ⟨i, he⟩
      exact hO.accepted cmd (hserver ▸ hc)
  outstanding r hr := by
    rcases outstanding_step h r hr with hold | hstop | hacc
    · exact hO.outstanding r hold
    · -- a stop of the driver's own has no argument
      rw [hstop]
      exact stop_oneLine
    · exact hO.accepted _ hacc

theorem oneLiners_reachable [Zero F] (h : Run cfg AcceptsOneLine w) : OneLiners w := by
  refine h.invariant ⟨?_, ?_⟩ fun _ _ _ _ hO hok hs => oneLiners_step hO hok hs
  · intro cmd hc; cases hc
  · intro r hr; cases hr

/-! ## The connection -/

/-- What the dashboard task has its connection for at the moment. -/
inductive Link
  /-- It will not be used again. -/
  | lost
  | idle
  /-- A reply to this command is being read. -/
  | busy (cmd : DashboardCommand)

def DashPhase.link : DashPhase → Link
  | .connecting | .dropped | .answering _ (.error _) => .lost
  | .awaiting j t => .busy (t.sends j.command)
  | _ => .idle

/-- A step on which nothing happens on the connection. -/
def DashInput.silent : DashInput → Bool
  | .connect | .write (.ok _) | .reply (.ok _) _ => false
  | _ => true

/-- One step of the dashboard task, by its effect on the connection. -/
inductive Talks : DashPhase → DashInput → DashPhase → Prop
  | connect (p p' : DashPhase) : DashPhase.link p' = .idle → Talks p .connect p'
  | write (j : Job) (t : Trip) : Talks (.sending j t) (.write (.ok ())) (.awaiting j t)
  | reply (j : Job) (t : Trip) (line : String) (late : Bool) (p' : DashPhase) :
      DashPhase.link p' = .idle → Talks (.awaiting j t) (.reply (.ok line) late) p'
  | silent (p : DashPhase) (i : DashInput) (p' : DashPhase) : DashInput.silent i = true →
      DashPhase.link p' = .lost ∨ (DashPhase.link p = .idle ∧ DashPhase.link p' = .idle) →
      Talks p i p'

theorem link_failed (e : String) (j : Job) : DashPhase.link (DashPhase.failed e j) = .lost := by
  cases j <;> rfl

theorem link_start (r : Request) : DashPhase.link (DashPhase.start r) = .idle := by
  unfold DashPhase.start
  split <;> rfl

theorem link_after (j : Job) (t : Trip) (reply : DashboardReply) (late : Bool) :
    DashPhase.link (DashPhase.after j t reply late) = .idle := by
  cases j with
  | identity i => cases t <;> rfl
  | keepalive s => cases t <;> rfl
  | request r sender play =>
      cases t <;> simp only [DashPhase.after, DashPhase.afterRequest] <;> (repeat' split) <;> rfl

theorem talks_of_step {ds ds' : DriverState F} {p p' : DashPhase} {i : DashInput}
    (h : DashPhase.step ds p i = some (ds', p')) : Talks p i p' := by
  cases p with
  | connecting =>
      cases i with
      | connect => cases h; exact .connect _ _ rfl
      | _ => simp [DashPhase.step] at h
  | greeting =>
      cases i with
      | greet ok =>
          cases h
          cases ok
          · exact .silent _ _ _ rfl (.inl rfl)
          · exact .silent _ _ _ rfl (.inr ⟨rfl, rfl⟩)
      | _ => simp [DashPhase.step] at h
  | sending j t =>
      cases i with
      | write r =>
          cases r with
          | ok u => cases h; exact .write j t
          -- a failed write or reply drops the connection, and with it whatever was on its way
          | error e => cases h; exact .silent _ _ _ rfl (.inl (link_failed e j))
      | _ => simp [DashPhase.step] at h
  | awaiting j t =>
      cases i with
      | reply line late =>
          cases line with
          | ok line => cases h; exact .reply j t line late _ (link_after ..)
          | error e => cases h; exact .silent _ _ _ rfl (.inl (link_failed e j))
      | _ => simp [DashPhase.step] at h
  | serving =>
      -- a request or a poll begins in silence: its first write is a step of its own
      cases i with
      | take r => cases h; exact .silent _ _ _ rfl (.inr ⟨rfl, link_start r⟩)
      | tick => cases h; exact .silent _ _ _ rfl (.inr ⟨rfl, rfl⟩)
      | _ => simp [DashPhase.step] at h
  | reading r =>
      cases i with
      | lock late =>
          simp only [DashPhase.step] at h
          split at h <;> split at h <;> cases h <;> exact .silent _ _ _ rfl (.inr ⟨rfl, rfl⟩)
      | _ => simp [DashPhase.step] at h
  | releasing r sender play resumed =>
      cases i with
      | lock late =>
          cases h
          refine .silent _ _ _ rfl (.inr ⟨rfl, ?_⟩)
          cases resumed <;> cases sender <;> rfl
      | _ => simp [DashPhase.step] at h
  | signalling r g =>
      cases i with
      | signal v => cases v <;> cases h <;> exact .silent _ _ _ rfl (.inr ⟨rfl, rfl⟩)
      | _ => simp [DashPhase.step] at h
  | confirming r =>
      cases i with
      | lock late =>
          simp only [DashPhase.step] at h
          split at h
          · cases h; exact .silent _ _ _ rfl (.inr ⟨rfl, rfl⟩)
          · split at h <;> cases h <;> exact .silent _ _ _ rfl (.inr ⟨rfl, rfl⟩)
      | _ => simp [DashPhase.step] at h
  | answering r result =>
      cases i with
      | answer =>
          cases result with
          | ok reply => cases h; exact .silent _ _ _ rfl (.inr ⟨rfl, rfl⟩)
          | error e => cases h; exact .silent _ _ _ rfl (.inl rfl)
      | _ => cases result <;> simp [DashPhase.step] at h
  | identified id | latching r last | polled s | dropped =>
      cases i with
      | lock late =>
          cases h
          exact .silent _ _ _ rfl (by simp [DashPhase.link])
      | _ => simp [DashPhase.step] at h

/-! ## Every run -/

variable {c c' : Session F}

/-- The connection is where the dashboard task takes it to be. -/
def Carries (s : LineStream Char String) (sent : List DashboardCommand) : Link → Prop
  | .lost => True
  | .idle => s.Idle
  | .busy cmd => s.Busy ∧ sent.getLast? = some cmd

/-- Every command written is one line, and one is in flight at a time. -/
structure InStep (c : Session F) : Prop where
  lines : c.stream.lines = c.sent.map fun cmd => cmd.wire.toList
  link : Carries c.stream c.sent (DashPhase.link c.world.dashboard)

theorem exchange_silent {w' : World F} {i : DashInput} (h : DashInput.silent i = true) :
    Session.exchange c w' (.dashboard i) = some { c with world := w' } := by
  cases i with
  | connect => cases h
  | write r => cases r with
      | ok u => cases h
      | error e => rfl
  | reply line late => cases line with
      | ok line => cases h
      | error e => rfl
  | _ => rfl

/-- Only the dashboard task moves the dashboard phase, and uses the connection. -/
theorem exchange_other {a : Action F} (h : World.step cfg w a = some w')
    (ha : ∀ i, a ≠ .dashboard i) :
    w'.dashboard = w.dashboard ∧ Session.exchange c w' a = some { c with world := w' } := by
  refine ⟨World.dashboard_of_ne h ha, ?_⟩
  cases a with
  | dashboard i => exact absurd rfl (ha i)
  | _ => rfl

theorem talks_of_world {i : DashInput} (h : World.step cfg w (.dashboard i) = some w') :
    Talks w.dashboard i w'.dashboard := by
  obtain ⟨s, ds, p, -, hp, rfl⟩ := World.step_dashboard_eq h
  exact talks_of_step hp

/-- What a round trip is about to write is one line. -/
theorem OneLiners.sending {j : Job} {t : Trip} (hO : OneLiners w)
    (hd : w.dashboard = .sending j t) : OneLine (t.sends j.command) := by
  refine sends_oneLine ?_ t
  cases j with
  | request r sender play =>
      refine hO.outstanding r (List.mem_append_left _ ?_)
      rw [hd]
      exact List.mem_singleton.mpr rfl
  | _ => exact (oneLine_iff _).mpr nofun

/-- Writing a command keeps the connection in step exactly if its argument has no line break. -/
theorem send_busy_iff {s : LineStream Char String} (h : s.Idle) (cmd : DashboardCommand) :
    (Session.send s cmd).Busy
      ↔ ∀ c ∈ (DashboardCommand.argument cmd).toList, Text.isLineBreak c = false :=
  (h.write_iff rfl).trans (oneLine_iff cmd)

theorem inStep_driver {a : Action F} (hI : InStep c) (hO : OneLiners c.world)
    (hw : World.step cfg c.world a = some w') (he : Session.exchange c w' a = some c') :
    InStep c' := by
  by_cases ha : ∀ i, a ≠ .dashboard i
  · obtain ⟨hd, he'⟩ := exchange_other (c := c) hw ha
    rw [he'] at he
    cases he
    exact ⟨hI.lines, by dsimp only; rw [hd]; exact hI.link⟩
  obtain ⟨i, rfl⟩ := not_forall_not.mp ha
  have hlink := hI.link
  generalize hd : c.world.dashboard = p at hlink
  generalize hd' : w'.dashboard = p'
  have ht := hd' ▸ hd ▸ talks_of_world hw
  cases ht with
  | connect _ _ hp' =>
      cases he
      refine ⟨rfl, ?_⟩
      dsimp only
      rw [hd', hp']
      exact LineStream.idle_new
  | write j t =>
      simp only [Session.exchange, hd, Option.some.injEq] at he
      subst he
      -- one line and an idle connection: exactly one reply is on its way afterwards
      have hone := hO.sending hd
      obtain ⟨-, hlines⟩ := LineStream.Idle.write hlink hone (e := '\n') rfl
      have hbusy := (send_busy_iff hlink _).mpr ((oneLine_iff _).mp hone)
      refine ⟨?_, ?_⟩
      · rw [List.map_append, ← hI.lines]
        exact hlines
      · dsimp only
        rw [hd']
        exact ⟨hbusy, List.getLast?_concat⟩
  | reply j t line late _ hp' =>
      simp only [Session.exchange] at he
      split at he
      · rename_i line' s hread
        split at he
        · cases he
          -- the controller has answered, and nothing else is in flight
          obtain ⟨hidle, hlines, -⟩ := hlink.1.read hread
          refine ⟨hlines.trans hI.lines, ?_⟩
          dsimp only
          rw [hd', hp']
          exact hidle
        · cases he
      · cases he
  | silent _ _ _ hi hlost =>
      rw [exchange_silent hi] at he
      cases he
      refine ⟨hI.lines, ?_⟩
      dsimp only
      rw [hd']
      rcases hlost with hp' | ⟨hp, hp'⟩
      · rw [hp']; trivial
      · rw [hp']; rwa [hp] at hlink

theorem inStep_controller {reply : String} {s : LineStream Char String} (hI : InStep c)
    (h : c.stream.answer reply = some s) : InStep { c with stream := s } := by
  have hlines : s.lines = c.stream.lines := by rw [LineStream.answer_eq h]
  refine ⟨hlines.trans hI.lines, ?_⟩
  have hlink := hI.link
  dsimp only
  generalize DashPhase.link c.world.dashboard = q at hlink
  cases q with
  | lost => trivial
  | idle =>
      -- with no command in flight the controller has nothing to answer
      rw [LineStream.Idle.answer hlink] at h
      cases h
  | busy cmd => exact ⟨hlink.1.answer h, hlink.2⟩

/-- The step of the driver, if it is one, accepts no command with a line break. -/
def SessionAccepts (c : Session F) : SessionAction F → Prop
  | .driver a => AcceptsOneLine c.world a
  | .controller _ => True

instance (c : Session F) (a : SessionAction F) : Decidable (SessionAccepts c a) :=
  match a with
  | .driver a => inferInstanceAs (Decidable (AcceptsOneLine c.world a))
  | .controller _ => inferInstanceAs (Decidable True)

/-- The line is the controller's reply to that command, the last one written. -/
def RepliesTo (c : Session F) (cmd : DashboardCommand) (line : String) : Prop :=
  ∃ k, k + 1 = c.sent.length ∧ c.sent[k]? = some cmd
    ∧ c.stream.lines[k]? = some cmd.wire.toList ∧ c.stream.replies[k]? = some line

theorem InStep.repliesTo {cmd : DashboardCommand} {line : String} {s : LineStream Char String}
    (hI : InStep c) (hd : DashPhase.link c.world.dashboard = .busy cmd)
    (hr : c.stream.read = some (line, s)) : RepliesTo c cmd line := by
  obtain ⟨hbusy, hlast⟩ : Carries c.stream c.sent (.busy cmd) := hd ▸ hI.link
  have hlen : c.stream.lines.length = c.sent.length := by rw [hI.lines, List.length_map]
  have hpos : c.sent ≠ [] := by rintro he; rw [he] at hlast; cases hlast
  have hsent : c.sent[c.sent.length - 1]? = some cmd := List.getLast?_eq_getElem? ▸ hlast
  refine ⟨c.sent.length - 1, Nat.succ_pred_eq_of_pos (List.length_pos_iff.mpr hpos), hsent, ?_, ?_⟩
  · rw [hI.lines, List.getElem?_map, hsent]
    rfl
  · rw [← hlen]
    exact (hbusy.read hr).2.2

theorem exchange_world {a : Action F} (h : Session.exchange c w' a = some c') : c'.world = w' := by
  unfold Session.exchange at h
  split at h
  · cases h; rfl
  · split at h <;> cases h <;> rfl
  · split at h
    · split at h <;> cases h
      rfl
    · cases h
  · cases h; rfl

section Reachable

variable [Zero F]

abbrev SessionRun (cfg : Config F) (ok : Session F → SessionAction F → Prop) (c : Session F) :
    Prop :=
  Lts.ReachableBy (Session.step cfg) ok Session.init c

/-- The connection refines what `World` leaves open: a run of the one is a run of the other. -/
theorem world_of_session (h : SessionRun cfg SessionAccepts c) :
    Run cfg AcceptsOneLine c.world := by
  have hsim : ∃ w, Run cfg AcceptsOneLine w ∧ c.world = w := by
    refine h.simulate (R := fun c w => c.world = w) rfl ?_
    intro c a c' w hr hw hok hs
    subst hw
    cases a with
    | controller reply =>
        obtain ⟨s, -, rfl⟩ := Option.map_eq_some_iff.mp hs
        exact ⟨c.world, .inl rfl, rfl⟩
    | driver a =>
        obtain ⟨w', hw, he⟩ := Option.bind_eq_some_iff.mp hs
        exact ⟨w', .inr ⟨a, hok, hw⟩, exchange_world he⟩
  obtain ⟨w, hw, rfl⟩ := hsim
  exact hw

theorem inStep_reachable (h : SessionRun cfg SessionAccepts c) : InStep c := by
  refine h.invariant ⟨rfl, trivial⟩ fun c a c' hr hI hok hs => ?_
  cases a with
  | controller reply =>
      obtain ⟨s, ha, rfl⟩ := Option.map_eq_some_iff.mp hs
      exact inStep_controller hI ha
  | driver a =>
      obtain ⟨w', hw, he⟩ := Option.bind_eq_some_iff.mp hs
      exact inStep_driver hI (oneLiners_reachable (world_of_session hr)) hw he

/--
**Request/reply pairing.** In every run in which no command is accepted with a line break in
its free-form argument, no `quit` is ever on the connection, and every reply read is the
controller's to the command it is taken for.
-/
theorem replies_paired (h : SessionRun cfg SessionAccepts c) :
    (∀ l ∈ c.stream.lines, l ≠ "quit".toList)
    ∧ ∀ j t line late c', c.world.dashboard = .awaiting j t →
        Session.step cfg c (.driver (.dashboard (.reply (.ok line) late))) = some c' →
        RepliesTo c (t.sends j.command) line := by
  have hI := inStep_reachable h
  refine ⟨fun l hl => ?_, fun j t line late c' hd hs => ?_⟩
  · rw [hI.lines] at hl
    obtain ⟨cmd, -, rfl⟩ := List.mem_map.mp hl
    exact wire_ne_quit cmd
  · obtain ⟨w', -, he⟩ := Option.bind_eq_some_iff.mp hs
    -- the reply that the task takes is the next line of the controller's stream
    simp only [Session.exchange] at he
    split at he
    · rename_i line' s hread
      split at he
      · rename_i heq
        subst heq
        exact hI.repliesTo (by rw [hd]; rfl) hread
      · cases he
    · cases he

end Reachable

namespace Scenario

/-- A round trip with its reply coming from the controller. -/
def call (line : String) : List (SessionAction Int) :=
  [.driver (.dashboard (.write (.ok ()))), .controller line,
    .driver (.dashboard (.reply (.ok line) true))]

/-- The dashboard socket coming up, and a client's request taken from the channel. -/
def serve (name arg : String) (cmd : DashboardCommand) : List (SessionAction Int) :=
  [.driver (.dashboard .connect), .driver (.dashboard (.greet true))]
    ++ call "UR10" ++ call "2019300000" ++ call "PolyScope 5.11.1"
    ++ [.driver (.dashboard (.lock false))] ++ (askDashboard name arg).map .driver
    ++ [.driver (.dashboard (.take ⟨cmd, 0, .server, true⟩))]

end Scenario

open Scenario

/-- A popup whose text goes on with `quit` on the next line. -/
theorem not_replies_paired :
    ¬ ∀ c : Session Int, Lts.Reachable (Session.step config) Session.init c →
      (∀ l ∈ c.stream.lines, l ≠ "quit".toList)
      ∧ ∀ j t line late c', c.world.dashboard = .awaiting j t →
          Session.step config c (.driver (.dashboard (.reply (.ok line) late))) = some c' →
          RepliesTo c (t.sends j.command) line := by
  intro h
  have hrun : (Lts.run (Session.step config) Session.init (serve "popup" "a\nquit"
      (.popup "a\nquit") ++ [.driver (.dashboard (.write (.ok ())))])).any (fun c =>
        decide ("quit".toList ∈ c.stream.lines)) = true := by
    decide +kernel
  obtain ⟨c, hc, hp⟩ := Lts.exists_of_run hrun
  exact (h c hc).1 _ (of_decide_eq_true hp) rfl

/-- The queued command whose own reply is about to be read. -/
def awaited : DashPhase → Option Request
  | .awaiting (.request r _ _) .command => some r
  | _ => none

theorem awaiting_of_awaited {p : DashPhase} {r : Request} (h : awaited p = some r) :
    ∃ sender play, p = .awaiting (.request r sender play) .command := by
  unfold awaited at h
  split at h
  · cases h; exact ⟨_, _, rfl⟩
  · cases h

/-- A popup whose text is one line, and its reply. -/
theorem replies_paired_trace : ∃ c c' : Session Int, SessionRun config SessionAccepts c
    ∧ Session.step config c (.driver (.dashboard (.reply (.ok "showing popup") false))) = some c'
    ∧ RepliesTo c (.popup "a") "showing popup" := by
  have hrun : (Lts.runBy (Session.step config) SessionAccepts Session.init
      (serve "popup" "a" (.popup "a") ++ [.driver (.dashboard (.write (.ok ()))),
        .controller "showing popup"])).any (fun c =>
          (awaited c.world.dashboard).any (·.command == .popup "a")
          && (Session.step config c
            (.driver (.dashboard (.reply (.ok "showing popup") false)))).isSome) = true := by
    decide +kernel
  obtain ⟨c, hc, hp⟩ := Lts.exists_of_runBy hrun
  obtain ⟨hd, hp⟩ := Bool.and_eq_true_iff.mp hp
  obtain ⟨c', hs⟩ := Option.isSome_iff_exists.mp hp
  obtain ⟨r, hr, hd⟩ := (Option.any_eq_true _ _).mp hd
  obtain ⟨sender, play, hphase⟩ := awaiting_of_awaited hr
  have hreply := (replies_paired hc).2 _ _ _ _ _ hphase hs
  rw [show Trip.command.sends (Job.request r sender play).command = .popup "a" from
    eq_of_beq hd] at hreply
  exact ⟨c, c', hc, hs, hreply⟩

end UrRedisDriver.Proof
