import UrRedisDriver.Proof.Release

/-!
# The lines a script sends back

A line goes from the script's connection through `socket_server` into the mailbox of the
goal's task, which publishes it. The script's verdict takes a channel of its own, and the
wait loop stops for it whatever is left in the mailbox. A line that is neither a verdict nor a
progress report is published, in order, as long as the verdict is taken last.
-/

namespace UrRedisDriver.Proof

open UrRedisDriver

variable {F : Type} {cfg : Config F} {w w' : World F} {a : Action F} {g : Nat}

/-! ## What was said and what was published -/

/-- What is remembered of the lines of a run. -/
structure Relay where
  /-- The feedback each script has sent up to its verdict, oldest first. -/
  said : Chan → List String := fun _ => []
  /-- The scripts whose verdict has been read. -/
  told : Chan → Bool := fun _ => false
  /-- What each goal has published of its mailbox before its terminal state. -/
  published : Nat → List String := fun _ => []
  /-- The goals that have taken a cancel or a resume. -/
  interrupted : Nat → Bool := fun _ => false

/-- The script that is heard, and the line it sends. -/
def heardSay : SocketPhase → SocketInput → Option (Chan × ScriptLine)
  | .reading c _, .line (some l) => some (c.script, ScriptLine.read l)
  | _, _ => none

def noteLine (ch : Chan) (line : ScriptLine) (r : Relay) : Relay :=
  match line with
  | .ok | .error => { r with told := Function.update r.told ch true }
  | .feedback m =>
      if r.told ch then r else { r with said := Function.update r.said ch (r.said ch ++ [m]) }
  | .waypoint _ => r

def noteRelay (w : World F) (a : Action F) (r : Relay) : Relay :=
  match a with
  | .socket i =>
      match heardSay w.socket i with
      | some (ch, line) => noteLine ch line r
      | none => r
  | .task g (.feedback (some m)) =>
      if (w.task g).any fun t => t.published.isNone then
        { r with published := Function.update r.published g (r.published g ++ [m]) }
      else r
  | .task g .cancel | .task g .resume =>
      { r with interrupted := Function.update r.interrupted g true }
  | _ => r

/--
Goal `g` has published what its script said, if it was neither cancelled nor resumed and its
script has come to its verdict.
-/
def Relayed (x : World F × Relay) (g : Nat) : Prop :=
  ∀ t, x.1.task g = some t → t.published.isSome = true → x.2.interrupted g = false →
    x.2.told ⟨g, 0⟩ = true → (x.2.said ⟨g, 0⟩).Sublist (x.2.published g)

/-! ## When nothing is lost -/

/-- The line `socket_server` is about to put into a mailbox. -/
def SocketPhase.carries : SocketPhase → Option (Chan × String)
  | .relaying _ ch m => some (ch, m)
  | _ => none

/-- What is on its way into a mailbox. -/
def carried (w : World F) (ch : Chan) : List String :=
  match SocketPhase.carries w.socket with
  | some (ch', m) => if ch' = ch then [m] else []
  | none => []

/-- The step takes the task out of its attempt. -/
def quits (cfg : Config F) (t : Task F) (i : TaskInput) : Bool :=
  t.phase.inAttempt && (t.step cfg.render i).any fun t' => !t'.phase.inAttempt

/--
A connection is served for the script that opened it. A script that has sent feedback has its
verdict read while its goal is still in the attempt; and a goal whose script has come to its
verdict leaves the attempt with its mailbox empty and no line on its way there.
-/
def drained (cfg : Config F) (x : World F × Relay) (a : Action F) : Bool :=
  match a with
  | .socket (.accept true) =>
      match x.1.shared.backlog.head?, x.1.shared.ds.feedbackSender with
      | some c, some ch => c.script == ch
      | _, _ => true
  | .socket i =>
      match heardSay x.1.socket i with
      | some (ch, .ok) | some (ch, .error) =>
          (x.2.said ch).isEmpty || x.2.interrupted ch.goal || x.1.feedbackOpen ch
      | _ => true
  | .task g i =>
      x.2.interrupted g || !x.2.told ⟨g, 0⟩ || !(x.1.task g).any (quits cfg · i)
        || (x.1.shared.feedbackBox ⟨g, 0⟩).isEmpty && (carried x.1 ⟨g, 0⟩).isEmpty
  | _ => true

abbrev Drained (cfg : Config F) (x : World F × Relay) (a : Action F) : Prop :=
  drained cfg x a = true

/-! ## Steps of `socket_server` -/

/-- One step of `socket_server`, on the lines it passes on. -/
inductive LineMove (open_ : Bool) (s : Shared F) (p : SocketPhase) :
    SocketInput → Shared F → SocketPhase → Prop
  | accept (c : Conn) (ch : Chan) (s' : Shared F) (p' : SocketPhase) :
      s.backlog.head? = some c → s.ds.feedbackSender = some ch →
      s'.feedbackBox = s.feedbackBox → p'.conn = some c → p'.heldFeedback = some ch →
      SocketPhase.carries p = none → SocketPhase.carries p' = none →
      heardSay p (.accept true) = none → LineMove open_ s p (.accept true) s' p'
  | verdict (c : Conn) (ch : Chan) (i : SocketInput) (line : ScriptLine) (s' : Shared F) :
      p = .reading c ch → line = .ok ∨ line = .error →
      heardSay p i = some (c.script, line) → s'.feedbackBox = s.feedbackBox →
      LineMove open_ s p i s' p
  | say (c : Conn) (ch : Chan) (i : SocketInput) (m : String) : p = .reading c ch →
      heardSay p i = some (c.script, .feedback m) → LineMove open_ s p i s (.relaying c ch m)
  | relay (c : Conn) (ch : Chan) (m : String) (s' : Shared F) :
      p.conn = some c → p.heldFeedback = some ch →
      (∀ ch' m', SocketPhase.carries p = some (ch', m') → ch' = ch ∧ m' = m) →
      (open_ = true → s'.feedbackBox
        = Function.update s.feedbackBox ch (s.feedbackBox ch ++ [m])) →
      (open_ = false → s'.feedbackBox = s.feedbackBox) →
      heardSay p .feedback = none → LineMove open_ s p .feedback s' (.reading c ch)
  | other (i : SocketInput) (s' : Shared F) (p' : SocketPhase) :
      s'.feedbackBox = s.feedbackBox →
      p'.conn = none ∨ p'.conn = p.conn ∧ p'.heldFeedback = p.heldFeedback →
      SocketPhase.carries p = none → SocketPhase.carries p' = none →
      (∀ ch line, heardSay p i = some (ch, line) → ∃ n, line = .waypoint n) →
      LineMove open_ s p i s' p'

theorem resolveGoal_feedbackBox (s : Shared F) (v : Bool) (by_ : Resolver) :
    (s.resolveGoal v by_).feedbackBox = s.feedbackBox := by
  obtain ⟨box, r, he⟩ := s.resolveGoal_eq v by_
  rw [he]

theorem readLine_lineMove {open_ : Bool} (s : Shared F) (c : Conn) (ch : Chan) (l : String) :
    LineMove open_ s (.reading c ch) (.line (some l)) (SocketServer.readLine s c ch l).1
      (SocketServer.readLine s c ch l).2 := by
  unfold SocketServer.readLine
  split
  · rename_i hl
    exact .verdict c ch _ .ok _ rfl (.inl rfl) (by rw [heardSay, hl])
      (resolveGoal_feedbackBox ..)
  · rename_i hl
    exact .verdict c ch _ .error _ rfl (.inr rfl) (by rw [heardSay, hl])
      (resolveGoal_feedbackBox ..)
  · rename_i n hl
    have hway : ∀ ch' line, heardSay (.reading c ch) (.line (some l)) = some (ch', line) →
        ∃ n, line = .waypoint n := by
      intro ch' line hs
      rw [heardSay, hl] at hs
      cases hs
      exact ⟨_, rfl⟩
    split
    · exact .other _ _ _ rfl (.inr ⟨rfl, rfl⟩) rfl rfl hway
    · exact .other _ _ _ rfl (.inl rfl) rfl rfl hway
  · rename_i hl
    refine .other _ _ _ rfl (.inr ⟨rfl, rfl⟩) rfl rfl ?_
    intro ch' line hs
    rw [heardSay, hl] at hs
    cases hs
    exact ⟨_, rfl⟩
  · rename_i m hl
    exact .say c ch _ m rfl (by rw [heardSay, hl])

theorem sendFeedback_lineMove {open_ : Bool} {s s' : Shared F} {p : SocketPhase} {c : Conn}
    {ch : Chan} {m : String} (h : SocketServer.sendFeedback s open_ ch m = some s')
    (hc : p.conn = some c) (hf : p.heldFeedback = some ch)
    (hm : ∀ ch' m', SocketPhase.carries p = some (ch', m') → ch' = ch ∧ m' = m)
    (hs : heardSay p .feedback = none) : LineMove open_ s p .feedback s' (.reading c ch) := by
  unfold SocketServer.sendFeedback at h
  split at h
  · rename_i ho
    split at h
    · cases h
      exact .relay c ch m _ hc hf hm (fun _ => rfl) (fun hn => by rw [ho] at hn; cases hn) hs
    · cases h
  · rename_i ho
    cases h
    exact .relay c ch m _ hc hf hm (fun hn => absurd hn ho) (fun _ => rfl) hs

theorem step_lineMove {open_ : Bool} {s s' : Shared F} {p p' : SocketPhase} {i : SocketInput}
    (h : SocketServer.step open_ s p i = some (s', p')) : LineMove open_ s p i s' p' := by
  unfold SocketServer.step at h
  split at h
  · split at h <;> cases h
    exact .other _ _ _ rfl (.inl rfl) rfl rfl nofun
  · rename_i ok
    cases h
    exact .other _ _ _ rfl (.inl (by cases ok <;> rfl)) rfl (by cases ok <;> rfl) nofun
  · cases h
    exact .other _ _ _ rfl (.inl rfl) rfl rfl nofun
  · split at h
    · cases h
    · rename_i c rest hb
      split at h
      · rename_i hs gid fb h1 h2 h3
        cases h
        exact .accept c fb _ _ (by rw [hb]; rfl) h3 rfl rfl rfl rfl rfl rfl
      · cases h
        exact .other _ _ _ rfl (.inl rfl) rfl rfl nofun
  · rename_i ok
    cases h
    cases ok with
    | true => exact .other _ _ _ rfl (.inr ⟨rfl, rfl⟩) rfl rfl nofun
    | false => exact .other _ _ _ rfl (.inl rfl) rfl rfl nofun
  · cases h
    exact .other _ _ _ rfl (.inr ⟨rfl, rfl⟩) rfl rfl nofun
  · obtain ⟨s₁, hf, he⟩ := Option.map_eq_some_iff.mp h
    cases he
    exact sendFeedback_lineMove hf rfl rfl nofun rfl
  · rename_i c ch l
    have hmove : LineMove open_ s (.reading c ch) (.line l) _ _ := readLine_lineMove s c ch l
    rw [Option.some.inj h] at hmove
    exact hmove
  · cases h
    exact .other _ _ _ (resolveGoal_feedbackBox ..) (.inl rfl) rfl rfl nofun
  · rename_i c ch m
    obtain ⟨s₁, hf, he⟩ := Option.map_eq_some_iff.mp h
    cases he
    refine sendFeedback_lineMove hf rfl rfl ?_ rfl
    intro ch' m' hm
    cases hm
    exact ⟨rfl, rfl⟩
  · cases h

theorem step_socket_line {i : SocketInput} (h : World.step cfg w (.socket i) = some w') :
    ∃ open_ s p, (∀ ch, w.socket.heldFeedback = some ch → open_ = w.feedbackOpen ch)
      ∧ LineMove open_ w.shared w.socket i s p ∧ w' = { w with shared := s, socket := p } := by
  obtain ⟨open_, s, p, hopen, hs, rfl⟩ := World.step_socket_eq h
  exact ⟨open_, s, p, hopen, step_lineMove hs, rfl⟩

/-! ## Goals that are neither cancelled nor resumed -/

/-- Only reached by a cancel or a resume. -/
def Phase.sidetracked : Phase → Bool
  | .cancelling | .stopPending | .measuring | .claiming | .restopping | .restopPending
  | .draining | .resetting | .activating => true
  | _ => false

/-- In its first attempt, and on its way through it. -/
def Straight (t : Task F) : Prop := t.attempt = 0 ∧ Phase.sidetracked t.phase = false

theorem publishing_sidetracked {p : Phase} (h : p.publishing = true ∨ p = .teardown) :
    Phase.sidetracked p = false := by
  rcases h with h | rfl
  · cases p <;> first | rfl | cases h
  · rfl

theorem Straight.move {t t' : Task F} {i : TaskInput} (hS : Straight t) (h : Task.Move t i t')
    (hc : i ≠ .cancel) (hr : i ≠ .resume) : Straight t' := by
  obtain ⟨hatt, hside⟩ := hS
  cases h with
  | hop i p hh =>
      refine ⟨hatt, ?_⟩
      generalize t.phase = q at hh hside
      cases hh with
      | connect | teardown => rfl
      | cancel => exact absurd rfl hc
      | resume => exact absurd rfl hr
      | _ => cases hside
  | leave i e hh => exact ⟨hatt, publishing_sidetracked (.inl (leave_phase t e))⟩
  | publish keys p written hp => exact ⟨hatt, publishing_sidetracked hp.publishing.2⟩
  | install hp | write hp | handshake hp => exact ⟨hatt, rfl⟩
  | feedback m hp ho => exact ⟨hatt, hside⟩
  | stop id hp | restop id hp | measure n next hp | activate remaining nextScript hp =>
      rw [hp] at hside
      cases hside

/-- The goal has a task that has been spawned. -/
def Started (w : World F) (g : Nat) : Prop := ∃ t, w.task g = some t ∧ t.phase ≠ .admitted

theorem Move.ne_admitted {t t' : Task F} {i : TaskInput} (h : Task.Move t i t') :
    t'.phase ≠ .admitted := by
  cases h with
  | hop i p hh =>
      generalize t.phase = q at hh
      cases hh <;> exact Phase.noConfusion
  | leave i e hh => exact (publishing_ne (leave_phase t e)).2
  | publish keys p written hp =>
      rcases hp.publishing.2 with hpub | rfl
      · exact (publishing_ne hpub).2
      · exact Phase.noConfusion
  | feedback m hp ho =>
      rw [hp]
      exact Phase.noConfusion
  | _ => exact Phase.noConfusion

theorem Started.step (hS : Started w g) (hf : Fresh w) (hp : PendingAdmitted w)
    (h : World.step cfg w a = some w') : Started w' g := by
  obtain ⟨t, ht, hne⟩ := hS
  obtain ⟨t', ht'⟩ := task_persists h ht
  refine ⟨t', ht', ?_⟩
  -- a task that was there is moved or spawned, and neither takes it back to `admitted`
  cases task_origin hp h ht' with
  | same hsame =>
      rw [ht] at hsame
      cases hsame
      exact hne
  | moved u i _ _ _ hm => exact Move.ne_admitted hm
  | accepted command script uuid _ _ hn _ =>
      rw [hf g hn.ge] at ht
      cases ht
  | spawned u _ _ _ _ he =>
      rw [he]
      exact Phase.noConfusion

/-! ## Nothing is lost on the way -/

/-- What a goal's script has said is published, in its mailbox, or on its way there. -/
structure Unlost (w : World F) (r : Relay) (g : Nat) (t : Task F) : Prop where
  inAttempt : t.phase.inAttempt = true → (r.said ⟨g, 0⟩).Sublist
    (r.published g ++ w.shared.feedbackBox ⟨g, 0⟩ ++ carried w ⟨g, 0⟩)
  left : t.phase.inAttempt = false → r.told ⟨g, 0⟩ = true →
    (r.said ⟨g, 0⟩).Sublist (r.published g)

/-- The invariant: what is lost, and what it takes for nothing to be. -/
structure Lossless (w : World F) (r : Relay) : Prop where
  unlost : ∀ g t, w.task g = some t → r.interrupted g = false → Unlost w r g t
  straight : ∀ g t, w.task g = some t → r.interrupted g = false → Straight t
  /-- Only a script that has been written can say anything. -/
  written : ∀ ch ∈ audible w, Started w ch.goal
  said : ∀ ch, r.said ch ≠ [] → Started w ch.goal
  /-- A connection is served for the script that opened it. -/
  paired : ∀ c, w.socket.conn = some c → w.socket.heldFeedback = some c.script

theorem Unlost.of_silent {r : Relay} {t : Task F} (h : r.said ⟨g, 0⟩ = []) : Unlost w r g t := by
  constructor
  · intro _
    rw [h]
    exact List.nil_sublist _
  · intro _ _
    rw [h]
    exact List.nil_sublist _

/-- Steps that touch none of what a goal's lines go through. -/
theorem Unlost.same {r r' : Relay} {t : Task F} (hU : Unlost w r g t)
    (hbox : w'.shared.feedbackBox ⟨g, 0⟩ = w.shared.feedbackBox ⟨g, 0⟩)
    (hcarried : carried w' ⟨g, 0⟩ = carried w ⟨g, 0⟩)
    (hsaid : r'.said ⟨g, 0⟩ = r.said ⟨g, 0⟩) (htold : r'.told ⟨g, 0⟩ = r.told ⟨g, 0⟩)
    (hpub : r'.published g = r.published g) : Unlost w' r' g t := by
  constructor
  · intro hin
    rw [hsaid, hpub, hbox, hcarried]
    exact hU.inAttempt hin
  · intro hout ho
    rw [hsaid, hpub]
    exact hU.left hout (htold ▸ ho)

theorem carried_of_socket (h : w'.socket = w.socket) (ch : Chan) : carried w' ch = carried w ch := by
  unfold carried
  rw [h]

/-- What is on its way is nothing where the phase carries nothing. -/
theorem carried_none {ch : Chan} (h : SocketPhase.carries w.socket = none) :
    carried w ch = [] := by
  unfold carried
  rw [h]

theorem carried_some {ch ch' : Chan} {m : String}
    (h : SocketPhase.carries w.socket = some (ch', m)) :
    carried w ch = if ch' = ch then [m] else [] := by
  unfold carried
  rw [h]

theorem feedbackOpen_first {t : Task F} (ht : w.task g = some t) (hS : Straight t) :
    w.feedbackOpen ⟨g, 0⟩ = t.phase.inAttempt := by
  unfold World.feedbackOpen
  rw [ht]
  dsimp only
  rw [hS.1]
  rfl

theorem heardSay_accept (p : SocketPhase) (ok : Bool) : heardSay p (.accept ok) = none := by
  cases p <;> rfl

theorem noteRelay_silent {i : SocketInput} {r : Relay} (h : heardSay w.socket i = none) :
    noteRelay w (.socket i) r = r := by
  simp only [noteRelay, h]

theorem noteRelay_line {i : SocketInput} {r : Relay} {ch : Chan} {line : ScriptLine}
    (h : heardSay w.socket i = some (ch, line)) :
    noteRelay w (.socket i) r = noteLine ch line r := by
  simp only [noteRelay, h]

theorem noteRelay_waypoint {i : SocketInput} {r : Relay}
    (h : ∀ ch line, heardSay w.socket i = some (ch, line) → ∃ n, line = .waypoint n) :
    noteRelay w (.socket i) r = r := by
  cases hs : heardSay w.socket i with
  | none => exact noteRelay_silent hs
  | some said =>
      obtain ⟨ch, line⟩ := said
      obtain ⟨n, rfl⟩ := h ch line hs
      exact noteRelay_line hs

theorem drained_verdict {i : SocketInput} {x : World F × Relay} {ch : Chan} {line : ScriptLine}
    (hok : Drained cfg x (.socket i)) (hheard : heardSay x.1.socket i = some (ch, line))
    (hline : line = .ok ∨ line = .error) :
    ((x.2.said ch).isEmpty || x.2.interrupted ch.goal || x.1.feedbackOpen ch) = true := by
  have hok : drained cfg x (.socket i) = true := hok
  cases i with
  | accept ok =>
      rw [heardSay_accept] at hheard
      cases hheard
  | _ =>
      simp only [drained, hheard] at hok
      rcases hline with rfl | rfl <;> exact hok

/-- The verdict of a script. -/
theorem unlost_verdict {i : SocketInput} {x : World F × Relay} {t : Task F} {c : Conn}
    {line : ScriptLine} (hU : Unlost x.1 x.2 g t) (hS : Straight t) (ht : x.1.task g = some t)
    (hint : x.2.interrupted g = false) (hok : Drained cfg x (.socket i))
    (hline : line = .ok ∨ line = .error) (hheard : heardSay x.1.socket i = some (c.script, line)) :
    Unlost x.1 (noteRelay x.1 (.socket i) x.2) g t := by
  have hnote : noteRelay x.1 (.socket i) x.2
      = { x.2 with told := Function.update x.2.told c.script true } := by
    rw [noteRelay_line hheard]
    rcases hline with rfl | rfl <;> rfl
  rw [hnote]
  refine ⟨hU.inAttempt, ?_⟩
  intro hout htold
  by_cases hsame : c.script = ⟨g, 0⟩
  · -- the goal has left its attempt, so there is only the case where nothing was said
    have hcond := drained_verdict hok hheard hline
    rw [hsame] at hcond
    rw [show x.2.interrupted (Chan.goal ⟨g, 0⟩) = false from hint, feedbackOpen_first ht hS, hout,
      Bool.or_false, Bool.or_false] at hcond
    show (x.2.said ⟨g, 0⟩).Sublist _
    rw [List.isEmpty_iff.mp hcond]
    exact List.nil_sublist _
  · refine hU.left hout ?_
    rw [← htold]
    exact (Function.update_of_ne (Ne.symm hsame) ..).symm

/-- A line of feedback: it is on its way from here on. -/
theorem unlost_say {i : SocketInput} {x : World F × Relay} {t : Task F} {ch : Chan} {m : String}
    (hU : Unlost x.1 x.2 g t) (hp : x.1.socket = .reading ⟨ch⟩ ch)
    (hheard : heardSay x.1.socket i = some (ch, .feedback m)) :
    Unlost { x.1 with socket := .relaying ⟨ch⟩ ch m } (noteRelay x.1 (.socket i) x.2) g t := by
  have hbefore : carried x.1 ⟨g, 0⟩ = [] := carried_none (by rw [hp]; rfl)
  have hafter : carried { x.1 with socket := .relaying ⟨ch⟩ ch m } ⟨g, 0⟩
      = if ch = ⟨g, 0⟩ then [m] else [] := carried_some rfl
  rw [noteRelay_line hheard]
  by_cases hsame : ch = ⟨g, 0⟩
  · -- it is a line of this very channel: either it comes after the verdict and is not counted, or
    -- it is the one the listener now carries
    subst hsame
    rw [if_pos rfl] at hafter
    cases htold : x.2.told ⟨g, 0⟩ with
    | true =>
        have hnote : noteLine ⟨g, 0⟩ (.feedback m) x.2 = x.2 := if_pos htold
        rw [hnote]
        refine ⟨?_, hU.left⟩
        intro hin
        have hsub := hU.inAttempt hin
        rw [hbefore, List.append_nil] at hsub
        rw [hafter]
        exact hsub.trans (List.sublist_append_left _ _)
    | false =>
        have hnote : noteLine ⟨g, 0⟩ (.feedback m) x.2
            = { x.2 with said := Function.update x.2.said ⟨g, 0⟩ (x.2.said ⟨g, 0⟩ ++ [m]) } :=
          if_neg (by rw [htold]; exact Bool.noConfusion)
        rw [hnote]
        refine ⟨?_, ?_⟩
        · intro hin
          have hsub := hU.inAttempt hin
          rw [hbefore, List.append_nil] at hsub
          rw [hafter]
          show (Function.update x.2.said ⟨g, 0⟩ _ ⟨g, 0⟩).Sublist _
          rw [Function.update_self]
          exact hsub.append (List.Sublist.refl [m])
        · intro _ ho
          rw [show x.2.told ⟨g, 0⟩ = true from ho] at htold
          cases htold
  · -- a line of another channel changes nothing for this one
    rw [if_neg hsame, ← hbefore] at hafter
    have hkeeps : (noteLine ch (.feedback m) x.2).said ⟨g, 0⟩ = x.2.said ⟨g, 0⟩
        ∧ (noteLine ch (.feedback m) x.2).told = x.2.told
        ∧ (noteLine ch (.feedback m) x.2).published = x.2.published := by
      unfold noteLine
      dsimp only
      split
      · exact ⟨rfl, rfl, rfl⟩
      · exact ⟨Function.update_of_ne (Ne.symm hsame) .., rfl, rfl⟩
    exact hU.same rfl hafter hkeeps.1 (by rw [hkeeps.2.1]) (by rw [hkeeps.2.2])

/-- A line put into a mailbox. -/
theorem unlost_relay {open_ : Bool} {s : Shared F} {r : Relay} {t : Task F} {c : Conn} {ch : Chan}
    {m : String} (hU : Unlost w r g t) (hS : Straight t) (ht : w.task g = some t)
    (hopen : open_ = w.feedbackOpen ch)
    (hcarry : ∀ ch' m', SocketPhase.carries w.socket = some (ch', m') → ch' = ch ∧ m' = m)
    (hput : open_ = true → s.feedbackBox
      = Function.update w.shared.feedbackBox ch (w.shared.feedbackBox ch ++ [m]))
    (hdrop : open_ = false → s.feedbackBox = w.shared.feedbackBox) :
    Unlost { w with shared := s, socket := .reading c ch } r g t := by
  have hafter : carried { w with shared := s, socket := .reading c ch } ⟨g, 0⟩ = [] :=
    carried_none rfl
  by_cases hsame : ch = ⟨g, 0⟩
  · -- what was carried is in the mailbox now, at the end, so the order stays
    subst hsame
    refine ⟨?_, hU.left⟩
    intro hin
    have hbox := hput (by rw [hopen, feedbackOpen_first ht hS, hin])
    rw [hafter, List.append_nil]
    show (r.said ⟨g, 0⟩).Sublist (r.published g ++ s.feedbackBox ⟨g, 0⟩)
    rw [hbox, Function.update_self, ← List.append_assoc]
    refine (hU.inAttempt hin).trans ?_
    refine List.Sublist.append (List.Sublist.refl _) ?_
    unfold carried
    split
    · rename_i ch' m' hc
      rw [(hcarry ch' m' hc).2]
      split
      · exact List.Sublist.refl _
      · exact List.nil_sublist _
    · exact List.nil_sublist _
  · -- another channel's message was carried
    have hbefore : carried w ⟨g, 0⟩ = [] := by
      unfold carried
      split
      · rename_i ch' m' hc
        rw [if_neg (by rw [(hcarry ch' m' hc).1]; exact hsame)]
      · rfl
    refine hU.same ?_ (hafter.trans hbefore.symm) rfl rfl rfl
    show s.feedbackBox ⟨g, 0⟩ = _
    cases ho : open_ with
    | true => rw [hput ho, Function.update_of_ne (Ne.symm hsame)]
    | false => rw [hdrop ho]

theorem unlost_socket {i : SocketInput} {x : World F × Relay} {t : Task F}
    (hI : Lossless x.1 x.2) (hok : Drained cfg x (.socket i))
    (h : World.step cfg x.1 (.socket i) = some w') (ht : x.1.task g = some t)
    (hint : x.2.interrupted g = false) :
    Unlost w' (noteRelay x.1 (.socket i) x.2) g t := by
  have hU := hI.unlost g t ht hint
  have hS := hI.straight g t ht hint
  obtain ⟨open_, s, p, hopen, hm, rfl⟩ := step_socket_line h
  cases hm with
  | accept c ch _ _ _ _ hbox _ _ hp hp' hsilent =>
      rw [noteRelay_silent hsilent]
      refine hU.same (by rw [hbox]) ?_ rfl rfl rfl
      rw [carried_none hp, carried_none hp']
  | verdict c ch _ line _ hp hline hheard hbox =>
      exact (unlost_verdict hU hS ht hint hok hline hheard).same (by rw [hbox]) rfl rfl rfl rfl
  | say c ch _ m hp hheard =>
      obtain ⟨script⟩ := c
      -- the listener holds the feedback sender of the script it reads
      have hpair := hI.paired ⟨script⟩ (by rw [hp]; rfl)
      rw [hp] at hpair
      cases hpair
      exact unlost_say hU hp hheard
  | relay c ch m _ hc hf hcarry hput hdrop hsilent =>
      rw [noteRelay_silent hsilent]
      exact unlost_relay hU hS ht (hopen ch hf) hcarry hput hdrop
  | other _ _ _ hbox _ hp hp' hway =>
      rw [noteRelay_waypoint hway]
      refine hU.same (by rw [hbox]) ?_ rfl rfl rfl
      rw [carried_none hp, carried_none hp']

/-! ## Steps of a goal's task -/

theorem effect_feedbackBox {up : Bool} {s : Shared F} {t : Task F} {i : TaskInput}
    (hi : ∀ m, i ≠ .feedback (some m)) :
    (World.effect cfg up s g t i).feedbackBox = s.feedbackBox := by
  cases i with
  | write r => cases r <;> rfl
  | feedback m =>
      cases m with
      | none => rfl
      | some m => exact absurd rfl (hi m)
  | sendStop r => cases r <;> rfl
  | redis keys =>
      simp only [World.effect]
      split <;> rfl
  | _ => rfl

/-- The record after a step of a goal's task that takes no line and is not sidetracked. -/
theorem noteRelay_task {i : TaskInput} {r : Relay} (hf : ∀ m, i ≠ .feedback (some m))
    (hc : i ≠ .cancel) (hr : i ≠ .resume) : noteRelay w (.task g i) r = r := by
  cases i with
  | feedback m =>
      cases m with
      | none => rfl
      | some m => exact absurd rfl (hf m)
  | cancel => exact absurd rfl hc
  | resume => exact absurd rfl hr
  | _ => rfl

/-- A line is taken in the wait loop, which goes on. -/
theorem Move.of_line {t t' : Task F} {m : String} (h : Task.Move t (.feedback (some m)) t') :
    t.phase = .waiting ∧ t'.phase = .waiting := by
  cases h with
  | feedback m hp ho => exact ⟨hp, hp⟩
  | hop i p hh => generalize t.phase = q at hh; cases hh
  | leave i e hh => generalize t.phase = q at hh; cases hh

/-- A line taken out of the mailbox is a line published. -/
theorem unlost_take {r : Relay} {t t' : Task F} {m : String} (hU : Unlost w r g t)
    (hS : Straight t) (hC : Consistent t) (ht : w.task g = some t)
    (hm : Task.Move t (.feedback (some m)) t')
    (hready : w.ready g t (.feedback (some m)) = true) :
    Unlost { w with
      shared := World.effect cfg w.dashboard.up w.shared g t (.feedback (some m))
      task := Function.update w.task g (some t') } (noteRelay w (.task g (.feedback (some m))) r)
      g t' := by
  obtain ⟨hphase, hphase'⟩ := Move.of_line hm
  have hloop : Phase.looping t.phase := by rw [hphase]; exact ⟨rfl, nofun, nofun⟩
  have hnone : t.published = none := (hC.looping (hC.exit_none hloop)).1
  have hnote : noteRelay w (.task g (.feedback (some m))) r
      = { r with published := Function.update r.published g (r.published g ++ [m]) } := by
    show (if (w.task g).any (fun t => t.published.isNone) then _ else r) = _
    rw [ht, Option.any_some, hnone]
    rfl
  -- what is taken off the mailbox is what is published: the two together stay as they were
  rw [hnote]
  have hhead : (w.shared.feedbackBox ⟨g, 0⟩).head? = some m := by
    have hr : ((w.shared.feedbackBox ⟨g, t.attempt⟩).head? == some m) = true := hready
    rw [hS.1] at hr
    exact eq_of_beq hr
  refine ⟨?_, ?_⟩
  · intro _
    have hsub := hU.inAttempt (by rw [hphase]; rfl)
    have hbox : (World.effect cfg w.dashboard.up w.shared g t
        (.feedback (some m))).feedbackBox ⟨g, 0⟩ = (w.shared.feedbackBox ⟨g, 0⟩).tail := by
      show Function.update w.shared.feedbackBox ⟨g, t.attempt⟩ _ ⟨g, 0⟩ = _
      rw [hS.1, Function.update_self]
    show (r.said ⟨g, 0⟩).Sublist (Function.update r.published g _ g
      ++ (World.effect cfg w.dashboard.up w.shared g t (.feedback (some m))).feedbackBox ⟨g, 0⟩
      ++ carried w ⟨g, 0⟩)
    rw [hbox, Function.update_self]
    have hcons : w.shared.feedbackBox ⟨g, 0⟩ = m :: (w.shared.feedbackBox ⟨g, 0⟩).tail :=
      (List.cons_head?_tail hhead).symm
    rw [hcons] at hsub
    rw [List.append_assoc (r.published g) [m]]
    exact hsub
  · intro hout
    rw [hphase'] at hout
    cases hout

/-- A goal's own step. -/
theorem unlost_own {i : TaskInput} {x : World F × Relay} {t' : Task F}
    (hI : Lossless x.1 x.2) (hM : ∀ g t, x.1.task g = some t → Memory t)
    (hok : Drained cfg x (.task g i)) (h : World.step cfg x.1 (.task g i) = some w')
    (ht' : w'.task g = some t') (hc : i ≠ .cancel) (hr : i ≠ .resume)
    (hint : x.2.interrupted g = false) :
    Unlost w' (noteRelay x.1 (.task g i) x.2) g t' := by
  obtain ⟨t, u, ht, hready, hstep, rfl⟩ := World.step_task_eq h
  simp only [Function.update_self, Option.some.injEq] at ht'
  subst ht'
  have hm := Task.step_move hstep
  have hU := hI.unlost g t ht hint
  have hS := hI.straight g t ht hint
  by_cases hfeed : ∃ m, i = .feedback (some m)
  · obtain ⟨m, rfl⟩ := hfeed
    exact unlost_take hU hS (hM g t ht).toConsistent ht hm hready
  · have hf : ∀ m, i ≠ .feedback (some m) := fun m he => hfeed ⟨m, he⟩
    rw [noteRelay_task hf hc hr]
    have hbox : (World.effect cfg x.1.dashboard.up x.1.shared g t i).feedbackBox ⟨g, 0⟩
        = x.1.shared.feedbackBox ⟨g, 0⟩ := by rw [effect_feedbackBox hf]
    refine ⟨?_, ?_⟩
    · intro hin
      show (x.2.said ⟨g, 0⟩).Sublist (x.2.published g
        ++ (World.effect cfg x.1.dashboard.up x.1.shared g t i).feedbackBox ⟨g, 0⟩
        ++ carried x.1 ⟨g, 0⟩)
      rw [hbox]
      exact hU.inAttempt (Move.inAttempt hm hin)
    · intro hout htold
      cases hin : t.phase.inAttempt with
      | false => exact hU.left hin htold
      | true =>
          -- leaving: the condition has the mailbox empty and nothing on its way
          have hquits : (x.1.task g).any (quits cfg · i) = true := by
            rw [ht, Option.any_some]
            show (t.phase.inAttempt && _) = true
            rw [hin, hstep, Option.any_some, hout]
            rfl
          have hok : (x.2.interrupted g || !x.2.told ⟨g, 0⟩ || !(x.1.task g).any (quits cfg · i)
              || (x.1.shared.feedbackBox ⟨g, 0⟩).isEmpty && (carried x.1 ⟨g, 0⟩).isEmpty)
              = true := hok
          rw [hint, htold, hquits] at hok
          obtain ⟨hempty, hcarried⟩ := Bool.and_eq_true_iff.mp hok
          have hsub := hU.inAttempt hin
          rw [List.isEmpty_iff.mp hempty, List.isEmpty_iff.mp hcarried, List.append_nil,
            List.append_nil] at hsub
          exact hsub

/-! ## The invariant is kept -/

/-- The steps that lines do not go through. -/
theorem feedbackBox_others (h : World.step cfg w a = some w') (hs : ∀ i, a ≠ .socket i)
    (ht : ∀ g i, a ≠ .task g i) : w'.shared.feedbackBox = w.shared.feedbackBox := by
  cases a with
  | client i | robot i | server i =>
      obtain ⟨_, _, _, _, _, _, _, rfl⟩ := World.step_outside h rfl
      rfl
  | command i =>
      obtain ⟨_, _, _, _, _, _, _, _, _, _, rfl⟩ := World.step_command_frame h
      rfl
  | task g i => exact absurd rfl (ht g i)
  | socket i => exact absurd rfl (hs i)
  | realtime i =>
      obtain ⟨s, p, hm, rfl⟩ := World.step_realtime h
      cases hm with
      | abort => exact resolveGoal_feedbackBox w.shared false .safetyStop
      | _ => rfl
  | dashboard i => cases World.step_dashboard h <;> rfl

theorem noteRelay_others {r : Relay} (hs : ∀ i, a ≠ .socket i) (ht : ∀ g i, a ≠ .task g i) :
    noteRelay w a r = r := by
  cases a with
  | task g i => exact absurd rfl (ht g i)
  | socket i => exact absurd rfl (hs i)
  | _ => rfl

/-- Another goal's step. -/
theorem noteRelay_other {g' : Nat} {i : TaskInput} {r : Relay} (hne : g ≠ g') :
    (noteRelay w (.task g' i) r).said = r.said ∧ (noteRelay w (.task g' i) r).told = r.told
      ∧ (noteRelay w (.task g' i) r).published g = r.published g
      ∧ (noteRelay w (.task g' i) r).interrupted g = r.interrupted g := by
  cases i with
  | feedback m =>
      cases m with
      | none => exact ⟨rfl, rfl, rfl, rfl⟩
      | some m =>
          simp only [noteRelay]
          split
          · exact ⟨rfl, rfl, Function.update_of_ne hne .., rfl⟩
          · exact ⟨rfl, rfl, rfl, rfl⟩
  | cancel | resume => exact ⟨rfl, rfl, rfl, Function.update_of_ne hne ..⟩
  | _ => exact ⟨rfl, rfl, rfl, rfl⟩

theorem noteRelay_own {i : TaskInput} {r : Relay}
    (h : (noteRelay w (.task g i) r).interrupted g = false) :
    i ≠ .cancel ∧ i ≠ .resume ∧ r.interrupted g = false := by
  have hset : (Function.update r.interrupted g true) g = true := Function.update_self ..
  cases i with
  | cancel | resume =>
      rw [show (Function.update r.interrupted g true) g = false from h] at hset
      cases hset
  | feedback m =>
      refine ⟨TaskInput.noConfusion, TaskInput.noConfusion, ?_⟩
      cases m with
      | none => exact h
      | some m =>
          simp only [noteRelay] at h
          split at h <;> exact h
  | _ => exact ⟨TaskInput.noConfusion, TaskInput.noConfusion, h⟩

theorem noteLine_keeps {ch : Chan} {line : ScriptLine} {r : Relay} :
    (noteLine ch line r).interrupted = r.interrupted
      ∧ ∀ ch', (noteLine ch line r).said ch' ≠ [] → r.said ch' ≠ [] ∨ ch' = ch := by
  cases line with
  | ok | error | waypoint => exact ⟨rfl, fun _ h => .inl h⟩
  | feedback m =>
      unfold noteLine
      dsimp only
      split
      · exact ⟨rfl, fun _ h => .inl h⟩
      · refine ⟨rfl, ?_⟩
        intro ch' h
        by_cases hch : ch' = ch
        · exact .inr hch
        · left
          intro hnone
          exact h ((Function.update_of_ne hch ..).trans hnone)

theorem noteRelay_socket {i : SocketInput} {r : Relay} :
    (noteRelay w (.socket i) r).interrupted = r.interrupted
      ∧ ∀ ch, (noteRelay w (.socket i) r).said ch ≠ [] → r.said ch ≠ []
        ∨ ∃ c, w.socket.conn = some c ∧ ch = c.script := by
  cases hs : heardSay w.socket i with
  | none =>
      rw [noteRelay_silent hs]
      exact ⟨rfl, fun _ h => .inl h⟩
  | some said =>
      obtain ⟨ch, line⟩ := said
      rw [noteRelay_line hs]
      refine ⟨noteLine_keeps.1, ?_⟩
      intro ch' h
      -- only the channel of the connection that is read has a new line
      rcases noteLine_keeps.2 ch' h with h | rfl
      · exact .inl h
      · right
        unfold heardSay at hs
        split at hs
        · rename_i c fb l hp
          cases hs
          exact ⟨c, by rw [hp]; rfl, rfl⟩
        · cases hs

/-- What a goal was sidetracked by stays on record. -/
theorem noteRelay_interrupted {r : Relay} (h : (noteRelay w a r).interrupted g = false) :
    r.interrupted g = false := by
  by_cases hs : ∃ i, a = .socket i
  · obtain ⟨i, rfl⟩ := hs
    rw [noteRelay_socket.1] at h
    exact h
  by_cases ht : ∃ g' i, a = .task g' i
  · obtain ⟨g', i, rfl⟩ := ht
    by_cases hg : g = g'
    · subst hg
      exact (noteRelay_own h).2.2
    · rw [(noteRelay_other hg).2.2.2] at h
      exact h
  · rw [noteRelay_others (fun i ha => hs ⟨i, ha⟩) fun g i ha => ht ⟨g, i, ha⟩] at h
    exact h

theorem unlost_step {x : World F × Relay} {t' : Task F} (hI : Lossless x.1 x.2)
    (hf : Fresh x.1) (hp : PendingAdmitted x.1)
    (hM : ∀ g t, x.1.task g = some t → Memory t) (hok : Drained cfg x a)
    (h : World.step cfg x.1 a = some w') (ht' : w'.task g = some t')
    (hint : (noteRelay x.1 a x.2).interrupted g = false) :
    Unlost w' (noteRelay x.1 a x.2) g t' := by
  have hbefore := noteRelay_interrupted hint
  by_cases hs : ∃ i, a = .socket i
  · obtain ⟨i, rfl⟩ := hs
    obtain ⟨s, p, -, rfl⟩ := World.step_socket h
    exact unlost_socket hI hok h ht' hbefore
  by_cases ht : ∃ g' i, a = .task g' i
  · obtain ⟨g', i, rfl⟩ := ht
    by_cases hg : g = g'
    · subst hg
      obtain ⟨hc, hr, -⟩ := noteRelay_own hint
      exact unlost_own hI hM hok h ht' hc hr hbefore
    · obtain ⟨hsaid, htold, hpub, -⟩ := @noteRelay_other F x.1 g g' i x.2 hg
      obtain ⟨u, u', -, -, -, rfl⟩ := World.step_task h
      simp only [Function.update_of_ne hg] at ht'
      refine (hI.unlost g t' ht' hbefore).same ?_ rfl (by rw [hsaid]) (by rw [htold]) hpub
      show (World.effect cfg x.1.dashboard.up x.1.shared g' u i).feedbackBox ⟨g, 0⟩ = _
      by_cases hfeed : ∃ m, i = .feedback (some m)
      · obtain ⟨m, rfl⟩ := hfeed
        exact Function.update_of_ne (fun he => hg (congrArg Chan.goal he)) ..
      · rw [effect_feedbackBox fun m he => hfeed ⟨m, he⟩]
  · -- nothing that lines go through is touched
    have hs : ∀ i, a ≠ .socket i := fun i ha => hs ⟨i, ha⟩
    have ht : ∀ g i, a ≠ .task g i := fun g i ha => ht ⟨g, i, ha⟩
    rw [noteRelay_others hs ht]
    have hquiet : ∀ t, Unlost x.1 x.2 g t → Unlost w' x.2 g t := fun t hU =>
      hU.same (by rw [feedbackBox_others h hs ht])
        (carried_of_socket (World.socket_of_ne h hs) _) rfl rfl rfl
    have hsilent : ¬ Started x.1 g → Unlost w' x.2 g t' := fun hn =>
      .of_silent (by_contra fun hne => hn (hI.said ⟨g, 0⟩ hne))
    cases task_origin hp h ht' with
    | same hsame => exact hquiet t' (hI.unlost g t' hsame hbefore)
    | moved t i ha => exact absurd ha (ht g i)
    | accepted command script uuid _ _ hg _ =>
        refine hsilent ?_
        rintro ⟨t, ht, -⟩
        rw [hf g hg.ge] at ht
        cases ht
    | spawned t _ _ ht hta _ =>
        refine hsilent ?_
        rintro ⟨u, hu, hne⟩
        rw [ht] at hu
        cases hu
        exact hne hta

theorem straight_step {x : World F × Relay} {t' : Task F} (hI : Lossless x.1 x.2)
    (hp : PendingAdmitted x.1) (h : World.step cfg x.1 a = some w') (ht' : w'.task g = some t')
    (hint : (noteRelay x.1 a x.2).interrupted g = false) : Straight t' := by
  have hbefore := noteRelay_interrupted hint
  cases task_origin hp h ht' with
  | same ht => exact hI.straight g t' ht hbefore
  | moved t i ha ht _ hm =>
      subst ha
      obtain ⟨hc, hr, -⟩ := noteRelay_own hint
      exact (hI.straight g t ht hbefore).move hm hc hr
  | accepted command script uuid _ _ _ he =>
      rw [he]
      exact ⟨rfl, rfl⟩
  | spawned t _ _ ht _ he =>
      rw [he]
      exact ⟨(hI.straight g t ht hbefore).1, rfl⟩

theorem paired_step {x : World F × Relay} (hI : Lossless x.1 x.2) (hok : Drained cfg x a)
    (h : World.step cfg x.1 a = some w') (c : Conn) (hc : w'.socket.conn = some c) :
    w'.socket.heldFeedback = some c.script := by
  by_cases hs : ∃ i, a = .socket i
  · obtain ⟨i, rfl⟩ := hs
    obtain ⟨open_, s, p, -, hm, rfl⟩ := step_socket_line h
    have hc : p.conn = some c := hc
    show p.heldFeedback = some c.script
    cases hm with
    | accept c' ch _ _ hb hfb _ hconn hheld =>
        -- here `Drained` says that the sender taken is that of the script that connects
        have hok : drained cfg x (.socket (.accept true)) = true := hok
        simp only [drained, hb, hfb] at hok
        rw [hconn] at hc
        cases hc
        rw [hheld, eq_of_beq hok]
    | verdict c' ch _ line _ hp => exact hI.paired c hc
    | say c' ch _ m hp =>
        cases hc
        have hpair := hI.paired c (by rw [hp]; rfl)
        rw [hp] at hpair
        exact hpair
    | relay c' ch m _ hconn hheld =>
        cases hc
        exact hheld.symm.trans (hI.paired c hconn)
    | other _ _ _ _ hsame =>
        rcases hsame with hnone | ⟨hconn, hheld⟩
        · rw [hnone] at hc
          cases hc
        · rw [hheld]
          exact hI.paired c (hconn ▸ hc)
  · rw [World.socket_of_ne h fun i ha => hs ⟨i, ha⟩] at hc ⊢
    exact hI.paired c hc

theorem lossless_step {x : World F × Relay} (hI : Lossless x.1 x.2) (hf : Fresh x.1)
    (hp : PendingAdmitted x.1) (hM : ∀ g t, x.1.task g = some t → Memory t)
    (hok : Drained cfg x a) (h : World.step cfg x.1 a = some w') :
    Lossless w' (noteRelay x.1 a x.2) where
  unlost _ _ ht' hint := unlost_step hI hf hp hM hok h ht' hint
  straight _ _ ht' hint := straight_step hI hp h ht' hint
  written ch hch := by
    rcases audible_step h ch hch with hch | ⟨g, t, rfl, ht, rfl⟩
    · exact (hI.written ch hch).step hf hp h
    · -- what is newly on its way was written by a task, which has left `admitted`
      obtain ⟨u, u', -, -, hm, rfl⟩ := World.step_task h
      exact ⟨u', Function.update_self .., Move.ne_admitted hm⟩
  said ch hne := by
    by_cases hs : ∃ i, a = .socket i
    · obtain ⟨i, rfl⟩ := hs
      -- what is newly said was said on a connection, whose script had been written
      rcases noteRelay_socket.2 ch hne with hne | ⟨c, hc, rfl⟩
      · exact (hI.said ch hne).step hf hp h
      · exact (hI.written c.script (conn_audible hc)).step hf hp h
    · refine (hI.said ch ?_).step hf hp h
      have hsaid : (noteRelay x.1 a x.2).said = x.2.said := by
        cases a with
        | socket i => exact absurd ⟨i, rfl⟩ hs
        | task g i => exact (noteRelay_other (Nat.succ_ne_self g)).1
        | _ => rfl
      rw [hsaid] at hne
      exact hne
  paired c hc := paired_step hI hok h c hc

section Reachable

variable [Zero F]

/-- The driver with the record of what its scripts have said. -/
abbrev RelayRun (cfg : Config F) (ok : World F × Relay → Action F → Prop) (x : World F × Relay) :
    Prop :=
  Lts.ReachableBy (Lts.recorded (World.step cfg) noteRelay) ok (World.init, {}) x

theorem lossless_init : Lossless (World.init : World F) {} where
  unlost _ _ ht := by cases ht
  straight _ _ ht := by cases ht
  written _ hch := by cases hch
  said _ hne := absurd rfl hne
  paired _ hc := by cases hc

/--
**No feedback is lost.** In every run whose steps are all `Drained`: a goal that has written
its terminal state and was neither cancelled nor resumed has by then published, in order, every
line of feedback its script sent before its verdict.
-/
theorem feedback_relayed {x : World F × Relay} (h : RelayRun cfg (Drained cfg) x) :
    Relayed x g := by
  have hrun : Run cfg (fun _ _ => True) x.1 := h.forget fun _ _ _ => trivial
  have hI : Lossless x.1 x.2 := by
    refine h.invariant (I := fun x => Lossless x.1 x.2) lossless_init ?_
    intro x a x' hr hI hok hs
    obtain ⟨hstep, hnote⟩ := Lts.recorded_eq_some.mp hs
    have hrun : Run cfg (fun _ _ => True) x.1 := hr.forget fun _ _ _ => trivial
    rw [hnote]
    exact lossless_step hI (fresh_reachable hrun) (pendingAdmitted_reachable hrun)
      (memory_reachable hrun) hok hstep
  intro t ht hpub hint htold
  refine (hI.unlost g t ht hint).left ?_ htold
  -- a goal that has published anything has left its attempt
  by_contra hin
  have hloop := looping_of_inAttempt ((Bool.not_eq_false _).mp hin)
  exact (memory_reachable hrun g t ht).toConsistent.not_looping hpub hloop

end Reachable

open Scenario

namespace Scenario

def handshakeLine : String := "Handshake complete, script should be running."

/-- A script that gives a reason and then its verdict. -/
def reasoned : List (Action Int) :=
  start ++ request "a" ++ launch 0 ++ shake ⟨0, 0⟩ "a"
    ++ [.socket (.line (some "force limit")), .socket .feedback, .socket (.line (some "error"))]

end Scenario

/-- The wait loop takes the verdict first: the reason is never published. -/
theorem not_feedback_relayed :
    ¬ ∀ x : World Int × Relay, RelayRun config (fun _ _ => True) x → Relayed x 0 := by
  intro h
  have hrun : (Lts.runBy (Lts.recorded (World.step config) noteRelay) (fun _ _ => True)
      (World.init, {}) (reasoned ++ [.task 0 (.goal (some false))]
        ++ fail 0 "aborted before reaching the goal" { requestState := .executing })).any
      (fun x => (x.1.task 0).any (fun t => t.published.isSome)
        && (!x.2.interrupted 0 && x.2.told ⟨0, 0⟩)
        && (x.2.said ⟨0, 0⟩ == ["force limit"] && (x.2.published 0).isEmpty)) = true := by
    decide
  obtain ⟨x, hx, hp⟩ := Lts.exists_of_runBy hrun
  obtain ⟨hp, hlost⟩ := Bool.and_eq_true_iff.mp hp
  obtain ⟨hend, hflags⟩ := Bool.and_eq_true_iff.mp hp
  obtain ⟨hint, htold⟩ := Bool.and_eq_true_iff.mp hflags
  obtain ⟨hsaid, hpub⟩ := Bool.and_eq_true_iff.mp hlost
  obtain ⟨t, ht, hdone⟩ := (Option.any_eq_true _ _).mp hend
  -- the goal ends with the message still in the mailbox
  have hsub := h x hx t ht hdone (by simpa using hint) htold
  rw [eq_of_beq hsaid, List.isEmpty_iff.mp hpub] at hsub
  cases hsub

/-- The same script with its mailbox emptied first. -/
theorem feedback_relayed_trace : ∃ x : World Int × Relay, RelayRun config (Drained config) x
    ∧ x.2.said ⟨0, 0⟩ = ["force limit"] ∧ Relayed x 0 := by
  have hrun : (Lts.runBy (Lts.recorded (World.step config) noteRelay) (Drained config)
      (World.init, {}) (reasoned ++ [.task 0 (.feedback (some handshakeLine)),
        .task 0 (.feedback (some "force limit")), .task 0 (.goal (some false))]
        ++ fail 0 "aborted before reaching the goal"
          { requestState := .executing, requestFeedback := "force limit" })).any
      (fun x => x.2.said ⟨0, 0⟩ == ["force limit"]) = true := by
    decide
  obtain ⟨x, hx, hp⟩ := Lts.exists_of_runBy hrun
  exact ⟨x, hx, eq_of_beq hp, feedback_relayed hx⟩

end UrRedisDriver.Proof
