import UrRedisDriver.World

/-!
# What a step can be

Each component's step function is taken apart here once, into a relation with one named
case for every effect it can have. The invariants are proved by cases on these relations
and never unfold a step function again.
-/

namespace UrRedisDriver

variable {F : Type}

/-! ## A goal's task -/

/-- On the way from a break out of the attempt loop to the teardown. -/
def Phase.publishing : Phase → Bool
  | .publishResult | .publishState | .publishCounter | .failing _ => true
  | _ => false

namespace Task

/-- The exits of the attempt loop: where they are taken and on what. -/
inductive Leaves : Phase → TaskInput → Exit → Prop
  | connect (e : String) : Leaves .connecting (.connect (.error e)) (.connectFailed e)
  | write (e : String) : Leaves .writing (.write (.error e)) (.writeFailed e)
  | handshake (r : HandshakeWait) : r ≠ .value true →
      Leaves .handshaking (.handshake r) .noHandshake
  | verdict (p : Phase) (v : Option Bool) : p = .waiting ∨ p = .cancelling ∨ p = .stopPending →
      Leaves p (.goal v) (.verdict v)
  | unqueued : Leaves .cancelling (.sendStop none) .stopUnanswered
  | answered (reply : DashboardReply) :
      Leaves .stopPending (.stopReply (some reply)) (.stopAnswered reply)
  | unanswered : Leaves .stopPending (.stopReply none) .stopUnanswered
  | refused (n : Nat) (reason : String) : Leaves .measuring (.measure n) (.notResumable reason)
  | unrendered (n : Nat) (e : String) : Leaves .measuring (.measure n) (.notRendered e)

/-- The steps that move the task on and change nothing else of it. -/
inductive Hops : Phase → TaskInput → Phase → Prop
  | connect : Hops .connecting (.connect (.ok ())) .installing
  | cancel : Hops .waiting .cancel .cancelling
  | resume : Hops .waiting .resume .measuring
  | claim : Hops .claiming .claim .restopping
  | unqueued : Hops .restopping (.sendStop none) .draining
  | stopped (r : Option DashboardReply) : Hops .restopPending (.stopReply r) .draining
  | drain (v : Option (Option Bool)) : Hops .draining (.drain v) .resetting
  | reset : Hops .resetting .reset .activating
  | teardown : Hops .teardown .teardown .done

/-- The Redis operations of the terminal publication, with the state they write if any. -/
inductive Publishes : Phase → Phase → Option ActionRequestState → Prop
  | result : Publishes .publishResult .publishState none
  | state : Publishes .publishState .publishCounter (some .succeeded)
  | counter : Publishes .publishCounter .teardown none
  | failing (step step' : FailStep) : Publishes (.failing step) (.failing step') none
  | failed (step : FailStep) : Publishes (.failing step) .teardown (some .failed)

theorem Publishes.publishing {p p' : Phase} {written : Option ActionRequestState}
    (h : Publishes p p' written) :
    p.publishing = true ∧ (p'.publishing = true ∨ p' = .teardown) := by
  cases h <;> simp [Phase.publishing]

/-- One step of `handle_request`, by its effect on the task. -/
inductive Move (t : Task F) : TaskInput → Task F → Prop
  | hop (i : TaskInput) (p : Phase) : Hops t.phase i p → Move t i { t with phase := p }
  | leave (i : TaskInput) (e : Exit) : Leaves t.phase i e → Move t i (t.leave e)
  | install : t.phase = .installing →
      Move t .install { t with phase := .writing, installed := true, lastInstall := t.attempt }
  | write : t.phase = .writing →
      Move t (.write (.ok ()))
        { t with phase := .handshaking, scripts := t.scripts + 1, lastScript := t.attempt }
  | handshake : t.phase = .handshaking →
      Move t (.handshake (.value true)) { t with phase := .waiting, feedbackOpen := true }
  | feedback (m : Option String) : t.phase = .waiting → t.feedbackOpen = true →
      Move t (.feedback m) { t with feedbackOpen := m.isSome }
  | stop (id : Nat) : t.phase = .cancelling →
      Move t (.sendStop (some id)) { t with phase := .stopPending, stopRequest := id }
  | restop (id : Nat) : t.phase = .restopping →
      Move t (.sendStop (some id)) { t with phase := .restopPending, stopRequest := id }
  | measure (n : Nat) (next : RobotCommand F × String) : t.phase = .measuring →
      Move t (.measure n) { t with phase := .claiming, next := some next }
  | activate (remaining : RobotCommand F) (nextScript : String) : t.phase = .activating →
      t.next = some (remaining, nextScript) →
      Move t .activate { t with
        phase := .connecting, attempt := t.attempt + 1, next := none
        command := remaining, script := nextScript }
  | publish (keys : RequestKeys) (p : Phase) (written : Option ActionRequestState) :
      Publishes t.phase p written →
      Move t (.redis keys) { t with phase := p, published := written.or t.published }

theorem redisOp_publish {t t' : Task F} {keys keys' : RequestKeys}
    (h : t.redisOp keys = some (keys', t')) : Move t (.redis keys) t' := by
  cases hp : t.phase with
  | publishResult =>
      simp only [redisOp, hp, Option.some.injEq, Prod.mk.injEq] at h
      obtain ⟨-, rfl⟩ := h
      exact .publish keys _ none (hp ▸ .result)
  | publishState =>
      simp only [redisOp, hp, Option.some.injEq, Prod.mk.injEq] at h
      obtain ⟨-, rfl⟩ := h
      exact .publish keys _ (some .succeeded) (hp ▸ .state)
  | publishCounter =>
      simp only [redisOp, hp, Option.some.injEq, Prod.mk.injEq] at h
      obtain ⟨-, rfl⟩ := h
      exact .publish keys _ none (hp ▸ .counter)
  | failing step =>
      simp only [redisOp, hp] at h
      -- the last of the operations of `fail_request` writes the terminal state
      split at h <;> simp only [Option.some.injEq, Prod.mk.injEq] at h <;> obtain ⟨-, rfl⟩ := h
      · exact .publish keys _ none (hp ▸ .failing _ _)
      · exact .publish keys _ (some .failed) (hp ▸ .failed _)
  | _ => simp [redisOp, hp] at h

theorem measure_move {render : RobotCommand F → Except String String} {t : Task F} {n : Nat}
    (hp : t.phase = .measuring) : Move t (.measure n) (t.measure render n) := by
  unfold measure
  split
  · exact .leave _ _ (by rw [hp]; exact .refused _ _)
  · split
    · exact .leave _ _ (by rw [hp]; exact .unrendered _ _)
    · exact .measure _ _ hp

/-- **Every step is one of the moves.** -/
theorem step_move {render : RobotCommand F → Except String String} {t t' : Task F}
    {i : TaskInput} (h : t.step render i = some t') : Move t i t' := by
  cases hp : t.phase with
  | connecting =>
      cases i with
      | connect r =>
          cases r with
          | ok _ =>
              simp only [step, hp] at h
              cases h
              exact .hop _ _ (hp ▸ .connect)
          | error e =>
              simp only [step, hp] at h
              cases h
              exact .leave _ _ (hp ▸ .connect e)
      | _ => simp [step, hp, redisOp] at h
  | installing =>
      cases i with
      | install =>
          simp only [step, hp] at h
          cases h
          exact .install hp
      | _ => simp [step, hp, redisOp] at h
  | writing =>
      cases i with
      | write r =>
          cases r with
          | ok _ =>
              simp only [step, hp] at h
              cases h
              exact .write hp
          | error e =>
              simp only [step, hp] at h
              cases h
              exact .leave _ _ (hp ▸ .write e)
      | _ => simp [step, hp, redisOp] at h
  | handshaking =>
      cases i with
      | handshake r =>
          by_cases hr : r = .value true
          · subst hr
            simp only [step, hp] at h
            cases h
            exact .handshake hp
          · simp only [step, hp] at h
            cases h
            exact .leave _ _ (hp ▸ .handshake r hr)
      | _ => simp [step, hp, redisOp] at h
  | waiting =>
      cases i with
      | goal v =>
          simp only [step, hp] at h
          cases h
          exact .leave _ _ (.verdict _ v (.inl hp))
      | feedback m =>
          simp only [step, hp] at h
          split at h
          · rename_i hf
            cases h
            simpa only [hp] using Move.feedback m hp hf
          · cases h
      | cancel =>
          simp only [step, hp] at h
          cases h
          exact .hop _ _ (hp ▸ .cancel)
      | resume =>
          simp only [step, hp] at h
          cases h
          exact .hop _ _ (hp ▸ .resume)
      | _ => simp [step, hp, redisOp] at h
  | cancelling =>
      cases i with
      | goal v =>
          simp only [step, hp] at h
          cases h
          exact .leave _ _ (.verdict _ v (.inr (.inl hp)))
      | sendStop r =>
          cases r with
          | none =>
              simp only [step, hp] at h
              cases h
              exact .leave _ _ (hp ▸ .unqueued)
          | some id =>
              simp only [step, hp] at h
              cases h
              exact .stop id hp
      | _ => simp [step, hp, redisOp] at h
  | stopPending =>
      cases i with
      | goal v =>
          simp only [step, hp] at h
          cases h
          exact .leave _ _ (.verdict _ v (.inr (.inr hp)))
      | stopReply r =>
          cases r with
          | none =>
              simp only [step, hp] at h
              cases h
              exact .leave _ _ (hp ▸ .unanswered)
          | some reply =>
              simp only [step, hp] at h
              cases h
              exact .leave _ _ (hp ▸ .answered reply)
      | _ => simp [step, hp, redisOp] at h
  | measuring =>
      cases i with
      | measure n =>
          simp only [step, hp] at h
          cases h
          exact measure_move hp
      | _ => simp [step, hp, redisOp] at h
  | claiming =>
      cases i with
      | claim =>
          simp only [step, hp] at h
          cases h
          exact .hop _ _ (hp ▸ .claim)
      | _ => simp [step, hp, redisOp] at h
  | restopping =>
      cases i with
      | sendStop r =>
          cases r with
          | none =>
              simp only [step, hp] at h
              cases h
              exact .hop _ _ (hp ▸ .unqueued)
          | some id =>
              simp only [step, hp] at h
              cases h
              exact .restop id hp
      | _ => simp [step, hp, redisOp] at h
  | restopPending =>
      cases i with
      | stopReply r =>
          simp only [step, hp] at h
          cases h
          exact .hop _ _ (hp ▸ .stopped r)
      | _ => simp [step, hp, redisOp] at h
  | draining =>
      cases i with
      | drain v =>
          simp only [step, hp] at h
          cases h
          exact .hop _ _ (hp ▸ .drain v)
      | _ => simp [step, hp, redisOp] at h
  | resetting =>
      cases i with
      | reset =>
          simp only [step, hp] at h
          cases h
          exact .hop _ _ (hp ▸ .reset)
      | _ => simp [step, hp, redisOp] at h
  | activating =>
      cases i with
      | activate =>
          simp only [step, hp] at h
          split at h
          · rename_i remaining nextScript hn
            cases h
            exact .activate remaining nextScript hp hn
          · cases h
      | _ => simp [step, hp, redisOp] at h
  | teardown =>
      cases i with
      | teardown =>
          simp only [step, hp] at h
          cases h
          exact .hop _ _ (hp ▸ .teardown)
      | _ => simp [step, hp, redisOp] at h
  | _ =>
      -- what is left is the ending, one Redis operation after the other
      cases i with
      | redis keys =>
          obtain ⟨⟨keys', t''⟩, hk, rfl⟩ := Option.map_eq_some_iff.mp
            (show (t.redisOp keys).map (·.2) = some t' by simpa only [step, hp] using h)
          exact redisOp_publish hk
      | _ => simp [step, hp] at h

end Task

/-! ## `socket_server` -/

namespace SocketServer

/-- One step of `socket_server`, by its effect on what is shared. -/
inductive Move (s : Shared F) (p : SocketPhase) : Shared F → SocketPhase → Prop
  | quiet (p' : SocketPhase) : p' = .stopped ∨ (p'.conn = p.conn
      ∧ p'.heldHandshake = p.heldHandshake ∧ p'.heldFeedback = p.heldFeedback) → Move s p s p'
  | accept (c : Conn) (rest : List Conn) (goalId : String) (handshake feedback : Chan) :
      p = .accepting → s.backlog = c :: rest → s.ds.handshakeSender = some handshake →
      s.ds.goalId = some goalId → s.ds.feedbackSender = some feedback →
      Move s p { s with backlog := rest, ds := { s.ds with handshakeSender := none } }
        (.greeting c goalId handshake feedback)
  | turnAway (c : Conn) (rest : List Conn) : p = .accepting → s.backlog = c :: rest →
      Move s p { s with backlog := rest } .accepting
  | echo (c : Conn) (goalId : String) (handshake feedback : Chan) (v : Bool) :
      p = .echoing c goalId handshake feedback →
      Move s p { s with handshakeBox := Function.update s.handshakeBox handshake (some v) }
        (.announcing c feedback)
  | feedback (c : Conn) (ch : Chan) (box : Chan → List String) :
      p.conn = some c → p.heldHandshake = none → p.heldFeedback = some ch →
      Move s p { s with feedbackBox := box } (.reading c ch)
  | ok (c : Conn) (ch : Chan) : p = .reading c ch →
      Move s p (s.resolveGoal true (.ok c.script)) p
  | error (c : Conn) (ch : Chan) : p = .reading c ch →
      Move s p (s.resolveGoal false (.error c.script)) p
  | waypoint (c : Conn) (ch : Chan) (n : Nat) : p = .reading c ch →
      Move s p { s with ds := { s.ds with waypointsCompleted := n } } p
  | close (c : Conn) (ch : Chan) : p = .reading c ch →
      Move s p ((s.resolveGoal false (.closed c.script)).clearGoal) .accepting

theorem sendFeedback_eq {s s' : Shared F} {open_ : Bool} {ch : Chan} {m : String}
    (h : sendFeedback s open_ ch m = some s') : ∃ box, s' = { s with feedbackBox := box } := by
  unfold sendFeedback at h
  split at h
  · split at h
    · exact ⟨_, (Option.some.inj h).symm⟩
    · cases h
  · exact ⟨s.feedbackBox, (Option.some.inj h).symm⟩

theorem readLine_move (s : Shared F) (c : Conn) (ch : Chan) (line : String) :
    Move s (.reading c ch) (readLine s c ch line).1 (readLine s c ch line).2 := by
  unfold readLine
  split
  · exact .ok c ch rfl
  · exact .error c ch rfl
  · split
    · exact .waypoint c ch _ rfl
    · exact .quiet _ (.inl rfl)
  · exact .quiet _ (.inr ⟨rfl, rfl, rfl⟩)
  · exact .quiet _ (.inr ⟨rfl, rfl, rfl⟩)

theorem step_move {open_ : Bool} {s s' : Shared F} {p p' : SocketPhase} {i : SocketInput}
    (h : step open_ s p i = some (s', p')) : Move s p s' p' := by
  cases p with
  | starting =>
      cases i with
      | address =>
          simp only [step] at h
          split at h <;> cases h
          exact .quiet _ (.inr ⟨rfl, rfl, rfl⟩)
      | _ => simp [step] at h
  | binding =>
      cases i with
      | bind ok =>
          simp only [step] at h
          cases h
          cases ok
          · exact .quiet _ (.inl rfl)
          · exact .quiet _ (.inr ⟨rfl, rfl, rfl⟩)
      | _ => simp [step] at h
  | accepting =>
      cases i with
      | accept ok =>
          cases ok with
          | false =>
              simp only [step] at h
              cases h
              exact .quiet _ (.inr ⟨rfl, rfl, rfl⟩)
          | true =>
              simp only [step] at h
              split at h
              · cases h
              · rename_i c rest hb
                split at h <;> cases h
                · rename_i hs gid fb h1 h2 h3
                  exact .accept c rest gid hs fb rfl hb h1 h2 h3
                · exact .turnAway c rest rfl hb
      | _ => simp [step] at h
  | greeting c goalId handshake feedback =>
      cases i with
      | greet ok =>
          simp only [step] at h
          cases h
          cases ok
          · exact .quiet _ (.inl rfl)
          · exact .quiet _ (.inr ⟨rfl, rfl, rfl⟩)
      | _ => simp [step] at h
  | echoing c goalId handshake feedback =>
      cases i with
      | line l =>
          simp only [step] at h
          cases h
          exact .echo c goalId handshake feedback _ rfl
      | _ => simp [step] at h
  | announcing c feedback =>
      cases i with
      | feedback =>
          simp only [step] at h
          obtain ⟨s₁, hf, he⟩ := Option.map_eq_some_iff.mp h
          cases he
          obtain ⟨box, rfl⟩ := sendFeedback_eq hf
          exact .feedback c feedback box rfl rfl rfl
      | _ => simp [step] at h
  | reading c feedback =>
      cases i with
      | line l =>
          cases l with
          | some l =>
              simp only [step, Option.some.injEq] at h
              have hm := readLine_move s c feedback l
              rwa [h] at hm
          | none =>
              simp only [step] at h
              cases h
              exact .close c feedback rfl
      | _ => simp [step] at h
  | relaying c feedback m =>
      cases i with
      | feedback =>
          simp only [step] at h
          obtain ⟨s₁, hf, he⟩ := Option.map_eq_some_iff.mp h
          cases he
          obtain ⟨box, rfl⟩ := sendFeedback_eq hf
          exact .feedback c feedback box rfl rfl rfl
      | _ => simp [step] at h
  | stopped => simp [step] at h

end SocketServer

/-! ## `realtime_reader` -/

namespace RealtimeReader

/-- One step of `realtime_reader`, by its effect on what is shared. -/
inductive Move (s : Shared F) (p : RtPhase) : Shared F → RtPhase → Prop
  | link (addr connected : Bool) (p' : RtPhase) :
      Move s p { s with localAddr := addr, ds := { s.ds with connected := connected } } p'
  | frame (f : RtFrame F) (p' : RtPhase) : Move s p { s with ds := store s.ds f } p'
  | abort : p = .aborting →
      Move s p ((s.resolveGoal false .safetyStop).clearGoal) .reading

theorem step_move {s s' : Shared F} {p p' : RtPhase} {i : RtInput F}
    (h : step s p i = some (s', p')) : Move s p s' p' := by
  cases p <;> cases i <;> simp only [step] at h <;> cases h
  case starting.connect => exact .link true true _
  case reading.frame f => exact .frame f _
  case reading.skip => exact .link s.localAddr s.ds.connected _
  case reading.fail => exact .link s.localAddr false _
  case reconnecting.connect => exact .link s.localAddr true _
  case aborting.abort => exact .abort rfl

end RealtimeReader

/-! ## The dashboard task -/

namespace DashPhase

/-- What every step of the dashboard task keeps, apart from taking and answering a command. -/
structure Frame (ds : DriverState F) (p : DashPhase) (ds' : DriverState F) (p' : DashPhase) :
    Prop where
  /-- It writes seven fields of `DriverState` and no other. -/
  writes : ∃ dc rc ps pr om mp id, ds' = { ds with
    dashboardConnected := dc, remoteControl := rc, programState := ps, programRunning := pr
    operationalMode := om, motionPaused := mp, identity := id }
  /-- It serves no command it was not serving. -/
  serves : ∀ r, p'.serves = some r → p.serves = some r
  /-- It keeps the command it has taken. -/
  holds : p'.holds = p.holds
  /-- It clones no resume sender but the one in `DriverState`. -/
  resumeClone : ∀ g, p'.resumeClone = some g → p.resumeClone = some g ∨ ds.resumeSender = some g

/-- A step that leaves `DriverState` alone and serves nothing afterwards. -/
theorem Frame.of_idle {ds : DriverState F} {p p' : DashPhase} (hs : p'.serves = none)
    (hh : p'.holds = p.holds) (hc : p'.resumeClone = none) : Frame ds p ds p' where
  holds := hh
  writes := ⟨_, _, _, _, _, _, _, rfl⟩
  serves r h := by rw [hs] at h; cases h
  resumeClone g h := by rw [hc] at h; cases h

/-- A step that leaves `DriverState` alone and goes on with the same command. -/
theorem Frame.of_same {ds : DriverState F} {p p' : DashPhase} (hs : p'.serves = p.serves)
    (hh : p'.holds = p.holds) (hc : p'.resumeClone = p.resumeClone) : Frame ds p ds p' where
  holds := hh
  writes := ⟨_, _, _, _, _, _, _, rfl⟩
  serves _ h := hs ▸ h
  resumeClone _ h := .inl (hc ▸ h)

/-- Whatever a reply leads to is about the same request. -/
theorem afterRequest_frame {ds : DriverState F} (r : Request) (sender : Option Nat)
    (play : String) (reply : DashboardReply) (late : Bool) (t : Trip) :
    Frame ds (.awaiting (.request r sender play) t) ds
      (afterRequest r sender play reply late t) where
  writes := ⟨_, _, _, _, _, _, _, rfl⟩
  serves r' h := by
    cases t <;> simp only [afterRequest] at h <;> (repeat' split at h) <;>
      first | exact h | cases h
  holds := by
    cases t <;> simp only [afterRequest] <;> (repeat' split) <;> rfl
  resumeClone g h := by
    cases t <;> simp only [afterRequest] at h <;> (repeat' split at h) <;>
      first | exact .inl h | cases h

theorem after_frame {ds : DriverState F} (j : Job) (t : Trip) (reply : DashboardReply)
    (late : Bool) : Frame ds (.awaiting j t) ds (after j t reply late) := by
  cases j with
  | identity i => cases t <;> exact .of_idle rfl rfl rfl
  | keepalive s => cases t <;> exact .of_idle rfl rfl rfl
  | request r sender play => exact afterRequest_frame r sender play reply late t

theorem failed_frame {ds : DriverState F} {p : DashPhase} (e : String) (j : Job) (t : Trip)
    (hp : p = .sending j t ∨ p = .awaiting j t) : Frame ds p ds (failed e j) := by
  rcases hp with rfl | rfl <;> cases j <;> exact .of_idle rfl rfl rfl

theorem step_frame {ds ds' : DriverState F} {p p' : DashPhase} {i : DashInput}
    (h : step ds p i = some (ds', p')) (ht : ∀ r, i ≠ .take r) (ha : i ≠ .answer) :
    Frame ds p ds' p' := by
  cases p with
  | connecting =>
      cases i with
      | connect => cases h; exact .of_idle rfl rfl rfl
      | _ => simp [step] at h
  | greeting =>
      cases i with
      | greet ok => cases h; cases ok <;> exact .of_idle rfl rfl rfl
      | _ => simp [step] at h
  | identified id =>
      cases i with
      | lock late => cases h; exact ⟨⟨_, _, _, _, _, _, _, rfl⟩, nofun, rfl, nofun⟩
      | _ => simp [step] at h
  | serving =>
      cases i with
      | take r => exact absurd rfl (ht r)
      | tick => cases h; exact .of_idle rfl rfl rfl
      | _ => simp [step] at h
  | sending j t =>
      cases i with
      | write r =>
          cases r with
          | ok u =>
              cases h
              cases j with
              | request r sender play =>
                  -- the sender of a goal stays with its request, and is dropped with a refused one
                  refine ⟨⟨_, _, _, _, _, _, _, rfl⟩, ?_, rfl, fun g hg => .inl hg⟩
                  cases t <;> first | exact fun r' hr => hr | exact nofun
              | _ => exact .of_same rfl rfl rfl
          | error e => cases h; exact failed_frame e j t (.inl rfl)
      | _ => simp [step] at h
  | awaiting j t =>
      cases i with
      | reply line late =>
          cases line with
          | ok line => cases h; exact after_frame j t _ late
          | error e => cases h; exact failed_frame e j t (.inr rfl)
      | _ => simp [step] at h
  | reading r =>
      cases i with
      | lock late =>
          simp only [step] at h
          split at h
          · split at h <;> cases h
            · exact ⟨⟨_, _, _, _, _, _, _, rfl⟩, fun r' hr => hr, rfl, fun g hg => .inr hg⟩
            · exact .of_idle rfl rfl rfl
          · split at h <;> cases h
            · exact .of_same rfl rfl rfl
            · exact .of_idle rfl rfl rfl
      | _ => simp [step] at h
  | latching r last =>
      cases i with
      | lock late => cases h; exact ⟨⟨_, _, _, _, _, _, _, rfl⟩, nofun, rfl, nofun⟩
      | _ => simp [step] at h
  | releasing r sender play resumed =>
      cases i with
      | lock late =>
          cases h
          refine ⟨⟨_, _, _, _, _, _, _, rfl⟩, ?_, ?_, ?_⟩
          · cases resumed <;> cases sender <;> nofun
          · cases resumed <;> cases sender <;> rfl
          · intro g hg
            cases resumed <;> cases sender <;> first | exact .inl hg | cases hg
      | _ => simp [step] at h
  | signalling r g =>
      cases i with
      | signal v => cases v <;> cases h <;> exact .of_idle rfl rfl rfl
      | _ => simp [step] at h
  | confirming r =>
      cases i with
      | lock late =>
          simp only [step] at h
          split at h
          · cases h; exact .of_idle rfl rfl rfl
          · split at h <;> cases h <;> exact .of_idle rfl rfl rfl
      | _ => simp [step] at h
  | answering r result =>
      cases i with
      | answer => exact absurd rfl ha
      | _ => cases result <;> simp [step] at h
  | polled s =>
      cases i with
      | lock late => cases h; exact ⟨⟨_, _, _, _, _, _, _, rfl⟩, nofun, rfl, nofun⟩
      | _ => simp [step] at h
  | dropped =>
      cases i with
      | lock late => cases h; exact ⟨⟨_, _, _, _, _, _, _, rfl⟩, nofun, rfl, nofun⟩
      | _ => simp [step] at h

end DashPhase

/-! ## The robot and `dashboard_server` -/

theorem World.robotStep_frame {s s' : Shared F} {i : RobotEvent} (h : robotStep s i = some s') :
    ∃ backlog running, s' = { s with backlog := backlog, running := running } := by
  cases i <;> simp only [robotStep] at h <;> split at h <;> cases h
  · exact ⟨_, s.running, rfl⟩
  · exact ⟨s.backlog, _, rfl⟩

/-- The reply channel `dashboard_server` is waiting on. -/
def ServerPhase.awaits : ServerPhase → Option Nat
  | .waiting id _ => some id
  | _ => none

namespace DashboardServer

/-- One step of `dashboard_server`, by its effect on what is shared. -/
inductive Move (up : Bool) (s : Shared F) (p : ServerPhase) :
    ServerInput → Shared F → ServerPhase → Prop
  | submit (cmd : DashboardCommand) : p = .submitting cmd →
      Move up s p .submit (s.submit cmd .server up) (.waiting s.nextRequest cmd)
  | reply (id : Nat) (p' : ServerPhase) : p.awaits = some id → (s.reply id).isSome = true →
      p'.awaits = none → Move up s p .reply s p'
  | timeout (id : Nat) (p' : ServerPhase) : p.awaits = some id → p'.awaits = none →
      Move up s p .timeout s p'
  | other (i : ServerInput) (keys : RequestKeys) (p' : ServerPhase) : p.awaits = none →
      p'.awaits = none → Move up s p i { s with keys := keys } p'

theorem step_move {up : Bool} {s s' : Shared F} {p p' : ServerPhase} {i : ServerInput}
    (h : step up s p i = some (s', p')) : Move up s p i s' p' := by
  cases p with
  | idle =>
      cases i with
      | tick =>
          simp only [step] at h
          split at h <;> cases h <;> exact .other _ s.keys _ rfl rfl
      | _ => simp [step] at h
  | consuming state name arg =>
      cases i with
      | redis =>
          simp only [step, Option.some.injEq, Prod.mk.injEq] at h
          obtain ⟨rfl, rfl⟩ := h
          refine .other _ _ _ rfl ?_
          split
          · split <;> rfl
          · rfl
      | _ => simp [step] at h
  | starting cmd =>
      cases i with
      | redis => cases h; exact .other _ _ _ rfl rfl
      | _ => simp [step] at h
  | submitting cmd =>
      cases i with
      | submit =>
          simp only [step] at h
          split at h <;> cases h
          exact .submit cmd rfl
      | _ => simp [step] at h
  | waiting id cmd =>
      cases i with
      | reply =>
          simp only [step] at h
          split at h <;> cases h
          rename_i r hr
          exact .reply id _ rfl (by rw [hr]; rfl) rfl
      | timeout =>
          simp only [step] at h
          split at h <;> cases h
          exact .timeout id _ rfl rfl
      | _ => simp [step] at h
  | finishing success response =>
      cases i with
      | redis => cases h; exact .other _ _ _ rfl rfl
      | _ => simp [step] at h
  | closing success =>
      cases i with
      | redis => cases h; exact .other _ _ _ rfl rfl
      | _ => simp [step] at h

/-- It touches the keys and the dashboard channel, and nothing else. -/
theorem Move.frame {up : Bool} {s s' : Shared F} {p p' : ServerPhase} {i : ServerInput}
    (h : Move up s p i s' p') :
    ∃ keys queue n sent,
      s' = { s with keys := keys, queue := queue, nextRequest := n, sent := sent } := by
  cases h with
  | submit cmd _ => exact ⟨s.keys, _, _, _, rfl⟩
  | reply => exact ⟨s.keys, s.queue, s.nextRequest, s.sent, rfl⟩
  | timeout => exact ⟨s.keys, s.queue, s.nextRequest, s.sent, rfl⟩
  | other _ keys => exact ⟨keys, s.queue, s.nextRequest, s.sent, rfl⟩

end DashboardServer

/-! ## The whole driver -/

/-- The goal `command_server` has accepted and not spawned yet. -/
def CommandPhase.pending : CommandPhase F → Option Nat
  | .announcing g _ | .storing g _ => some g
  | _ => none

/-- Neither of the two inputs on which `command_server` touches a goal's senders. -/
def CommandInput.plain : CommandInput F → Bool
  | .cancel | .store => false
  | _ => true

namespace World

/-- One step of `command_server`, by its effect on the driver. -/
inductive CommandMove (w : World F) : CommandInput F → World F → Prop
  | accept (command : RobotCommand F) (script uuid : String) :
      w.command = .checking command script → CommandServer.rejection w.shared = none →
      CommandMove w (.admission uuid) { w with
        command := .announcing w.goals command
        task := Function.update w.task w.goals (some (Task.accepted uuid script command))
        goals := w.goals + 1 }
  | store (g : Nat) (command : RobotCommand F) : w.command = .storing g command →
      CommandMove w .store { w with
        shared := CommandServer.storeGoal w.shared g command
        command := .idle
        task := Function.update w.task g ((w.task g).map Task.spawn) }
  | cancel (p : CommandPhase F) : w.command.pending = none → p.pending = none →
      CommandMove w .cancel { w with
        shared := CommandServer.deliverCancel w.shared
        command := p }
  | other (i : CommandInput F) (keys : RequestKeys) (p : CommandPhase F) :
      i.plain = true → p.pending = w.command.pending →
      (∀ uuid, i = .admission uuid → CommandServer.rejection w.shared ≠ none) →
      CommandMove w i { w with shared := { w.shared with keys := keys }, command := p }

/-- One step of the dashboard task, by its effect on the driver. -/
inductive DashboardMove (w : World F) : DashInput → World F → Prop
  | take (r : Request) (rest : List Request) : w.dashboard = .serving →
      w.shared.queue = r :: rest →
      DashboardMove w (.take r) { w with
        shared := { w.shared with queue := rest }
        dashboard := DashPhase.start r }
  | signal (r : Request) (g : Nat) (result : Except String DashboardReply) :
      w.dashboard = .signalling r g → w.alive g = true →
      DashboardMove w (.signal (.ok ())) { w with
        shared := { w.shared with
          resumeBox := Function.update w.shared.resumeBox g true
          resumeSignalled := Function.update w.shared.resumeSignalled g true }
        dashboard := .answering r result }
  | answer (r : Request) (result : Except String DashboardReply) (p : DashPhase) :
      w.dashboard = .answering r result → p = .serving ∨ p = .dropped →
      DashboardMove w .answer { w with
        shared := { w.shared with
          reply := Function.update w.shared.reply r.id
            (some (DashPhase.answer w.shared.ds r result))
          stopAcked := acknowledge w.shared.stopAcked r (DashPhase.answer w.shared.ds r result) }
        dashboard := p }
  | other (i : DashInput) (ds : DriverState F) (p : DashPhase) :
      DashPhase.Frame w.shared.ds w.dashboard ds p →
      DashboardMove w i { w with shared := { w.shared with ds := ds }, dashboard := p }

variable {cfg : Config F} {w w' : World F}

theorem step_running {a : Action F} (h : World.step cfg w a = some w') : w.socket ≠ .stopped := by
  intro hs
  simp [World.step, hs] at h

theorem step_client {i : ClientWrite} (h : World.step cfg w (.client i) = some w') :
    w' = { w with shared := { w.shared with keys := clientStep w.shared.keys i } } := by
  have hr := step_running h
  simp only [World.step, if_neg hr] at h
  exact (Option.some.inj h).symm

theorem step_robot {i : RobotEvent} (h : World.step cfg w (.robot i) = some w') :
    ∃ s, robotStep w.shared i = some s ∧ w' = { w with shared := s } := by
  have hr := step_running h
  simp only [World.step, if_neg hr] at h
  obtain ⟨s, hs, rfl⟩ := Option.map_eq_some_iff.mp h
  exact ⟨s, hs, rfl⟩

/-- A goal's task takes a step it is ready for, and that has its effect. -/
theorem step_task_eq {g : Nat} {i : TaskInput} (h : World.step cfg w (.task g i) = some w') :
    ∃ t t', w.task g = some t ∧ w.ready g t i = true ∧ t.step cfg.render i = some t'
      ∧ w' = { w with
          shared := effect cfg w.dashboard.up w.shared g t i
          task := Function.update w.task g (some t') } := by
  have hr := step_running h
  simp only [World.step, if_neg hr, taskStep] at h
  split at h
  · cases h
  · rename_i t ht
    split at h
    · rename_i hready
      obtain ⟨t', hs, rfl⟩ := Option.map_eq_some_iff.mp h
      exact ⟨t, t', ht, hready, hs, rfl⟩
    · cases h

theorem step_task {g : Nat} {i : TaskInput} (h : World.step cfg w (.task g i) = some w') :
    ∃ t t', w.task g = some t ∧ w.ready g t i = true ∧ Task.Move t i t'
      ∧ w' = { w with
          shared := effect cfg w.dashboard.up w.shared g t i
          task := Function.update w.task g (some t') } := by
  obtain ⟨t, t', ht, hready, hs, rfl⟩ := step_task_eq h
  exact ⟨t, t', ht, hready, Task.step_move hs, rfl⟩

/-! A step of one of the driver's own tasks is a step of that task on what is shared. -/

/-- `socket_server` finds the mailbox it sends to open or closed. -/
theorem step_socket_eq {i : SocketInput} (h : World.step cfg w (.socket i) = some w') :
    ∃ open_ s p, (∀ ch, w.socket.heldFeedback = some ch → open_ = w.feedbackOpen ch)
      ∧ SocketServer.step open_ w.shared w.socket i = some (s, p)
      ∧ w' = { w with shared := s, socket := p } := by
  have hr := step_running h
  simp only [World.step, if_neg hr] at h
  obtain ⟨⟨s, p⟩, hs, rfl⟩ := Option.map_eq_some_iff.mp h
  refine ⟨_, s, p, ?_, hs, rfl⟩
  intro ch hch
  rw [hch]

theorem step_socket {i : SocketInput} (h : World.step cfg w (.socket i) = some w') :
    ∃ s p, SocketServer.Move w.shared w.socket s p
      ∧ w' = { w with shared := s, socket := p } := by
  obtain ⟨open_, s, p, -, hs, rfl⟩ := step_socket_eq h
  exact ⟨s, p, SocketServer.step_move hs, rfl⟩

theorem step_realtime_eq {i : RtInput F} (h : World.step cfg w (.realtime i) = some w') :
    ∃ s p, RealtimeReader.step w.shared w.realtime i = some (s, p)
      ∧ w' = { w with shared := s, realtime := p } := by
  have hr := step_running h
  simp only [World.step, if_neg hr] at h
  obtain ⟨⟨s, p⟩, hs, rfl⟩ := Option.map_eq_some_iff.mp h
  exact ⟨s, p, hs, rfl⟩

theorem step_realtime {i : RtInput F} (h : World.step cfg w (.realtime i) = some w') :
    ∃ s p, RealtimeReader.Move w.shared w.realtime s p
      ∧ w' = { w with shared := s, realtime := p } := by
  obtain ⟨s, p, hs, rfl⟩ := step_realtime_eq h
  exact ⟨s, p, RealtimeReader.step_move hs, rfl⟩

theorem step_server_eq {i : ServerInput} (h : World.step cfg w (.server i) = some w') :
    ∃ s p, DashboardServer.step w.dashboard.up w.shared w.server i = some (s, p)
      ∧ w' = { w with shared := s, server := p } := by
  have hr := step_running h
  simp only [World.step, if_neg hr] at h
  obtain ⟨⟨s, p⟩, hs, rfl⟩ := Option.map_eq_some_iff.mp h
  exact ⟨s, p, hs, rfl⟩

theorem step_server {i : ServerInput} (h : World.step cfg w (.server i) = some w') :
    ∃ s p, DashboardServer.Move w.dashboard.up w.shared w.server i s p
      ∧ w' = { w with shared := s, server := p } := by
  obtain ⟨s, p, hs, rfl⟩ := step_server_eq h
  exact ⟨s, p, DashboardServer.step_move hs, rfl⟩

/-- Of `command_server` this is what is shared; it also adds and spawns goals. -/
theorem step_command_eq {i : CommandInput F} (h : World.step cfg w (.command i) = some w') :
    ∃ s p, CommandServer.step w.goals w.shared w.command i = some (s, p) ∧ w'.shared = s
      ∧ w'.command = p := by
  have hr := step_running h
  simp only [World.step, if_neg hr, commandStep] at h
  obtain ⟨⟨s, p⟩, hs, rfl⟩ := Option.map_eq_some_iff.mp h
  refine ⟨s, p, hs, ?_, ?_⟩
  · dsimp only
    split <;> rfl
  · dsimp only
    split <;> rfl

theorem step_command {i : CommandInput F} (h : World.step cfg w (.command i) = some w') :
    CommandMove w i w' := by
  have hr := step_running h
  simp only [World.step, if_neg hr, commandStep] at h
  obtain ⟨⟨s, p⟩, hs, rfl⟩ := Option.map_eq_some_iff.mp h
  cases hc : w.command with
  | idle =>
      cases i with
      | tick =>
          simp only [hc, CommandServer.step] at hs
          split at hs
          · cases hs
            exact .other _ w.shared.keys _ rfl (hc ▸ rfl) nofun
          · split at hs <;> cases hs <;> exact .other _ w.shared.keys _ rfl (hc ▸ rfl) nofun
      | _ => simp [hc, CommandServer.step] at hs
  | clearing triggered state =>
      cases i with
      | redis =>
          simp only [hc, CommandServer.step] at hs
          cases hs
          exact .other _ _ _ rfl (hc ▸ rfl) nofun
      | _ => simp [hc, CommandServer.step] at hs
  | cancelling triggered state =>
      cases i with
      | cancel =>
          simp only [hc, CommandServer.step] at hs
          cases hs
          exact .cancel _ (hc ▸ rfl) (by cases triggered <;> rfl)
      | _ => simp [hc, CommandServer.step] at hs
  | consuming state =>
      cases i with
      | redis =>
          simp only [hc, CommandServer.step] at hs
          cases hs
          exact .other _ _ _ rfl (by rw [hc]; split <;> rfl) nofun
      | _ => simp [hc, CommandServer.step] at hs
  | preparing =>
      cases i with
      | prepare r =>
          cases r with
          | error reason =>
              simp only [hc, CommandServer.step] at hs
              cases hs
              exact .other _ w.shared.keys _ rfl (hc ▸ rfl) nofun
          | ok r =>
              simp only [hc, CommandServer.step] at hs
              cases hs
              exact .other _ w.shared.keys _ rfl (hc ▸ rfl) nofun
      | _ => simp [hc, CommandServer.step] at hs
  | checking command script =>
      cases i with
      | admission uuid =>
          simp only [hc, CommandServer.step] at hs
          split at hs <;> cases hs
          · -- turned away: by the rejection, which was there
            rename_i reason hn
            exact .other _ w.shared.keys _ rfl (hc ▸ rfl) fun _ _ => by rw [hn]; exact nofun
          · rename_i hn
            exact .accept command script uuid hc hn
      | _ => simp [hc, CommandServer.step] at hs
  | announcing g command =>
      cases i with
      | redis =>
          simp only [hc, CommandServer.step] at hs
          cases hs
          exact .other _ _ _ rfl (hc ▸ rfl) nofun
      | _ => simp [hc, CommandServer.step] at hs
  | storing g command =>
      cases i with
      | store =>
          simp only [hc, CommandServer.step] at hs
          cases hs
          exact .store g command hc
      | _ => simp [hc, CommandServer.step] at hs
  | failing reason step =>
      cases i with
      | redis =>
          simp only [hc, CommandServer.step] at hs
          split at hs <;> cases hs <;> exact .other _ _ _ rfl (hc ▸ rfl) nofun
      | _ => simp [hc, CommandServer.step] at hs

/-- What the dashboard task does to the channels, and its step on the state. -/
theorem step_dashboard_eq {i : DashInput} (h : World.step cfg w (.dashboard i) = some w') :
    ∃ s ds p, dashboardEffect w i = some s
      ∧ DashPhase.step w.shared.ds w.dashboard i = some (ds, p)
      ∧ w' = { w with shared := { s with ds := ds }, dashboard := p } := by
  have hr := step_running h
  simp only [World.step, if_neg hr, dashboardStep] at h
  split at h
  · rename_i s ds p he hp
    exact ⟨s, ds, p, he, hp, (Option.some.inj h).symm⟩
  · cases h

theorem step_dashboard {i : DashInput} (h : World.step cfg w (.dashboard i) = some w') :
    DashboardMove w i w' := by
  obtain ⟨s, ds, p, he, hp, rfl⟩ := step_dashboard_eq h
  cases hd : w.dashboard with
  | serving =>
      rw [hd] at hp
      cases i with
      | take r =>
          simp only [dashboardEffect, hd] at he
          split at he
          · rename_i r' rest hq
            split at he <;> cases he
            rename_i hrr
            subst hrr
            cases hp
            exact .take r' rest hd hq
          · cases he
      | tick =>
          simp only [dashboardEffect, hd] at he
          cases he
          exact .other _ _ _ (hd ▸ DashPhase.step_frame hp nofun nofun)
      | _ => simp [DashPhase.step] at hp
  | signalling r g =>
      rw [hd] at hp
      cases i with
      | signal v =>
          cases v with
          | ok u =>
              simp only [dashboardEffect, hd] at he
              split at he <;> cases he
              rename_i ha
              cases hp
              exact .signal r g _ hd (by simpa using And.left (Bool.and_eq_true_iff.mp ha))
          | error e =>
              simp only [dashboardEffect, hd] at he
              split at he <;> cases he
              exact .other _ _ _ (hd ▸ DashPhase.step_frame hp nofun nofun)
      | _ => simp [DashPhase.step] at hp
  | answering r result =>
      rw [hd] at hp
      cases i with
      | answer =>
          simp only [dashboardEffect, hd] at he
          cases he
          cases result with
          | ok reply => cases hp; exact .answer r _ _ hd (.inl rfl)
          | error e => cases hp; exact .answer r _ _ hd (.inr rfl)
      | _ => cases result <;> simp [DashPhase.step] at hp
  | _ =>
      -- everywhere else the task talks to the controller and `DriverState` only
      have ht : ∀ r, i ≠ .take r := by
        rintro r rfl
        rw [hd] at hp
        simp [DashPhase.step] at hp
      have ha : i ≠ .answer := by
        rintro rfl
        rw [hd] at hp
        simp [DashPhase.step] at hp
      simp only [dashboardEffect, hd] at he
      cases he
      exact .other _ _ _ (DashPhase.step_frame hp ht ha)

/-! ## Whose phase a step leaves alone -/

variable {a : Action F}

theorem dashboard_of_ne (h : World.step cfg w a = some w') (ha : ∀ i, a ≠ .dashboard i) :
    w'.dashboard = w.dashboard := by
  cases a with
  | client i => rw [step_client h]
  | robot i => obtain ⟨s, -, rfl⟩ := step_robot h; rfl
  | command i => cases step_command h <;> rfl
  | task g i => obtain ⟨t, t', -, -, -, rfl⟩ := step_task h; rfl
  | socket i => obtain ⟨s, p, -, rfl⟩ := step_socket h; rfl
  | realtime i => obtain ⟨s, p, -, rfl⟩ := step_realtime h; rfl
  | dashboard i => exact absurd rfl (ha i)
  | server i => obtain ⟨s, p, -, rfl⟩ := step_server h; rfl

theorem socket_of_ne (h : World.step cfg w a = some w') (ha : ∀ i, a ≠ .socket i) :
    w'.socket = w.socket := by
  cases a with
  | client i => rw [step_client h]
  | robot i => obtain ⟨s, -, rfl⟩ := step_robot h; rfl
  | command i => cases step_command h <;> rfl
  | task g i => obtain ⟨t, t', -, -, -, rfl⟩ := step_task h; rfl
  | socket i => exact absurd rfl (ha i)
  | realtime i => obtain ⟨s, p, -, rfl⟩ := step_realtime h; rfl
  | dashboard i => cases step_dashboard h <;> rfl
  | server i => obtain ⟨s, p, -, rfl⟩ := step_server h; rfl

theorem server_of_ne (h : World.step cfg w a = some w') (ha : ∀ i, a ≠ .server i) :
    w'.server = w.server := by
  cases a with
  | client i => rw [step_client h]
  | robot i => obtain ⟨s, -, rfl⟩ := step_robot h; rfl
  | command i => cases step_command h <;> rfl
  | task g i => obtain ⟨t, t', -, -, -, rfl⟩ := step_task h; rfl
  | socket i => obtain ⟨s, p, -, rfl⟩ := step_socket h; rfl
  | realtime i => obtain ⟨s, p, -, rfl⟩ := step_realtime h; rfl
  | dashboard i => cases step_dashboard h <;> rfl
  | server i => exact absurd rfl (ha i)

/-! ## What comes from outside the request path -/

/-- A step of the client, of the robot or of `dashboard_server`. -/
def outside : Action F → Bool
  | .client _ | .robot _ | .server _ => true
  | _ => false

/--
From outside come the keys, the connections and programs of the robot and what is queued for
the dashboard. The senders, the mailboxes and what was measured are left alone.
-/
theorem step_outside (h : World.step cfg w a = some w') (ha : outside a = true) :
    ∃ keys backlog running queue n sent server, w' = { w with
      shared := { w.shared with
        keys := keys, backlog := backlog, running := running, queue := queue, nextRequest := n
        sent := sent }
      server := server } := by
  cases a with
  | client i =>
      exact ⟨_, w.shared.backlog, w.shared.running, w.shared.queue, w.shared.nextRequest,
        w.shared.sent, w.server, step_client h⟩
  | robot i =>
      obtain ⟨s, hs, rfl⟩ := step_robot h
      obtain ⟨backlog, running, rfl⟩ := robotStep_frame hs
      exact ⟨w.shared.keys, _, _, w.shared.queue, w.shared.nextRequest, w.shared.sent, w.server,
        rfl⟩
  | server i =>
      -- the dashboard server and the clients write keys and the queue, and nothing else
      obtain ⟨s, p, hm, rfl⟩ := step_server h
      obtain ⟨keys, queue, n, sent, rfl⟩ := hm.frame
      exact ⟨_, w.shared.backlog, w.shared.running, _, _, _, p, rfl⟩
  | _ => cases ha

/-- `command_server` writes the keys, what is stored of a goal and the cancel mailboxes. -/
theorem step_command_frame {i : CommandInput F} (h : World.step cfg w (.command i) = some w') :
    ∃ keys cancelSender resumeSender active completed box delivered command task goals,
      w' = { w with
        shared := { w.shared with
          keys := keys
          ds := { w.shared.ds with
            cancelSender := cancelSender, resumeSender := resumeSender, activeCommand := active
            waypointsCompleted := completed }
          cancelBox := box
          cancelDelivered := delivered }
        command := command
        task := task
        goals := goals } := by
  cases step_command h with
  | accept command script uuid =>
      exact ⟨w.shared.keys, w.shared.ds.cancelSender, w.shared.ds.resumeSender,
        w.shared.ds.activeCommand, w.shared.ds.waypointsCompleted, w.shared.cancelBox,
        w.shared.cancelDelivered, _, _, _, rfl⟩
  | store g command =>
      exact ⟨w.shared.keys, _, _, _, _, w.shared.cancelBox, w.shared.cancelDelivered, _, _,
        w.goals, rfl⟩
  | cancel p =>
      dsimp only
      unfold CommandServer.deliverCancel
      -- a cancel that reaches nobody changes the phase alone
      split
      · exact ⟨w.shared.keys, _, w.shared.ds.resumeSender, w.shared.ds.activeCommand,
          w.shared.ds.waypointsCompleted, _, _, _, w.task, w.goals, rfl⟩
      · exact ⟨w.shared.keys, w.shared.ds.cancelSender, w.shared.ds.resumeSender,
          w.shared.ds.activeCommand, w.shared.ds.waypointsCompleted, w.shared.cancelBox,
          w.shared.cancelDelivered, _, w.task, w.goals, rfl⟩
  | other i keys p =>
      exact ⟨_, w.shared.ds.cancelSender, w.shared.ds.resumeSender, w.shared.ds.activeCommand,
        w.shared.ds.waypointsCompleted, w.shared.cancelBox, w.shared.cancelDelivered, _, w.task,
        w.goals, rfl⟩

end World

end UrRedisDriver
