import UrRedisDriver.Proof.Admission

/-!
# What is reported of the controller

`dashboard` keeps the half of `DriverState` that only the Dashboard Server can tell. The identity
and Remote Control are facts about a connection: each was read on the one that is up, and none
outlives it. The program state and the operational mode do outlive it: they are what the last
poll read, on whatever connection that was.
-/

namespace UrRedisDriver.Proof

open UrRedisDriver

variable {F : Type} {cfg : Config F} {w w' : World F}

/-! ## What was heard -/

/-- The last line that was read in answer to each round trip. -/
abbrev Lines := Trip → Option String

/-- What the controller has said to the driver's own questions. -/
structure Heard where
  /-- On the connection that is up, or that was last. -/
  lines : Lines := fun _ => none
  /-- The lines behind the last poll of that connection that was stored. -/
  stored : Option Lines := none
  /-- The lines behind the last poll that was ever stored. -/
  last : Option Lines := none

def noteAnswer (p : DashPhase) (i : DashInput) (b : Heard) : Heard :=
  match p, i with
  | .connecting, .connect => { b with lines := fun _ => none, stored := none }
  | .awaiting (.identity _) t, .reply (.ok line) _
  | .awaiting (.keepalive _) t, .reply (.ok line) _ =>
      { b with lines := Function.update b.lines t (some line) }
  | .polled _, .lock _ => { b with stored := some b.lines, last := some b.lines }
  | _, _ => b

def noteHeard (w : World F) (a : Action F) (b : Heard) : Heard :=
  match a with
  | .dashboard i => noteAnswer w.dashboard i b
  | _ => b

/-- The driver with what it was told of the controller. -/
abbrev HeardRun [Zero F] (cfg : Config F) (ok : World F → Action F → Prop)
    (x : World F × Heard) : Prop :=
  Lts.ReachableBy (Lts.recorded (World.step cfg) noteHeard) (fun x a => ok x.1 a)
    (World.init, {}) x

/-- A line was read in answer to this round trip, and the reply it makes is such. -/
def Says (l : Lines) (t : Trip) (P : DashboardReply → Prop) : Prop :=
  ∃ line, l t = some line ∧ P ((t.sends .programState).toReply line)

theorem Says.update {l : Lines} {t t' : Trip} {line : String} {P : DashboardReply → Prop}
    (h : Says l t P) (hne : t ≠ t') : Says (Function.update l t' (some line)) t P := by
  obtain ⟨line', hl, hP⟩ := h
  exact ⟨line', by rw [Function.update_of_ne hne, hl], hP⟩

theorem says_self {l : Lines} {t : Trip} {line : String} {reply : DashboardReply}
    {P : DashboardReply → Prop} (hr : (t.sends .programState).toReply line = reply)
    (hP : P reply) : Says (Function.update l t (some line)) t P :=
  ⟨line, Function.update_self .., hr ▸ hP⟩

theorem Says.imp {l : Lines} {t : Trip} {P Q : DashboardReply → Prop} (h : Says l t P)
    (hPQ : ∀ {r}, P r → Q r) : Says l t Q := by
  obtain ⟨line, hl, hP⟩ := h
  exact ⟨line, hl, hPQ hP⟩

/-- The mode in a reply, `Unknown` when it is not one. -/
def modeOf (reply : DashboardReply) : OperationalMode :=
  match reply.value with
  | some (.operationalMode mode) => mode
  | _ => .unknown

/-- The identity is the responses to three questions. -/
structure IdentityRead (l : Lines) (i : DashboardIdentity) : Prop where
  model : Says l .model fun r => i.robotModel = r.response
  serial : Says l .serial fun r => i.serialNumber = r.response
  version : Says l .version fun r => i.polyscopeVersion = r.response

/-- A status is what four replies come to. -/
structure StatusRead (l : Lines) (s : DashboardStatus) : Prop where
  remote : Says l .remote fun r => s.remoteControl = DashPhase.flagOf r
  state : Says l .state fun r => s.programState = DashPhase.stateOf r
  running : Says l .running fun r => s.programRunning = DashPhase.flagOf r
  operational : Says l .operational fun r => s.operationalMode = modeOf r

/-- How far the driver has got with its own questions. -/
inductive Asking (l : Lines) : Job → Trip → Prop
  | model (i : DashboardIdentity) : Asking l (.identity i) .model
  | serial (i : DashboardIdentity) (hm : Says l .model fun r => i.robotModel = r.response) :
      Asking l (.identity i) .serial
  | version (i : DashboardIdentity) (hm : Says l .model fun r => i.robotModel = r.response)
      (hs : Says l .serial fun r => i.serialNumber = r.response) : Asking l (.identity i) .version
  | remote (s : DashboardStatus) : Asking l (.keepalive s) .remote
  | state (s : DashboardStatus)
      (hr : Says l .remote fun r => s.remoteControl = DashPhase.flagOf r) :
      Asking l (.keepalive s) .state
  | running (s : DashboardStatus)
      (hr : Says l .remote fun r => s.remoteControl = DashPhase.flagOf r)
      (hs : Says l .state fun r => s.programState = DashPhase.stateOf r) :
      Asking l (.keepalive s) .running
  | operational (s : DashboardStatus)
      (hr : Says l .remote fun r => s.remoteControl = DashPhase.flagOf r)
      (hs : Says l .state fun r => s.programState = DashPhase.stateOf r)
      (hn : Says l .running fun r => s.programRunning = DashPhase.flagOf r) :
      Asking l (.keepalive s) .operational
  | request (r : Request) (sender : Option Nat) (play : String) (t : Trip) :
      Asking l (.request r sender play) t

/-- What is known in a phase of the answers so far. -/
def Asked (l : Lines) : DashPhase → Prop
  | .sending j t | .awaiting j t => Asking l j t
  | .identified i => IdentityRead l i
  | .polled s => StatusRead l s
  | _ => True

/-! ## What is reported -/

/-- The controller has said who it is, and the connection has not been given up yet. -/
def attached : DashPhase → Bool
  | .dropped => true
  | p => p.up

/-- The half of `DriverState` that comes from the dashboard. -/
structure FromDashboard where
  connected : Bool
  remoteControl : Bool
  identity : Option DashboardIdentity
  programState : String
  programRunning : Bool
  operationalMode : String

def fromDashboard (ds : DriverState F) : FromDashboard :=
  ⟨ds.dashboardConnected, ds.remoteControl, ds.identity, ds.programState, ds.programRunning,
    ds.operationalMode⟩

/-- What is reported of the program and the mode is what four lines came to. -/
structure StatusTold (l : Lines) (programState : String) (programRunning : Bool)
    (operationalMode : String) : Prop where
  state : Says l .state fun x => programState = (DashPhase.stateOf x).asStr
  running : Says l .running fun x => programRunning = DashPhase.flagOf x
  operational : Says l .operational fun x => operationalMode = (modeOf x).asStr

/-- What is reported, against what was heard. -/
structure Truthful (p : DashPhase) (r : FromDashboard) (b : Heard) : Prop where
  asked : Asked b.lines p
  connected : r.connected = attached p
  away : attached p = false → r.identity = none ∧ r.remoteControl = false
  identity : attached p = true → ∃ i, r.identity = some i ∧ IdentityRead b.lines i
  remote : attached p = true → ∀ l, b.stored = some l →
    Says l .remote fun x => r.remoteControl = DashPhase.flagOf x
  unpolled : b.stored = none → r.remoteControl = false
  fresh : attached p = false → p ≠ .connecting → b.stored = none
  told : ∀ l, b.last = some l → StatusTold l r.programState r.programRunning r.operationalMode
  untold : b.last = none →
    r.programState = "UNKNOWN" ∧ r.programRunning = false ∧ r.operationalMode = "UNKNOWN"

section Step

variable {p p' : DashPhase} {r : FromDashboard} {b : Heard}

/-- A step within a connection on which nothing is stored. -/
theorem Truthful.go (h : Truthful p r b) (hc : p ≠ .connecting) (hp : attached p = attached p')
    (ha : Asked b.lines p') : Truthful p' r b where
  asked := ha
  connected := h.connected.trans hp
  away := fun hp' => h.away (hp.trans hp')
  identity := fun hp' => h.identity (hp.trans hp')
  remote := fun hp' => h.remote (hp.trans hp')
  unpolled := h.unpolled
  fresh := fun hp' _ => h.fresh (hp.trans hp') hc
  told := h.told
  untold := h.untold

/-- Whatever is asked next for a request, it is no question of the driver's own. -/
theorem afterRequest_asked (l : Lines) (r : Request) (sender : Option Nat) (play : String)
    (reply : DashboardReply) (late : Bool) (t : Trip) :
    attached (DashPhase.afterRequest r sender play reply late t) = true
      ∧ Asked l (DashPhase.afterRequest r sender play reply late t) := by
  cases t <;> simp only [DashPhase.afterRequest] <;> (repeat' split) <;>
    first | exact ⟨rfl, .request _ _ _ _⟩ | exact ⟨rfl, trivial⟩

theorem start_asked (l : Lines) (r : Request) :
    attached (DashPhase.start r) = true ∧ Asked l (DashPhase.start r) := by
  unfold DashPhase.start
  split <;> first | exact ⟨rfl, .request _ _ _ _⟩ | exact ⟨rfl, trivial⟩

/-- The answer to a question of the driver's own takes it to the next. -/
theorem after_asked {l : Lines} {j : Job} {t : Trip} {line : String} {reply : DashboardReply}
    (h : Asking l j t) (hr : (t.sends .programState).toReply line = reply) (late : Bool)
    (hj : ∀ r sender play, j ≠ .request r sender play) :
    Asked (Function.update l t (some line)) (DashPhase.after j t reply late) := by
  cases h with
  | model i => exact .serial _ (says_self hr rfl)
  | serial i hm => exact .version _ (hm.update nofun) (says_self hr rfl)
  | version i hm hs => exact ⟨hm.update nofun, hs.update nofun, says_self hr rfl⟩
  | remote s => exact .state _ (says_self hr rfl)
  | state s hremote => exact .running _ (hremote.update nofun) (says_self hr rfl)
  | running s hremote hs =>
      exact .operational _ (hremote.update nofun) (hs.update nofun) (says_self hr rfl)
  | operational s hremote hs hn =>
      exact ⟨hremote.update nofun, hs.update nofun, hn.update nofun, says_self hr rfl⟩
  | request r sender play t => exact absurd rfl (hj r sender play)

theorem IdentityRead.update {l : Lines} {i : DashboardIdentity} {s : DashboardStatus} {t : Trip}
    {line : String} (h : IdentityRead l i) (ht : Asking l (.keepalive s) t) :
    IdentityRead (Function.update l t (some line)) i := by
  obtain ⟨hm, hs, hv⟩ := h
  cases ht <;> exact ⟨hm.update nofun, hs.update nofun, hv.update nofun⟩

theorem attached_after_identity (i : DashboardIdentity) (t : Trip) (reply : DashboardReply)
    (late : Bool) : attached (DashPhase.after (.identity i) t reply late) = false := by
  cases t <;> rfl

theorem attached_after_keepalive (s : DashboardStatus) (t : Trip) (reply : DashboardReply)
    (late : Bool) : attached (DashPhase.after (.keepalive s) t reply late) = true := by
  cases t <;> rfl

/-- The socket failed while this was being asked. -/
theorem Truthful.fail {j : Job} {t : Trip} {e : String}
    (h : Truthful p r b) (hp : p = .sending j t ∨ p = .awaiting j t) :
    Truthful (DashPhase.failed e j) r b := by
  rcases hp with rfl | rfl <;> cases j <;> exact h.go nofun rfl trivial

/-- A line was read. -/
theorem truthful_reply {j : Job} {t : Trip} {line : String} {late : Bool}
    (h : Truthful (.awaiting j t) r b) :
    Truthful (DashPhase.after j t ((t.sends j.command).toReply line) late) r
      (noteAnswer (.awaiting j t) (.reply (.ok line) late) b) := by
  have hask : Asking b.lines j t := h.asked
  generalize hreply : (t.sends j.command).toReply line = reply
  cases j with
  | identity i =>
      -- it stays off line, or is to be greeted by `identified`: nothing has been stored yet
      have haway := attached_after_identity i t reply late
      have hno : attached (DashPhase.after (.identity i) t reply late) ≠ true := by simp [haway]
      exact { h with
        asked := after_asked hask hreply late nofun
        connected := h.connected.trans haway.symm
        away := fun _ => h.away rfl
        identity := fun hp => absurd hp hno
        remote := fun hp => absurd hp hno
        fresh := fun _ _ => h.fresh rfl nofun }
  | keepalive s =>
      have hup := attached_after_keepalive s t reply late
      have hno : attached (DashPhase.after (.keepalive s) t reply late) ≠ false := by simp [hup]
      -- the identity stands for the connection; a poll adds to what was heard on it
      obtain ⟨i, hi, hread⟩ := h.identity rfl
      exact { h with
        asked := after_asked hask hreply late nofun
        connected := h.connected.trans hup.symm
        away := fun hp => absurd hp hno
        identity := fun _ => ⟨i, hi, hread.update hask⟩
        remote := fun _ => h.remote rfl
        fresh := fun hp => absurd hp hno }
  | request q sender play =>
      obtain ⟨hup, ha⟩ := afterRequest_asked b.lines q sender play reply late t
      exact h.go nofun hup.symm ha

/-- The identity has been read: the connection is up. -/
theorem Truthful.identified {id : DashboardIdentity} (h : Truthful (.identified id) r b) :
    Truthful .serving { r with identity := some id, connected := true } b :=
  { h with
    asked := trivial
    connected := rfl
    away := by rintro ⟨⟩
    identity := fun _ => ⟨id, rfl, h.asked⟩
    remote := by
      intro _ l hl
      have hnone : b.stored = none := h.fresh rfl (by simp)
      cases hnone.symm.trans hl
    fresh := by rintro ⟨⟩ }

/-- A poll is stored, all of it at once. -/
theorem Truthful.polled {s : DashboardStatus} {late : Bool} (h : Truthful (.polled s) r b) :
    Truthful .serving
      { r with
        remoteControl := s.remoteControl, programState := s.programState.asStr
        programRunning := s.programRunning, operationalMode := s.operationalMode.asStr }
      (noteAnswer (.polled s) (.lock late) b) := by
  -- the four fields are stored together, each from its own reply of this poll
  have hread : StatusRead b.lines s := h.asked
  refine ⟨trivial, h.connected, ?away, h.identity, ?remote, ?unpolled, ?fresh, ?told, ?untold⟩
  case away | unpolled | fresh | untold => rintro ⟨⟩
  case remote =>
    intro _ l hl
    cases hl
    exact hread.remote
  case told =>
    intro l hl
    cases hl
    exact ⟨hread.state.imp fun h => congrArg ProgramState.asStr h, hread.running,
      hread.operational.imp fun h => congrArg OperationalMode.asStr h⟩

/-- The connection is given up, and what it told of itself with it. -/
theorem Truthful.dropped (h : Truthful .dropped r b) :
    Truthful .connecting { r with connected := false, remoteControl := false, identity := none } b :=
  { h with
    asked := trivial
    connected := rfl
    away := fun _ => ⟨rfl, rfl⟩
    identity := by rintro ⟨⟩
    remote := by rintro ⟨⟩
    unpolled := fun _ => rfl
    fresh := fun _ hc => absurd rfl hc }

theorem truthful_step {ds ds' : DriverState F} {i : DashInput}
    (h : Truthful p (fromDashboard ds) b) (hs : DashPhase.step ds p i = some (ds', p')) :
    Truthful p' (fromDashboard ds') (noteAnswer p i b) := by
  cases p with
  | connecting =>
      -- a new connection has heard nothing yet, and the last one took its fields down
      cases i with
      | connect =>
          cases hs
          exact { h with
            asked := trivial
            identity := by rintro ⟨⟩
            remote := by rintro ⟨⟩
            unpolled := fun _ => (h.away rfl).2
            fresh := fun _ _ => rfl }
      | _ => simp [DashPhase.step] at hs
  | greeting =>
      cases i with
      | greet ok =>
          cases hs
          cases ok
          · exact h.go (by simp) rfl trivial
          · exact h.go (by simp) rfl (.model _)
      | _ => simp [DashPhase.step] at hs
  | identified id =>
      cases i with
      | lock late =>
          cases hs
          exact h.identified
      | _ => simp [DashPhase.step] at hs
  | serving =>
      cases i with
      | take q =>
          cases hs
          obtain ⟨ha, hq⟩ := start_asked b.lines q
          exact h.go (by simp) ha.symm hq
      | tick => cases hs; exact h.go (by simp) rfl (.remote _)
      | _ => simp [DashPhase.step] at hs
  | sending j t =>
      cases i with
      | write v =>
          -- a command that is not written, like one that is not answered, ends the connection
          cases v with
          | ok u =>
              cases hs
              refine h.go (by simp) ?_ h.asked
              cases j <;> rfl
          | error e => cases hs; exact h.fail (.inl rfl)
      | _ => simp [DashPhase.step] at hs
  | awaiting j t =>
      cases i with
      | reply v late =>
          cases v with
          | error e =>
              cases hs
              cases j <;> exact h.fail (.inr rfl)
          | ok line => cases hs; exact truthful_reply h
      | _ => simp [DashPhase.step] at hs
  | reading q =>
      cases i with
      | lock late =>
          simp only [DashPhase.step] at hs
          split at hs <;> split at hs <;> cases hs <;>
            first | exact h.go (by simp) rfl (.request _ _ _ _) | exact h.go (by simp) rfl trivial
      | _ => simp [DashPhase.step] at hs
  | latching q last =>
      cases i with
      | lock late => cases hs; exact h.go (by simp) rfl trivial
      | _ => simp [DashPhase.step] at hs
  | releasing q sender play resumed =>
      cases i with
      | lock late =>
          cases hs
          cases resumed <;> cases sender <;> exact h.go (by simp) rfl trivial
      | _ => simp [DashPhase.step] at hs
  | signalling q g =>
      cases i with
      | signal v => cases v <;> cases hs <;> exact h.go (by simp) rfl trivial
      | _ => simp [DashPhase.step] at hs
  | confirming q =>
      cases i with
      | lock late =>
          simp only [DashPhase.step] at hs
          split at hs
          · cases hs; exact h.go (by simp) rfl trivial
          · split at hs <;> cases hs <;> exact h.go (by simp) rfl trivial
      | _ => simp [DashPhase.step] at hs
  | answering q result =>
      cases i with
      | answer => cases result <;> cases hs <;> exact h.go (by simp) rfl trivial
      | _ => cases result <;> simp [DashPhase.step] at hs
  | polled s =>
      cases i with
      | lock late =>
          cases hs
          exact h.polled
      | _ => simp [DashPhase.step] at hs
  | dropped =>
      cases i with
      | lock late =>
          cases hs
          exact h.dropped
      | _ => simp [DashPhase.step] at hs

end Step

/-! ## The whole driver -/

theorem resolveGoal_fromDashboard (s : Shared F) (v : Bool) (by_ : Resolver) :
    fromDashboard (s.resolveGoal v by_).ds = fromDashboard s.ds := by
  obtain ⟨box, r, he⟩ := s.resolveGoal_eq v by_
  rw [he]
  rfl

theorem effect_fromDashboard (up : Bool) (s : Shared F) (g : Nat) (t : Task F) (i : TaskInput) :
    fromDashboard (World.effect cfg up s g t i).ds = fromDashboard s.ds := by
  cases i with
  | write r => cases r <;> rfl
  | feedback m => cases m <;> rfl
  | sendStop r => cases r <;> rfl
  | redis keys =>
      simp only [World.effect]
      split <;> rfl
  | _ => rfl

/-- Only the dashboard task writes what comes from the dashboard. -/
theorem fromDashboard_step {a : Action F} (h : World.step cfg w a = some w')
    (ha : ∀ i, a ≠ .dashboard i) : fromDashboard w'.shared.ds = fromDashboard w.shared.ds := by
  cases a with
  | client i | robot i | server i =>
      obtain ⟨_, _, _, _, _, _, _, rfl⟩ := World.step_outside h rfl
      rfl
  | command i =>
      obtain ⟨_, _, _, _, _, _, _, _, _, _, rfl⟩ := World.step_command_frame h
      rfl
  | task g i =>
      obtain ⟨t, t', -, -, -, rfl⟩ := World.step_task h
      exact effect_fromDashboard w.dashboard.up w.shared g t i
  | socket i =>
      obtain ⟨s, p, hm, rfl⟩ := World.step_socket h
      cases hm with
      | ok c ch _ => exact resolveGoal_fromDashboard w.shared true (.ok c.script)
      | error c ch _ => exact resolveGoal_fromDashboard w.shared false (.error c.script)
      | close c ch _ => exact resolveGoal_fromDashboard w.shared false (.closed c.script)
      | _ => rfl
  | realtime i =>
      obtain ⟨s, p, hm, rfl⟩ := World.step_realtime h
      cases hm with
      | abort _ => exact resolveGoal_fromDashboard w.shared false .safetyStop
      | _ => rfl
  | dashboard i => exact absurd rfl (ha i)

theorem truthful_world {a : Action F} {b : Heard}
    (h : Truthful w.dashboard (fromDashboard w.shared.ds) b) (hs : World.step cfg w a = some w') :
    Truthful w'.dashboard (fromDashboard w'.shared.ds) (noteHeard w a b) := by
  by_cases ha : ∃ i, a = .dashboard i
  · obtain ⟨i, rfl⟩ := ha
    obtain ⟨s, ds, p, -, hp, rfl⟩ := World.step_dashboard_eq hs
    exact truthful_step h hp
  · have hne : ∀ i, a ≠ .dashboard i := fun i hi => ha ⟨i, hi⟩
    have hnote : noteHeard w a b = b := by
      cases a with
      | dashboard i => exact absurd rfl (hne i)
      | _ => rfl
    rw [World.dashboard_of_ne hs hne, fromDashboard_step hs hne, hnote]
    exact h

section Reachable

variable [Zero F] {ok : World F → Action F → Prop}

theorem truthful_init :
    Truthful .connecting (fromDashboard (DriverState.new (F := F))) {} where
  asked := trivial
  connected := rfl
  away := fun _ => ⟨rfl, rfl⟩
  identity := nofun
  remote := nofun
  unpolled := fun _ => rfl
  fresh := fun _ hc => absurd rfl hc
  told := nofun
  untold := fun _ => ⟨rfl, rfl, rfl⟩

theorem truthful_reachable {x : World F × Heard} (h : HeardRun cfg ok x) :
    Truthful x.1.dashboard (fromDashboard x.1.shared.ds) x.2 := by
  refine h.invariant (I := fun x => Truthful x.1.dashboard (fromDashboard x.1.shared.ds) x.2)
    truthful_init ?_
  intro y a y' _ hT _ hs
  obtain ⟨hstep, hnote⟩ := Lts.recorded_eq_some.mp hs
  rw [hnote]
  exact truthful_world hT hstep

/-- What `DriverState` says of the controller, against what was heard of it. -/
structure TrueToHeard (w : World F) (b : Heard) : Prop where
  /-- Connected is said from the identity on and until the socket is given up. -/
  connected : w.shared.ds.dashboardConnected = attached w.dashboard
  /-- Nothing about a connection is said when there is none. -/
  gone : w.dashboard = .connecting ∨ w.dashboard = .greeting →
    w.shared.ds.identity = none ∧ w.shared.ds.remoteControl = false
  named : w.shared.ds.dashboardConnected = true → w.shared.ds.identity.isSome = true
  identity : ∀ i, w.shared.ds.identity = some i → IdentityRead b.lines i
  remote : w.shared.ds.remoteControl = true → w.shared.ds.dashboardConnected = true
    ∧ ∃ l, b.stored = some l ∧ Says l .remote fun r => DashPhase.flagOf r = true
  status : ∀ l, b.last = some l → StatusTold l w.shared.ds.programState
    w.shared.ds.programRunning w.shared.ds.operationalMode
  unpolled : b.last = none → w.shared.ds.programState = "UNKNOWN"
    ∧ w.shared.ds.programRunning = false ∧ w.shared.ds.operationalMode = "UNKNOWN"

/--
**What is said of the controller was heard from it.** In every run the identity that is reported
was read on the connection that is up, and Remote Control is reported only if the last poll of
that connection that was stored said so; both are gone with the connection. The program state, the
program running and the operational mode are those of the last poll that was stored at all.
-/
theorem reported_heard {x : World F × Heard} (h : HeardRun cfg ok x) : TrueToHeard x.1 x.2 := by
  have hT := truthful_reachable h
  refine ⟨hT.connected, ?_, ?_, ?_, ?_, hT.told, hT.untold⟩
  · rintro (hp | hp) <;> exact hT.away (by rw [hp]; rfl)
  · intro hc
    obtain ⟨i, hi, -⟩ := hT.identity (hT.connected.symm.trans hc)
    exact Option.isSome_iff_exists.mpr ⟨i, hi⟩
  · -- an identity that is shown while off line would contradict `away`
    intro i hi
    rcases (attached x.1.dashboard).eq_false_or_eq_true with hp | hp
    · obtain ⟨i', hi', hread⟩ := hT.identity hp
      cases hi'.symm.trans hi
      exact hread
    · exact absurd ((hT.away hp).1.symm.trans hi) nofun
  · -- remote control is shown only where a poll of this connection has reported it
    intro hr
    rcases (attached x.1.dashboard).eq_false_or_eq_true with hp | hp
    · refine ⟨hT.connected.trans hp, ?_⟩
      cases hb : x.2.stored with
      | none => exact absurd ((hT.unpolled hb).symm.trans hr) nofun
      | some l => exact ⟨l, rfl, (hT.remote hp l hb).imp fun hflag => hflag.symm.trans hr⟩
    · exact absurd ((hT.away hp).2.symm.trans hr) nofun

end Reachable

namespace Scenario

/-- The socket comes up and is polled once. -/
def polledOnce : List (Action Int) :=
  dashboardUp ++ [.dashboard .tick] ++ trip "true" ++ trip "PLAYING pick.urp"
    ++ trip "Program running: true" ++ trip "AUTOMATIC" ++ [.dashboard (.lock false)]

end Scenario

open Scenario

/-- Remote Control is reported once a poll has said so. -/
theorem reported_heard_trace : ∃ x : World Int × Heard, HeardRun config (fun _ _ => True) x
    ∧ x.1.shared.ds.remoteControl = true ∧ TrueToHeard x.1 x.2 := by
  have hrun : (Lts.runBy (Lts.recorded (World.step config) noteHeard) (fun _ _ => True)
      (World.init, {}) polledOnce).any (fun x => x.1.shared.ds.remoteControl) = true := by
    decide
  obtain ⟨x, hx, hp⟩ := Lts.exists_of_runBy hrun
  have hx' : HeardRun config (fun _ _ => True) x := hx
  exact ⟨x, hx', hp, reported_heard hx'⟩

end UrRedisDriver.Proof
