import UrRedisDriver.Driver.SocketServer
import UrRedisDriver.Lib.Lts

/-!
# The listener and its connections

Whatever a script sends and however its connection ends, `socket_server` goes back to
accepting the next one. Two things stop it for good, and the driver with it: a goal id that
cannot be written to a connection, and a waypoint index without a successor.
-/

namespace UrRedisDriver.Proof

open UrRedisDriver

variable {F : Type}

/-- What the server wakes up to: what it was waiting for, whatever is shared by then, and
whether its feedback is still read. -/
structure Wakeup (F : Type) where
  open_ : Bool
  shared : Shared F
  input : SocketInput

/-- The server among tasks that do anything at all to what is shared. -/
def wake (p : SocketPhase) (e : Wakeup F) : Option SocketPhase :=
  (SocketServer.step e.open_ e.shared p e.input).map Prod.snd

/-! ## The phases of a connection -/

/-- A line that reports a waypoint whose index has no successor. -/
def Overflows (l : String) : Prop :=
  ∃ index, ScriptLine.read l = .waypoint (some index) ∧ Text.usizeBound ≤ index + 1

/-- What one wakeup does to the phase, once the listener is bound. -/
inductive Serves : SocketPhase → SocketInput → SocketPhase → Prop
  | refused : Serves .accepting (.accept false) .accepting
  | dropped : Serves .accepting (.accept true) .accepting
  | taken (c : Conn) (goalId : String) (h f : Chan) :
      Serves .accepting (.accept true) (.greeting c goalId h f)
  | greeted (c : Conn) (goalId : String) (h f : Chan) :
      Serves (.greeting c goalId h f) (.greet true) (.echoing c goalId h f)
  | unwritten (c : Conn) (goalId : String) (h f : Chan) :
      Serves (.greeting c goalId h f) (.greet false) .stopped
  | echoed (c : Conn) (goalId : String) (h f : Chan) (l : Option String) :
      Serves (.echoing c goalId h f) (.line l) (.announcing c f)
  | announced (c : Conn) (f : Chan) : Serves (.announcing c f) .feedback (.reading c f)
  | read (c : Conn) (f : Chan) (l : String) : ¬ Overflows l →
      Serves (.reading c f) (.line (some l)) (.reading c f)
  | relays (c : Conn) (f : Chan) (l m : String) : ¬ Overflows l →
      Serves (.reading c f) (.line (some l)) (.relaying c f m)
  | overflowed (c : Conn) (f : Chan) (l : String) : Overflows l →
      Serves (.reading c f) (.line (some l)) .stopped
  | closed (c : Conn) (f : Chan) : Serves (.reading c f) (.line none) .accepting
  | relayed (c : Conn) (f : Chan) (m : String) : Serves (.relaying c f m) .feedback (.reading c f)

/-- The listener is bound. -/
def Bound (p : SocketPhase) : Prop := p ≠ .starting ∧ p ≠ .binding

theorem bound_accepting : Bound .accepting := ⟨nofun, nofun⟩

theorem readLine_serves (s : Shared F) (c : Conn) (f : Chan) (l : String) :
    Serves (.reading c f) (.line (some l)) (SocketServer.readLine s c f l).2 := by
  -- only a progress line can overflow, whatever else is read
  have hharmless : (∀ index, ScriptLine.read l ≠ .waypoint (some index)) → ¬ Overflows l :=
    fun h ⟨index, hread, _⟩ => h index hread
  unfold SocketServer.readLine
  split
  · rename_i hread
    exact .read c f l (hharmless (by simp [hread]))
  · rename_i hread
    exact .read c f l (hharmless (by simp [hread]))
  · rename_i index hread
    split
    · rename_i hlt
      refine .read c f l ?_
      rintro ⟨index', hread', hle⟩
      rw [hread] at hread'
      cases hread'
      omega
    · -- the counter of the source is an `i64`: a progress line that high ends the listener
      rename_i hge
      exact .overflowed c f l ⟨index, hread, not_lt.mp hge⟩
  · rename_i hread
    exact .read c f l (hharmless (by simp [hread]))
  · rename_i m hread
    exact .relays c f l m (hharmless (by simp [hread]))

theorem serves_of_wake {p q : SocketPhase} {e : Wakeup F} (h : wake p e = some q)
    (hp : Bound p) : Serves p e.input q := by
  obtain ⟨open_, s, i⟩ := e
  obtain ⟨⟨s', q'⟩, hstep, rfl⟩ := Option.map_eq_some_iff.mp h
  dsimp only at hstep ⊢
  cases p with
  | starting => exact absurd rfl hp.1
  | binding => exact absurd rfl hp.2
  | accepting =>
      cases i with
      | accept ok =>
          cases ok with
          | false =>
              cases hstep
              exact .refused
          | true =>
              simp only [SocketServer.step] at hstep
              -- without a stored sender the connection is dropped, and so is its script
              split at hstep
              · cases hstep
              · split at hstep
                · cases hstep
                  exact .taken ..
                · cases hstep
                  exact .dropped
      | _ => cases hstep
  | greeting c goalId handshake feedback =>
      cases i with
      | greet ok =>
          cases hstep
          cases ok with
          | false => exact .unwritten ..
          | true => exact .greeted ..
      | _ => cases hstep
  | echoing c goalId handshake feedback =>
      cases i with
      | line l =>
          cases hstep
          exact .echoed ..
      | _ => cases hstep
  | announcing c feedback =>
      cases i with
      | feedback =>
          obtain ⟨s₁, -, he⟩ := Option.map_eq_some_iff.mp hstep
          cases he
          exact .announced ..
      | _ => cases hstep
  | reading c feedback =>
      cases i with
      | line l =>
          cases l with
          | none =>
              cases hstep
              exact .closed ..
          | some l =>
              have hread := readLine_serves s c feedback l
              rwa [Option.some.inj hstep] at hread
      | _ => cases hstep
  | relaying c feedback m =>
      cases i with
      | feedback =>
          obtain ⟨s₁, -, he⟩ := Option.map_eq_some_iff.mp hstep
          cases he
          exact .relayed ..
      | _ => cases hstep
  | stopped => cases hstep

/-- The two ways to stop for good: a goal id that is not written, or an index that overflows. -/
def Breaks (p : SocketPhase) (i : SocketInput) : Prop :=
  (∃ c goalId h f, p = .greeting c goalId h f) ∧ i = .greet false
    ∨ (∃ c f, p = .reading c f) ∧ ∃ l, i = .line (some l) ∧ Overflows l

namespace Serves

variable {p q : SocketPhase} {i : SocketInput}

theorem bound (h : Serves p i q) : Bound q := by
  cases h <;> exact ⟨nofun, nofun⟩

/-- The server goes on after every step but those two. -/
theorem stopped_iff (h : Serves p i q) : q = .stopped ↔ Breaks p i := by
  cases h with
  | unwritten c goalId h f => exact iff_of_true rfl (.inl ⟨⟨c, goalId, h, f, rfl⟩, rfl⟩)
  | overflowed c f l hl => exact iff_of_true rfl (.inr ⟨⟨c, f, rfl⟩, l, rfl, hl⟩)
  | read c f l hl =>
      -- a line that is served leaves the listener as it was
      refine iff_of_false nofun ?_
      rintro (⟨-, hi⟩ | ⟨-, l', hi, hl'⟩)
      · cases hi
      · cases hi
        exact hl hl'
  | relays c f l m hl =>
      refine iff_of_false nofun ?_
      rintro (⟨-, hi⟩ | ⟨-, l', hi, hl'⟩)
      · cases hi
      · cases hi
        exact hl hl'
  | _ =>
      refine iff_of_false nofun ?_
      rintro (⟨⟨_, _, _, _, hp⟩, hi⟩ | ⟨⟨_, _, hp⟩, l, hi, -⟩)
      · cases hp <;> cases hi
      · cases hp <;> cases hi

end Serves

/-! ## Back to accepting -/

/-- Nothing more is heard of the connection. -/
def Lost (i : SocketInput) : Prop := i ≠ .greet false ∧ ∀ l, i ≠ .line (some l)

/-- How many steps are left of a connection that is lost. -/
def stepsLeft : SocketPhase → Nat
  | .greeting .. => 4
  | .echoing .. => 3
  | .announcing .. | .relaying .. => 2
  | .reading .. => 1
  | _ => 0

theorem stepsLeft_le (p : SocketPhase) : stepsLeft p ≤ 4 := by
  cases p <;> simp [stepsLeft]

theorem Serves.stepsLeft_lt {p q : SocketPhase} {i : SocketInput} (h : Serves p i q)
    (hlost : Lost i) (hp : p ≠ .accepting) : stepsLeft q < stepsLeft p := by
  cases h with
  | refused => exact absurd rfl hp
  | dropped => exact absurd rfl hp
  | taken => exact absurd rfl hp
  | unwritten => exact absurd rfl hlost.1
  | read c f l => exact absurd rfl (hlost.2 l)
  | relays c f l => exact absurd rfl (hlost.2 l)
  | overflowed c f l => exact absurd rfl (hlost.2 l)
  | _ => simp [stepsLeft]

/-- The server still runs, and once the connection is lost it accepts the next one. -/
structure Survives (F : Type) (p : SocketPhase) : Prop where
  running : p ≠ .stopped
  /-- Among any five steps without the connection, one is taken from accepting. -/
  returns : ∀ (es : List (Wakeup F)) (q : SocketPhase), Lts.run wake p es = some q →
    (∀ e ∈ es, Lost e.input) → 4 < es.length → Lts.Took wake p es fun u _ => u = .accepting
  /-- And there are steps that lead there, whatever is shared. -/
  leaves : ∀ s : Shared F, ∃ es : List (Wakeup F), (∀ e ∈ es, e.shared = s ∧ Lost e.input)
    ∧ Lts.run wake p es = some .accepting

theorem lost_line : Lost (.line none) := ⟨nofun, nofun⟩

theorem lost_feedback : Lost .feedback := ⟨nofun, nofun⟩

/-- The rest of a lost connection. -/
def farewell (s : Shared F) : SocketPhase → List (Wakeup F)
  | .greeting .. => [⟨false, s, .greet true⟩, ⟨false, s, .line none⟩, ⟨false, s, .feedback⟩,
      ⟨false, s, .line none⟩]
  | .echoing .. => [⟨false, s, .line none⟩, ⟨false, s, .feedback⟩, ⟨false, s, .line none⟩]
  | .announcing .. | .relaying .. => [⟨false, s, .feedback⟩, ⟨false, s, .line none⟩]
  | .reading .. => [⟨false, s, .line none⟩]
  | _ => []

theorem farewell_lost (s : Shared F) (p : SocketPhase) :
    ∀ e ∈ farewell s p, e.shared = s ∧ Lost e.input := by
  have hgreet : Lost (.greet true) := ⟨nofun, nofun⟩
  cases p <;> simp [farewell, hgreet, lost_line, lost_feedback]

theorem farewell_run (s : Shared F) {p : SocketPhase} (hp : Bound p) (hrun : p ≠ .stopped) :
    Lts.run wake p (farewell s p) = some .accepting := by
  cases p with
  | starting => exact absurd rfl hp.1
  | binding => exact absurd rfl hp.2
  | stopped => exact absurd rfl hrun
  | _ => rfl

theorem run_bound {es : List (Wakeup F)} {p q : SocketPhase} (hp : Bound p)
    (h : Lts.run wake p es = some q) : Bound q :=
  Lts.run_keeps (fun _ _ _ _ hu hv => (serves_of_wake hv hu).bound) .init hp h

/-- A server that still runs survives its connection. -/
theorem survives_of_running {p : SocketPhase} (hp : Bound p) (hrun : p ≠ .stopped) :
    Survives F p := by
  refine ⟨hrun, ?_, fun s => ⟨farewell s p, farewell_lost s p, farewell_run s hp hrun⟩⟩
  intro es q h hlost hlen
  refine Lts.took_of_measure (I := Bound) ?_ hp h hlost ((stepsLeft_le p).trans_lt hlen)
  intro u e v hu hstep hkind hother
  have hserves := serves_of_wake hstep hu
  exact ⟨hserves.bound, hserves.stepsLeft_lt hkind hother⟩

/-- The server has stopped exactly if one of the two ways to stop was taken. -/
theorem stopped_iff_took {es : List (Wakeup F)} {p : SocketPhase}
    (h : Lts.run wake .accepting es = some p) :
    p = .stopped ↔ Lts.Took wake .accepting es fun u e => Breaks u e.input := by
  refine Lts.run_induction (P := fun es p => p = .stopped
    ↔ Lts.Took wake .accepting es fun u e => Breaks u e.input) ?_ ?_ h
  · exact iff_of_false nofun Lts.not_took_nil
  · intro as t e u hrun ih hstep
    have hserves := serves_of_wake hstep (run_bound bound_accepting hrun)
    -- a server that has stopped takes no step
    have hearlier : ¬ Lts.Took wake .accepting as fun u e => Breaks u e.input := by
      rw [← ih]
      rintro rfl
      cases hserves
    rw [Lts.took_snoc hrun, hserves.stopped_iff]
    exact (or_iff_right hearlier).symm

/--
**The listener survives.** In every run from accepting on, with anything shared in every step,
the server still runs and comes back exactly if no goal id failed to be written and no line
reported an index without a successor.
-/
theorem survives_iff {es : List (Wakeup F)} {p : SocketPhase}
    (h : Lts.run wake .accepting es = some p) :
    Survives F p ↔ ¬ Lts.Took wake .accepting es fun u e => Breaks u e.input := by
  rw [← stopped_iff_took h]
  constructor
  · intro hsurvives
    exact hsurvives.running
  · intro hrun
    exact survives_of_running (run_bound bound_accepting h) hrun

/-! ## One connection -/

/-- A script that was just sent has dialled back. -/
def dialled : Shared ℚ :=
  { (Shared.init : Shared ℚ) with
    backlog := [⟨⟨0, 0⟩⟩]
    ds := { (DriverState.new : DriverState ℚ) with
      goalId := some "a", handshakeSender := some ⟨0, 0⟩, feedbackSender := some ⟨0, 0⟩ } }

/-- It is accepted, and what comes next is `is`. -/
def connection (is : List SocketInput) : List (Wakeup ℚ) :=
  (.accept true :: is).map fun i => ⟨true, dialled, i⟩

/-- It echoes the goal id and says that it is done. -/
def wellBehaved : List SocketInput :=
  [.greet true, .line (some "a"), .feedback, .line (some "ok"), .line none]

theorem survives_wellBehaved :
    Lts.run wake .accepting (connection wellBehaved) = some .accepting ∧ Survives ℚ .accepting := by
  have hrun : Lts.run wake .accepting (connection wellBehaved) = some .accepting := by decide
  refine ⟨hrun, (survives_iff hrun).mpr ?_⟩
  rw [← stopped_iff_took hrun]
  nofun

/-- The connection is gone before the goal id is written; or the script has reached the last
index there is. -/
theorem not_survives :
    (Lts.run wake .accepting (connection [.greet false]) = some .stopped
      ∧ ¬ Survives ℚ .stopped)
    ∧ Lts.run wake .accepting (connection [.greet true, .line (some "a"), .feedback,
        .line (some "waypoint_reached 18446744073709551615")]) = some .stopped := by
  exact ⟨⟨by decide, fun h => h.running rfl⟩, by decide⟩

end UrRedisDriver.Proof
