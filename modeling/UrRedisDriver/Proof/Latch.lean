import UrRedisDriver.Proof.Admission

/-!
# The pause latch

`motion_paused` on the way through `pause_motion` and `resume_motion`. Both go on polling the
socket after the controller has been told; a poll that fails returns without the critical
section that sets or clears the latch.
-/

namespace UrRedisDriver.Proof

open UrRedisDriver DashPhase

variable {F : Type}

/-! ## One call -/

/-- The call has returned. -/
def returned : DashPhase → Bool
  | .answering _ _ => true
  | _ => false

/-- The socket failed under a round trip. -/
def socketFailed : DashInput → Bool
  | .write (.error _) => true
  | .reply (.error _) _ => true
  | _ => false

/--
One step of a call, from where it is and the `DriverState` it left behind. The other tasks
may have written `DriverState` in between, but none of them sets the latch.
-/
def callStep (s : DashPhase × DriverState F) (a : DriverState F × DashInput) :
    Option (DashPhase × DriverState F) :=
  if returned s.1 || (a.1.motionPaused && !s.2.motionPaused) then none
  else (DashPhase.step a.1 s.1 a.2).map fun r => (r.2, r.1)

theorem callStep_eq_some {s s' : DashPhase × DriverState F} {a : DriverState F × DashInput} :
    callStep s a = some s' ↔ returned s.1 = false
      ∧ (a.1.motionPaused = true → s.2.motionPaused = true)
      ∧ DashPhase.step a.1 s.1 a.2 = some (s'.2, s'.1) := by
  unfold callStep
  split
  · -- the guard fails: either the call has returned, or somebody else has put the flag up
    rename_i h
    refine iff_of_false nofun ?_
    intro hc
    rw [hc.1, Bool.false_or, Bool.and_eq_true_iff] at h
    rw [hc.2.1 h.1] at h
    cases h.2
  · rename_i h
    rw [Bool.or_eq_true, not_or, Bool.not_eq_true] at h
    rw [Option.map_eq_some_iff]
    constructor
    · intro hc
      obtain ⟨r, hr, rfl⟩ := hc
      refine ⟨h.1, ?_, hr⟩
      intro hp
      by_contra hn
      exact h.2 (by simp [hp, hn])
    · intro hc
      exact ⟨_, hc.2.2, rfl⟩

/-- The first step of a call, and the rest of it. -/
theorem run_uncons {p : DashPhase} {d₀ d₁ : DriverState F} {i : DashInput}
    {as : List (DriverState F × DashInput)} {s : DashPhase × DriverState F}
    (h : Lts.run callStep (p, d₀) ((d₁, i) :: as) = some s) :
    ∃ p' d', returned p = false ∧ DashPhase.step d₁ p i = some (d', p')
      ∧ Lts.run callStep (p', d') as = some s := by
  obtain ⟨⟨p', d'⟩, hs, hrun⟩ := Option.bind_eq_some_iff.mp h
  obtain ⟨hret, -, hstep⟩ := callStep_eq_some.mp hs
  exact ⟨p', d', hret, hstep, hrun⟩

/-- Nothing happens in a call that has returned. -/
theorem run_returned {r : Request} {res : Except String DashboardReply} {d : DriverState F}
    {as : List (DriverState F × DashInput)} {s : DashPhase × DriverState F}
    (h : Lts.run callStep (.answering r res, d) as = some s) :
    as = [] ∧ s = (.answering r res, d) := by
  cases as with
  | nil => exact ⟨rfl, (Option.some.inj h).symm⟩
  | cons a as =>
      obtain ⟨_, _, hret, -⟩ := run_uncons h
      cases hret

section Calls

variable {r : Request} {res : Except String DashboardReply} {d₀ d₁ d : DriverState F}
  {as : List (DriverState F × DashInput)} {v : Bool}

/-- The latch has the right value wherever the socket fails. -/
def RightWhereFailed (v : Bool) (as : List (DriverState F × DashInput)) : Prop :=
  ∀ a ∈ as, socketFailed a.2 = true → a.1.motionPaused = v

instance (v : Bool) (as : List (DriverState F × DashInput)) : Decidable (RightWhereFailed v as) :=
  inferInstanceAs (Decidable (∀ a ∈ as, _))

theorem rightWhereFailed_nil : RightWhereFailed (F := F) v [] := by
  intro a ha
  cases ha

/-- An operation that goes through leaves the condition to those after it. -/
theorem rightWhereFailed_cons {i : DashInput} (hi : socketFailed i = false) :
    RightWhereFailed v ((d₁, i) :: as) ↔ RightWhereFailed v as := by
  unfold RightWhereFailed
  rw [List.forall_mem_cons]
  refine and_iff_right ?_
  intro h
  rw [hi] at h
  cases h

/-- A round trip that fails returns with the latch as it found it. -/
theorem run_failed {r' : Request} {e : String} {i : DashInput}
    (h : Lts.run callStep (.answering r' (.error e), d₁) as = some (.answering r res, d))
    (hi : socketFailed i = true) :
    d.motionPaused = v ↔ RightWhereFailed v ((d₁, i) :: as) := by
  obtain ⟨rfl, heq⟩ := run_returned h
  cases heq
  unfold RightWhereFailed
  rw [List.forall_mem_singleton]
  exact ⟨fun hd _ => hd, fun hall => hall hi⟩

/-! ## Pausing -/

/-- The critical section that sets the latch is the last thing of a call. -/
theorem run_latching {last : ProgramState}
    (h : Lts.run callStep (.latching r last, d₀) as = some (.answering r res, d)) :
    d.motionPaused = true ↔ RightWhereFailed true as := by
  cases as with
  | nil => cases h
  | cons a as =>
      obtain ⟨d₁, i⟩ := a
      obtain ⟨p', d', -, hstep, hrun⟩ := run_uncons h
      cases i with
      | lock late =>
          cases hstep
          obtain ⟨rfl, heq⟩ := run_returned hrun
          cases heq
          rw [rightWhereFailed_cons rfl]
          exact iff_of_true rfl rightWhereFailed_nil
      | _ => simp [DashPhase.step] at hstep

/-- From the first poll of the program state on. -/
theorem run_pausing (h : Lts.run callStep (.sending (.request r none "") .pauseState, d₀) as
      = some (.answering r res, d)
    ∨ Lts.run callStep (.awaiting (.request r none "") .pauseState, d₀) as
      = some (.answering r res, d)) :
    d.motionPaused = true ↔ RightWhereFailed true as := by
  induction as generalizing d₀ with
  | nil =>
      rcases h with h | h
      · cases h
      · cases h
  | cons a as ih =>
      obtain ⟨d₁, i⟩ := a
      rcases h with h | h
      · obtain ⟨p', d', -, hstep, hrun⟩ := run_uncons h
        cases i with
        | write w =>
            cases w with
            | ok u =>
                cases hstep
                rw [rightWhereFailed_cons rfl]
                exact ih (.inr hrun)
            | error e =>
                cases hstep
                exact run_failed hrun rfl
        | _ => simp [DashPhase.step] at hstep
      · obtain ⟨p', d', -, hstep, hrun⟩ := run_uncons h
        cases i with
        | reply line late =>
            cases line with
            | ok line =>
                rw [rightWhereFailed_cons rfl]
                simp only [DashPhase.step, DashPhase.after, DashPhase.afterRequest,
                  Option.some.injEq, Prod.mk.injEq] at hstep
                obtain ⟨rfl, rfl⟩ := hstep
                -- either the state is settled or time is up, or the state is asked for again
                split at hrun
                · exact run_latching hrun
                · exact ih (.inl hrun)
            | error e =>
                cases hstep
                exact run_failed hrun rfl
        | _ => simp [DashPhase.step] at hstep

/-! ## Resuming -/

/-- What is left once the latch is cleared. -/
theorem run_signalling {g : Nat} (hd : d₀.motionPaused = false)
    (h : Lts.run callStep (.signalling r g, d₀) as = some (.answering r res, d)) :
    d.motionPaused = false ↔ RightWhereFailed false as := by
  cases as with
  | nil => cases h
  | cons a as =>
      obtain ⟨⟨p', d'⟩, hs, hrun⟩ := Option.bind_eq_some_iff.mp h
      obtain ⟨-, hrely, hstep⟩ := callStep_eq_some.mp hs
      obtain ⟨d₁, i⟩ := a
      -- nobody else sets the latch in the meantime
      have hd₁ : d₁.motionPaused = false := by
        by_contra hn
        rw [hrely (Bool.not_eq_false _ ▸ hn)] at hd
        cases hd
      cases i with
      | signal w =>
          cases w <;> (cases hstep; obtain ⟨rfl, heq⟩ := run_returned hrun; cases heq)
          all_goals
            rw [rightWhereFailed_cons rfl]
            exact iff_of_true hd₁ rightWhereFailed_nil
      | _ => simp [DashPhase.step] at hstep

/-- The critical section that clears the latch. -/
theorem run_releasing {sender : Option Nat} {play : String} {resumed : Bool}
    (h : Lts.run callStep (.releasing r sender play resumed, d₀) as
      = some (.answering r res, d)) :
    d.motionPaused = false ↔ RightWhereFailed false as := by
  cases as with
  | nil => cases h
  | cons a as =>
      obtain ⟨d₁, i⟩ := a
      obtain ⟨p', d', -, hstep, hrun⟩ := run_uncons h
      cases i with
      | lock late =>
          rw [rightWhereFailed_cons rfl]
          cases resumed with
          | true =>
              -- it has resumed: the flag comes down and the call returns
              cases hstep
              obtain ⟨rfl, heq⟩ := run_returned hrun
              cases heq
              exact iff_of_true rfl rightWhereFailed_nil
          | false =>
              cases sender with
              | none =>
                  cases hstep
                  obtain ⟨rfl, heq⟩ := run_returned hrun
                  cases heq
                  exact iff_of_true rfl rightWhereFailed_nil
              | some g =>
                  -- a goal is to be told, which does not touch the flag
                  cases hstep
                  exact run_signalling rfl hrun
      | _ => simp [DashPhase.step] at hstep

/-- The round trips `resume_motion` makes once it has written `play`. -/
def resumeTrip : Trip → Bool
  | .play | .resumeRunning | .resumeState => true
  | _ => false

/-- From the `play` that was written on. -/
theorem run_resuming {sender : Option Nat} {play : String} {t : Trip} (ht : resumeTrip t = true)
    (h : (t ≠ .play ∧ Lts.run callStep (.sending (.request r sender play) t, d₀) as
        = some (.answering r res, d))
      ∨ Lts.run callStep (.awaiting (.request r sender play) t, d₀) as
        = some (.answering r res, d)) :
    d.motionPaused = false ↔ RightWhereFailed false as := by
  induction as generalizing d₀ play t with
  | nil =>
      rcases h with ⟨-, h⟩ | h
      · cases h
      · cases h
  | cons a as ih =>
      obtain ⟨d₁, i⟩ := a
      rcases h with ⟨-, h⟩ | h
      · obtain ⟨p', d', -, hstep, hrun⟩ := run_uncons h
        cases i with
        | write w =>
            cases w with
            | ok u =>
                cases hstep
                rw [rightWhereFailed_cons rfl]
                exact ih ht (.inr hrun)
            | error e =>
                cases hstep
                exact run_failed hrun rfl
        | _ => simp [DashPhase.step] at hstep
      · obtain ⟨p', d', -, hstep, hrun⟩ := run_uncons h
        cases i with
        | reply line late =>
            cases line with
            | ok line =>
                rw [rightWhereFailed_cons rfl]
                simp only [DashPhase.step, DashPhase.after, Option.some.injEq,
                  Prod.mk.injEq] at hstep
                obtain ⟨rfl, rfl⟩ := hstep
                cases t with
                | play =>
                    simp only [DashPhase.afterRequest] at hrun
                    split at hrun
                    · exact ih (t := .resumeRunning) rfl (.inl ⟨Trip.noConfusion, hrun⟩)
                    · exact run_releasing hrun
                -- a program that does not run yet has its state looked at before it is asked again
                | resumeRunning =>
                    simp only [DashPhase.afterRequest] at hrun
                    split at hrun
                    · exact ih (t := .resumeState) rfl (.inl ⟨Trip.noConfusion, hrun⟩)
                    · split at hrun
                      · exact run_releasing hrun
                      · exact ih (t := .resumeRunning) rfl (.inl ⟨Trip.noConfusion, hrun⟩)
                | resumeState =>
                    simp only [DashPhase.afterRequest] at hrun
                    split at hrun
                    · exact run_releasing hrun
                    · split at hrun
                      · exact run_releasing hrun
                      · exact ih (t := .resumeRunning) rfl (.inl ⟨Trip.noConfusion, hrun⟩)
                | _ => cases ht
            | error e =>
                cases hstep
                exact run_failed hrun rfl
        | _ => simp [DashPhase.step] at hstep

/--
**The latch follows the controller.** When `pause_motion` returns after the controller has
acknowledged the pause, `motion_paused` is set, and when `resume_motion` returns after it has
written `play`, it is clear, if and only if the latch had that value already wherever the
socket failed on the way.
-/
theorem latch_on_return_iff (r : Request) (res : Except String DashboardReply)
    (d₀ d₁ d₂ d : DriverState F) (line : String) (late : Bool)
    (rest : List (DriverState F × DashInput)) :
    (r.command = .pause → (DashboardCommand.pause.toReply line).success = true →
      Lts.run callStep (DashPhase.start r, d₀)
          ((d₁, .write (.ok ())) :: (d₂, .reply (.ok line) late) :: rest)
        = some (.answering r res, d) →
      (d.motionPaused = true ↔ RightWhereFailed true rest))
    ∧ (r.command = .resume → d₁.motionPaused = true →
      Lts.run callStep (DashPhase.start r, d₀)
          ((d₁, .lock late) :: (d₂, .write (.ok ())) :: rest)
        = some (.answering r res, d) →
      (d.motionPaused = false ↔ RightWhereFailed false rest)) := by
  constructor
  · intro hc hack h
    rw [DashPhase.start, hc] at h
    obtain ⟨p', d', -, hstep, h⟩ := run_uncons h
    cases hstep
    obtain ⟨p', d', -, hstep, h⟩ := run_uncons h
    simp only [DashPhase.step, DashPhase.after, DashPhase.afterRequest, Trip.sends, hack,
      if_true, Option.some.injEq, Prod.mk.injEq] at hstep
    obtain ⟨rfl, rfl⟩ := hstep
    -- from the acknowledgement on, the rest of the call is the loop over the state
    exact run_pausing (.inl h)
  · intro hc hpaused h
    rw [DashPhase.start, hc] at h
    obtain ⟨p', d', -, hstep, h⟩ := run_uncons h
    simp only [DashPhase.step, hc, hpaused, if_true, Option.some.injEq, Prod.mk.injEq] at hstep
    obtain ⟨rfl, rfl⟩ := hstep
    obtain ⟨p', d', -, hstep, h⟩ := run_uncons h
    cases hstep
    -- from here on every way out goes through the release
    exact run_resuming (t := .play) rfl (.inr h)

end Calls

/-- A `DriverState` with the latch as given. -/
def withLatch (paused : Bool) : DriverState Int := { DriverState.new with motionPaused := paused }

/-- A round trip of a call that finds the latch as given. -/
def roundTrip (paused : Bool) (line : Except String String) :
    List (DriverState Int × DashInput) :=
  [(withLatch paused, .write (.ok ())), (withLatch paused, .reply line true)]

def pauseRequest : Request := ⟨.pause, 0, .server, true⟩

def resumeRequest : Request := ⟨.resume, 0, .server, true⟩

/-- The controller pauses and says so, and resumes and says so. -/
theorem latch_on_return_trace :
    (∃ d : DriverState Int, Lts.run callStep (DashPhase.start pauseRequest, withLatch false)
        (roundTrip false (.ok "Pausing program") ++ roundTrip false (.ok "PAUSED")
          ++ [(withLatch false, .lock false)])
      = some (.answering pauseRequest (.ok (.ok "PAUSED")), d) ∧ d.motionPaused = true)
    ∧ ∃ d : DriverState Int, Lts.run callStep (DashPhase.start resumeRequest, withLatch true)
        ((withLatch true, .lock false) :: (roundTrip true (.ok "Starting program")
          ++ roundTrip true (.ok "Program running: true") ++ roundTrip true (.ok "PLAYING")
          ++ [(withLatch true, .lock false)]))
      = some (.answering resumeRequest (.ok (.ok "resumed")), d) ∧ d.motionPaused = false := by
  constructor
  · refine ⟨withLatch true, by rfl, ?_⟩
    have hiff := (latch_on_return_iff pauseRequest (.ok (.ok "PAUSED")) (withLatch false)
      (withLatch false) (withLatch false) (withLatch true) "Pausing program" true
      (roundTrip false (.ok "PAUSED") ++ [(withLatch false, .lock false)])).1 rfl (by decide)
      (by rfl)
    exact hiff.mpr (by decide)
  · refine ⟨withLatch false, by rfl, ?_⟩
    have hiff := (latch_on_return_iff resumeRequest (.ok (.ok "resumed")) (withLatch true)
      (withLatch true) (withLatch true) (withLatch false) "" false
      ((withLatch true, .reply (.ok "Starting program") true)
        :: (roundTrip true (.ok "Program running: true") ++ roundTrip true (.ok "PLAYING")
          ++ [(withLatch true, .lock false)]))).2 rfl rfl (by rfl)
    exact hiff.mpr (by decide)

/-- The socket fails under the first poll after each of the two. -/
theorem not_latch_on_return :
    (Lts.run callStep (DashPhase.start pauseRequest, withLatch false)
        (roundTrip false (.ok "Pausing program")
          ++ roundTrip false (.error "connection reset"))).any
      (fun s => returned s.1 && !s.2.motionPaused) = true
    ∧ (Lts.run callStep (DashPhase.start resumeRequest, withLatch true)
        ((withLatch true, .lock false) :: (roundTrip true (.ok "Starting program")
          ++ roundTrip true (.error "connection reset")))).any
      (fun s => returned s.1 && s.2.motionPaused) = true := by
  constructor
  · decide
  · decide

end UrRedisDriver.Proof
