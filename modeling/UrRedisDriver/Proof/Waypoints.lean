import UrRedisDriver.Lib.Course
import UrRedisDriver.Proof.Release
import UrRedisDriver.Proof.Sending

/-!
# The waypoints a resume leaves out

`waypoints_completed` is one counter for every script: a progress line overwrites it with an
index into the list of the script that sent the line, and a resume reads it as one into the
list of the script being stopped. The two are the same as long as no line is read for any
other attempt than the one in its loop, and none once that attempt's counter was reset.
-/

namespace UrRedisDriver.Proof

open UrRedisDriver

variable {F : Type} {cfg : Config F} {w w' : World F}

/-! ## The record -/

/-- The progress line read by this step: the script it is from and the index it reports. -/
def progress (w : World F) : Action F → Option (Chan × Nat)
  | .socket (.line (some line)) =>
      match w.socket, ScriptLine.read line with
      | .reading c _, .waypoint (some index) => some (c.script, index)
      | _, _ => none
  | _ => none

/-- The courses of all goals. -/
abbrev Courses (F : Type) := Nat → Course (Waypoint F)

/-- A goal's course starts with the list it is accepted with. Every script it writes is issued
the list it was rendered from, and reports what its progress lines say. -/
def noteCourses (w : World F) (a : Action F) (r : Courses F) : Courses F :=
  match a with
  | .command (.admission _) =>
      match w.command, CommandServer.rejection w.shared with
      | .checking command _, none =>
          Function.update r w.goals (.start command.waypoints)
      | _, _ => r
  | .task g (.write (.ok _)) =>
      match w.task g with
      | some t => Function.update r g ((r g).issue t.attempt t.command.waypoints)
      | none => r
  | a =>
      match progress w a with
      | some (ch, _) => Function.update r ch.goal ((r ch.goal).report ch.attempt)
      | none => r

/-- Every script reports the entries of its own list, one after the other. -/
def inOrder (x : World F × Courses F) (a : Action F) : Bool :=
  (progress x.1 a).all fun p =>
    p.2 == (x.2 p.1.goal).reported p.1.attempt
      && ((x.2 p.1.goal).issued p.1.attempt).any fun l => decide (p.2 < l.length)

/--
A progress line is read only while no attempt but the one of its script is in the loop, and
the counter has not been reset for the next one.
-/
def timely (w : World F) (a : Action F) : Bool :=
  (progress w a).all fun p => (List.range w.goals).all fun g => (w.task g).all fun t =>
    !t.phase.inAttempt
      || (g == p.1.goal && t.attempt == p.1.attempt && t.phase != .activating)

abbrev InOrder (x : World F × Courses F) (a : Action F) : Prop := inOrder x a = true

abbrev Timely (w : World F) (a : Action F) : Prop := timely w a = true

theorem InOrder.index {x : World F × Courses F} {a : Action F} {ch : Chan} {k : Nat}
    (h : InOrder x a) (hp : progress x.1 a = some (ch, k)) :
    k = (x.2 ch.goal).reported ch.attempt := by
  have hall : inOrder x a = true := h
  rw [inOrder, hp, Option.all_some, Bool.and_eq_true_iff] at hall
  exact eq_of_beq hall.1

theorem Timely.attempt {a : Action F} {ch : Chan} {k g : Nat} {t : Task F} (h : Timely w a)
    (hf : Fresh w) (hp : progress w a = some (ch, k)) (ht : w.task g = some t)
    (hl : t.phase.inAttempt = true) :
    g = ch.goal ∧ t.attempt = ch.attempt ∧ t.phase ≠ .activating := by
  -- `timely` looks at the goals accepted so far, and no other has a task
  have hg : g < w.goals := by
    by_contra hg
    rw [hf g (by omega)] at ht
    cases ht
  have hall : timely w a = true := h
  rw [timely, hp, Option.all_some, List.all_eq_true] at hall
  have hone := hall g (List.mem_range.mpr hg)
  rw [ht, Option.all_some, hl] at hone
  simpa [and_assoc] using hone

/-! ## The counter -/

theorem resolveGoal_counter (s : Shared F) (v : Bool) (by_ : Resolver) :
    (s.resolveGoal v by_).ds.waypointsCompleted = s.ds.waypointsCompleted := by
  obtain ⟨box, r, he⟩ := s.resolveGoal_eq v by_
  rw [he]

/-- What one line does to the counter. -/
theorem readLine_counter (s : Shared F) (c : Conn) (fb : Chan) (line : String) :
    (SocketServer.readLine s c fb line).1.ds.waypointsCompleted = s.ds.waypointsCompleted
      ∨ ∃ index, ScriptLine.read line = .waypoint (some index)
        ∧ (SocketServer.readLine s c fb line).1.ds.waypointsCompleted = index + 1 := by
  unfold SocketServer.readLine
  split
  · exact .inl (resolveGoal_counter ..)
  · exact .inl (resolveGoal_counter ..)
  · rename_i index hread
    split
    · exact .inr ⟨index, hread, rfl⟩
    · exact .inl rfl
  · exact .inl rfl
  · exact .inl rfl

/-- What a step of `socket_server` does to the counter. -/
theorem socket_counter {i : SocketInput} (h : World.step cfg w (.socket i) = some w') :
    w'.shared.ds.waypointsCompleted = w.shared.ds.waypointsCompleted
      ∨ ∃ ch k, progress w (.socket i) = some (ch, k)
        ∧ w'.shared.ds.waypointsCompleted = k + 1 := by
  obtain ⟨open_, s, p, -, hs, rfl⟩ := World.step_socket_eq h
  -- only a connection that is read can move the counter
  by_cases hp : ∃ c fb, w.socket = .reading c fb
  · obtain ⟨c, fb, hp⟩ := hp
    rw [hp] at hs
    cases i with
    | line l =>
        cases l with
        | some line =>
            have hs' : s = (SocketServer.readLine w.shared c fb line).1 :=
              congrArg Prod.fst (Option.some.inj hs).symm
            subst hs'
            rcases readLine_counter w.shared c fb line with he | ⟨index, hl, he⟩
            · exact .inl he
            · exact .inr ⟨c.script, index, by simp only [progress, hp, hl], he⟩
        | none =>
            cases hs
            exact .inl (resolveGoal_counter ..)
    | _ => cases hs
  · left
    cases SocketServer.step_move hs with
    | ok c ch hr | error c ch hr | waypoint c ch n hr | close c ch hr =>
        exact absurd ⟨c, ch, hr⟩ hp
    | _ => rfl

/-- What a step does to the counter. -/
theorem counter_step {a : Action F} (h : World.step cfg w a = some w') :
    w'.shared.ds.waypointsCompleted = w.shared.ds.waypointsCompleted
      ∨ w'.shared.ds.waypointsCompleted = 0
      ∨ ∃ ch k, progress w a = some (ch, k) ∧ w'.shared.ds.waypointsCompleted = k + 1 := by
  cases a with
  | client i | robot i | server i =>
      obtain ⟨_, _, _, _, _, _, _, rfl⟩ := World.step_outside h rfl
      exact .inl rfl
  | command i =>
      cases World.step_command h with
      | store => exact .inr (.inl rfl)
      | cancel =>
          left
          dsimp only
          unfold CommandServer.deliverCancel
          split <;> rfl
      | _ => exact .inl rfl
  | task g i =>
      obtain ⟨t, t', -, -, -, rfl⟩ := World.step_task h
      cases i with
      | reset => exact .inr (.inl rfl)
      | teardown => exact .inr (.inl rfl)
      | write r => cases r <;> exact .inl rfl
      | feedback m => cases m <;> exact .inl rfl
      | sendStop r => cases r <;> exact .inl rfl
      | redis keys =>
          left
          -- a Redis operation of a task leaves the driver state alone
          simp only [World.effect]
          split <;> rfl
      | _ => exact .inl rfl
  | socket i =>
      rcases socket_counter h with he | hread
      · exact .inl he
      · exact .inr (.inr hread)
  | realtime i =>
      obtain ⟨s, p, hm, rfl⟩ := World.step_realtime h
      cases hm with
      | abort => exact .inl (resolveGoal_counter ..)
      | _ => exact .inl rfl
  | dashboard i =>
      cases World.step_dashboard h with
      | other i ds p hf =>
          obtain ⟨_, _, _, _, _, _, _, rfl⟩ := hf.writes
          exact .inl rfl
      | _ => exact .inl rfl

/-! ## What a resume leaves out -/

/-- What is left of a command after `n` waypoints is what comes after some of those. -/
theorem remainingCommand_drop {command remaining : RobotCommand F} {n : Nat}
    (h : remainingCommand command n = .ok remaining) :
    ∃ m ≤ n, m ≤ command.waypoints.length
      ∧ remaining.waypoints = command.waypoints.drop m := by
  unfold remainingCommand at h
  split at h
  · cases h
  split at h
  · cases h
    exact ⟨0, Nat.zero_le n, Nat.zero_le _, rfl⟩
  split at h
  · cases h
  · rename_i hlen
    cases h
    exact ⟨n, le_rfl, by omega, rfl⟩

/-- What measuring puts aside is what is left. -/
theorem measure_next (render : RobotCommand F → Except String String) (t : Task F) (n : Nat) :
    (t.measure render n).next = t.next
      ∨ ∃ remaining script, (t.measure render n).next = some (remaining, script)
        ∧ remainingCommand t.command n = .ok remaining := by
  unfold Task.measure
  split
  · exact .inl rfl
  · rename_i remaining hremaining
    split
    · exact .inl rfl
    · exact .inr ⟨remaining, _, rfl, hremaining⟩

theorem step_measure {g n : Nat} (h : World.step cfg w (.task g (.measure n)) = some w') :
    ∃ t, w.task g = some t ∧ t.phase = .measuring ∧ n = w.shared.ds.waypointsCompleted
      ∧ w'.task g = some (t.measure cfg.render n) := by
  obtain ⟨t, t', ht, hready, hstep, rfl⟩ := World.step_task_eq h
  have hn : n = w.shared.ds.waypointsCompleted := by simpa [World.ready] using hready
  cases hp : t.phase with
  | measuring =>
      simp only [Task.step, hp] at hstep
      cases hstep
      exact ⟨t, ht, hp, hn, Function.update_self ..⟩
  | _ => simp [Task.step, hp] at hstep

/-- The script of the attempt has been written, and the attempt is not over. -/
def scripted (p : Phase) : Bool := p.inAttempt && !launching p

/-- Its script has been written unless this step writes it. -/
theorem Move.scripted {t t' : Task F} {i : TaskInput} (h : Task.Move t i t')
    (hl : Proof.scripted t'.phase = true) :
    Proof.scripted t.phase = true ∨ ∃ u, i = .write (.ok u) := by
  cases h with
  | hop i p hh =>
      generalize t.phase = q at hh
      cases hh with
      | connect => cases hl
      | teardown => cases hl
      | _ => exact .inl rfl
  | leave i e hh =>
      -- whoever leaves has no script running any more
      rw [Proof.scripted, not_inAttempt_of_publishing (leave_phase t e)] at hl
      cases hl
  | publish keys p written hh =>
      rcases hh.publishing.2 with hp | rfl
      · rw [Proof.scripted, not_inAttempt_of_publishing hp] at hl
        cases hl
      · cases hl
  | install | activate => cases hl
  | write => exact .inr ⟨(), rfl⟩
  | feedback m hp => rw [hp]; exact .inl rfl
  | handshake hp | stop id hp | restop id hp | measure n next hp => rw [hp]; exact .inl rfl

/-! ## The invariant -/

/-- A task and the course of its goal. -/
structure OnCourse (c : Course (Waypoint F)) (t : Task F) : Prop where
  sound : c.Sound
  command : c.Covers t.attempt t.command.waypoints
  /-- What a resume is about to run leaves out no more than the script has reported. -/
  next : ∀ remaining script, t.next = some (remaining, script) →
    ∃ m ≤ c.reported t.attempt, m ≤ t.command.waypoints.length
      ∧ remaining.waypoints = t.command.waypoints.drop m
  written : scripted t.phase = true → c.issued t.attempt = some t.command.waypoints
  unwritten : ∀ n, t.attempt < n ∨ (t.attempt = n ∧ launching t.phase = true) →
    c.issued n = none

/-- The counter says no more than the script of the attempt has reported, and nothing once it
has been reset for the next one. -/
structure Counted (w : World F) (c : Course (Waypoint F)) (t : Task F) : Prop where
  reported : t.phase.inAttempt = true → t.phase ≠ .activating →
    w.shared.ds.waypointsCompleted ≤ c.reported t.attempt
  reset : t.phase = .activating → w.shared.ds.waypointsCompleted = 0

theorem onCourse_accepted (uuid script : String) (command : RobotCommand F) :
    OnCourse (.start command.waypoints) (Task.accepted uuid script command) where
  sound := Course.sound_start _
  command := Course.covers_start _ _
  next _ _ h := by cases h
  written h := by cases h
  unwritten _ _ := rfl

theorem OnCourse.spawn {c : Course (Waypoint F)} {t : Task F} (h : OnCourse c t)
    (ht : t.phase = .admitted) : OnCourse c t.spawn where
  sound := h.sound
  command := h.command
  next := h.next
  written hs := by cases hs
  unwritten n hn := by
    refine h.unwritten n (hn.imp_right fun hn => ⟨hn.1, ?_⟩)
    rw [ht]
    rfl

theorem OnCourse.report {c : Course (Waypoint F)} {t : Task F} (h : OnCourse c t) (n : Nat) :
    OnCourse (c.report n) t where
  sound := h.sound.report n
  command := h.command.report n
  next remaining script hn := by
    obtain ⟨m, hm, rest⟩ := h.next remaining script hn
    exact ⟨m, hm.trans (c.le_report_reported n _), rest⟩
  written := h.written
  unwritten := h.unwritten

/-- The step that writes the script. -/
theorem OnCourse.write {c : Course (Waypoint F)} {t t' : Task F} {u : Unit} (h : OnCourse c t)
    (hm : Task.Move t (.write (.ok u)) t') :
    OnCourse (c.issue t.attempt t.command.waypoints) t' := by
  obtain ⟨hp, rfl⟩ := Move.of_write hm
  -- no script of this attempt has been issued yet
  have hfresh : c.issued t.attempt = none :=
    h.unwritten t.attempt (.inr ⟨rfl, by rw [hp]; rfl⟩)
  exact {
    sound := h.sound.issue hfresh h.command
    command := h.command.issue hfresh
    next := h.next
    written := fun _ => c.issue_issued_self ..
    unwritten := by
      rintro n (hn | ⟨-, hn⟩)
      · have hlt : t.attempt < n := hn
        rw [c.issue_issued_ne _ (by omega)]
        exact h.unwritten n (.inl hlt)
      · cases hn }

/-- Any other step, given what a measuring puts aside. -/
theorem OnCourse.move {c : Course (Waypoint F)} {t t' : Task F} {i : TaskInput}
    (h : OnCourse c t) (hm : Task.Move t i t') (hw : ∀ u, i ≠ .write (.ok u))
    (hn : ∀ n, i = .measure n → n ≤ c.reported t.attempt ∧ (t'.next = t.next
      ∨ ∃ remaining script, t'.next = some (remaining, script)
        ∧ remainingCommand t.command n = .ok remaining)) : OnCourse c t' := by
  have hwritten (he : t'.attempt = t.attempt) (hc : t'.command = t.command)
      (hs : scripted t'.phase = true) : c.issued t'.attempt = some t'.command.waypoints := by
    rw [he, hc]
    refine h.written ((Move.scripted hm hs).resolve_right ?_)
    rintro ⟨u, hu⟩
    exact hw u hu
  have hunwritten (he : t'.attempt = t.attempt) (hi : i ≠ .activate) (n : Nat)
      (hlt : t'.attempt < n ∨ (t'.attempt = n ∧ launching t'.phase = true)) :
      c.issued n = none := by
    rw [he] at hlt
    refine h.unwritten n (hlt.imp_right fun hl => ⟨hl.1, ?_⟩)
    exact (Move.launching hm hl.2).resolve_right hi
  cases hm with
  -- the next attempt's list is what measuring put aside, a suffix of this one's
  | activate remaining nextScript hp hnext =>
      obtain ⟨m, hr, hlen, hdrop⟩ := h.next remaining nextScript hnext
      have hissued : c.issued t.attempt = some t.command.waypoints :=
        h.written (by rw [hp]; rfl)
      exact {
        sound := h.sound
        command := by
          change c.Covers (t.attempt + 1) remaining.waypoints
          rw [hdrop]
          exact h.command.drop hissued hr hlen
        next := nofun
        written := nofun
        unwritten := by
          intro n hlt
          refine h.unwritten n (.inl ?_)
          have hle : t.attempt + 1 ≤ n := by
            rcases hlt with hlt | ⟨hlt, -⟩
            · exact Nat.le_of_lt hlt
            · exact hlt.le
          omega }
  | measure n next hp =>
      obtain ⟨hr, hnext⟩ := hn n rfl
      exact {
        sound := h.sound
        command := h.command
        next := by
          intro remaining script he
          rcases hnext with hsame | ⟨rest, script', he', hrest⟩
          · exact h.next remaining script (hsame ▸ he)
          · rw [he] at he'
            cases he'
            -- no more is dropped than the counter says, and the counter no more than was reported
            obtain ⟨m, hm, hlen, hdrop⟩ := remainingCommand_drop hrest
            exact ⟨m, hm.trans hr, hlen, hdrop⟩
        written := hwritten rfl rfl
        unwritten := hunwritten rfl nofun }
  | write hp => exact absurd rfl (hw ())
  | hop i p hh =>
      exact ⟨h.sound, h.command, h.next, hwritten rfl rfl,
        hunwritten rfl (by rintro rfl; generalize t.phase = q at hh; cases hh)⟩
  | leave i e hh =>
      exact ⟨h.sound, h.command, h.next, hwritten rfl rfl,
        hunwritten rfl (by rintro rfl; generalize t.phase = q at hh; cases hh)⟩
  | _ => exact ⟨h.sound, h.command, h.next, hwritten rfl rfl, hunwritten rfl nofun⟩

/-! ## A step of the driver -/

theorem noteCourses_accept {command : RobotCommand F} {script uuid : String} {r : Courses F}
    (hc : w.command = .checking command script)
    (hn : CommandServer.rejection w.shared = none) :
    noteCourses w (.command (.admission uuid)) r
      = Function.update r w.goals (.start command.waypoints) := by
  simp only [noteCourses, hc, hn]

theorem noteCourses_reject {uuid : String} {r : Courses F}
    (hn : CommandServer.rejection w.shared ≠ none) :
    noteCourses w (.command (.admission uuid)) r = r := by
  unfold noteCourses
  dsimp only
  split
  · rename_i h
    exact absurd h hn
  · rfl

theorem noteCourses_write {g : Nat} {t : Task F} {u : Unit} {r : Courses F}
    (ht : w.task g = some t) :
    noteCourses w (.task g (.write (.ok u))) r
      = Function.update r g ((r g).issue t.attempt t.command.waypoints) := by
  simp only [noteCourses, ht]

theorem noteCourses_task {g : Nat} {i : TaskInput} {r : Courses F}
    (hi : ∀ u, i ≠ .write (.ok u)) : noteCourses w (.task g i) r = r := by
  cases i with
  | write e =>
      cases e with
      | ok u => exact absurd rfl (hi u)
      | error e => rfl
  | _ => rfl

theorem noteCourses_command {i : CommandInput F} {r : Courses F}
    (hi : ∀ uuid, i ≠ .admission uuid) : noteCourses w (.command i) r = r := by
  cases i with
  | admission uuid => exact absurd rfl (hi uuid)
  | _ => rfl

/-- Steps that are neither the goals' nor `command_server`'s only add to what is reported. -/
theorem noteCourses_others {a : Action F} {r : Courses F} (hc : ∀ i, a ≠ .command i)
    (ht : ∀ g i, a ≠ .task g i) :
    (progress w a = none ∧ noteCourses w a r = r)
      ∨ ∃ ch k, progress w a = some (ch, k)
        ∧ noteCourses w a r = Function.update r ch.goal ((r ch.goal).report ch.attempt) := by
  have heq : noteCourses w a r = match progress w a with
      | some (ch, _) => Function.update r ch.goal ((r ch.goal).report ch.attempt)
      | none => r := by
    cases a with
    | command i => exact absurd rfl (hc i)
    | task g i => exact absurd rfl (ht g i)
    | _ => rfl
  cases hp : progress w a with
  | none => exact .inl ⟨rfl, by rw [heq, hp]⟩
  | some p => exact .inr ⟨p.1, p.2, rfl, by rw [heq, hp]⟩

/-- Every goal is on its course, and the counter says so. -/
structure Coursing (x : World F × Courses F) : Prop where
  course : ∀ g t, x.1.task g = some t → OnCourse (x.2 g) t
  counted : ∀ g t, x.1.task g = some t → Counted x.1 (x.2 g) t
  /-- Also of the goals to come. -/
  sound : ∀ g, (x.2 g).Sound

/-- A counter that is not raised stays right. -/
theorem Counted.lower {c : Course (Waypoint F)} {t : Task F} (h : Counted w c t)
    (hle : w'.shared.ds.waypointsCompleted = w.shared.ds.waypointsCompleted
      ∨ w'.shared.ds.waypointsCompleted = 0) : Counted w' c t where
  reported hl ha := by
    rcases hle with hle | hle
    · rw [hle]; exact h.reported hl ha
    · rw [hle]; exact Nat.zero_le _
  reset ha := by
    rcases hle with hle | hle
    · rw [hle]; exact h.reset ha
    · exact hle

/-- A step that reads no progress line does not raise the counter. -/
theorem counter_lower {a : Action F} (h : World.step cfg w a = some w')
    (hp : progress w a = none) :
    w'.shared.ds.waypointsCompleted = w.shared.ds.waypointsCompleted
      ∨ w'.shared.ds.waypointsCompleted = 0 := by
  rcases counter_step h with he | he | ⟨ch, k, hk, -⟩
  · exact .inl he
  · exact .inr he
  · rw [hp] at hk
    cases hk

/-- What a step makes of the attempt. -/
inductive AttemptStep (t : Task F) (i : TaskInput) (t' : Task F) : Prop
  | same : t'.attempt = t.attempt → t.phase ≠ .activating → t'.phase ≠ .activating →
      AttemptStep t i t'
  | reset : t'.attempt = t.attempt → t.phase ≠ .activating → i = .reset → AttemptStep t i t'
  | next : t.phase = .activating → t'.phase ≠ .activating → AttemptStep t i t'

theorem Move.attemptStep {t t' : Task F} {i : TaskInput} (h : Task.Move t i t') :
    AttemptStep t i t' := by
  cases h with
  | hop i p hh =>
      generalize hq : t.phase = q at hh
      cases hh with
      -- the counter is put back at the beginning of an attempt, and nowhere else
      | reset => exact .reset rfl (by rw [hq]; exact Phase.noConfusion) rfl
      | _ => exact .same rfl (by rw [hq]; exact Phase.noConfusion) Phase.noConfusion
  | leave i e hh =>
      refine .same rfl ?_ ?_
      · intro hp
        rw [hp] at hh
        generalize hi : i = j at hh
        cases hh with
        | verdict p v hp => simp at hp
      · intro hp
        have hpub := leave_phase t e
        rw [hp] at hpub
        cases hpub
  | publish keys p written hh =>
      obtain ⟨hpub, hpub'⟩ := hh.publishing
      refine .same rfl ?_ ?_
      · intro hp
        rw [hp] at hpub
        cases hpub
      · rintro rfl
        simp [Phase.publishing] at hpub'
  | activate remaining nextScript hp => exact .next hp Phase.noConfusion
  | feedback m hp =>
      have hne : t.phase ≠ .activating := by
        rw [hp]
        exact Phase.noConfusion
      exact .same rfl hne hne
  | install hp | write hp | handshake hp | stop id hp | restop id hp | measure n next hp =>
      exact .same rfl (by rw [hp]; exact Phase.noConfusion) Phase.noConfusion

/-- The counter stays right for the goal that takes the step. -/
theorem counted_move {g : Nat} {t t' : Task F} {i : TaskInput} {c c' : Course (Waypoint F)}
    (h : World.step cfg w (.task g i) = some w') (hm : Task.Move t i t') (hc : Counted w c t)
    (hr : c'.reported = c.reported) : Counted w' c' t' := by
  have hlower := counter_lower h rfl
  cases Move.attemptStep hm with
  | same hattempt hp hp' =>
      refine ⟨fun hl _ => ?_, fun ha => absurd ha hp'⟩
      rw [hr, hattempt]
      exact (hc.lower hlower).reported (Move.inAttempt hm hl) hp
  | reset hattempt hp hi =>
      subst hi
      obtain ⟨u, u', -, -, -, rfl⟩ := World.step_task h
      exact ⟨fun _ _ => Nat.zero_le _, fun _ => rfl⟩
  | next hp hp' =>
      -- a new attempt has reported nothing, and its counter starts from zero
      refine ⟨fun _ _ => ?_, fun ha => absurd ha hp'⟩
      rw [(hc.lower hlower).reset hp]
      exact Nat.zero_le _

/-- A step that sets one goal's task, and its course, leaves the others on theirs. -/
theorem Coursing.update {r : Courses F} {g : Nat} {t' : Task F} {c : Course (Waypoint F)}
    (hI : Coursing (w, r)) (htask : w'.task = Function.update w.task g (some t'))
    (hlower : w'.shared.ds.waypointsCompleted = w.shared.ds.waypointsCompleted
      ∨ w'.shared.ds.waypointsCompleted = 0)
    (hcourse : OnCourse c t') (hcounted : Counted w' c t') :
    Coursing (w', Function.update r g c) := by
  -- for the goal that moves, and for every other one
  refine ⟨fun g' t ht => ?_, fun g' t ht => ?_, fun g' => ?_⟩ <;> by_cases hg : g' = g
  · subst hg
    simp only [htask, Function.update_self, Option.some.injEq] at ht ⊢
    exact ht ▸ hcourse
  · simp only [htask, Function.update_of_ne hg] at ht ⊢
    exact hI.course g' t ht
  · subst hg
    simp only [htask, Function.update_self, Option.some.injEq] at ht ⊢
    exact ht ▸ hcounted
  · simp only [htask, Function.update_of_ne hg] at ht ⊢
    exact (hI.counted g' t ht).lower hlower
  · subst hg
    simpa only [Function.update_self] using hcourse.sound
  · simpa only [Function.update_of_ne hg] using hI.sound g'

/-- The same where the course of that goal stays as it is. -/
theorem Coursing.task {r : Courses F} {g : Nat} {t' : Task F} (hI : Coursing (w, r))
    (htask : w'.task = Function.update w.task g (some t'))
    (hlower : w'.shared.ds.waypointsCompleted = w.shared.ds.waypointsCompleted
      ∨ w'.shared.ds.waypointsCompleted = 0)
    (hcourse : OnCourse (r g) t') (hcounted : Counted w' (r g) t') : Coursing (w', r) := by
  have hsame : Function.update r g (r g) = r := Function.update_eq_self g r
  exact hsame ▸ hI.update htask hlower hcourse hcounted

theorem coursing_command {i : CommandInput F} {r : Courses F} (hI : Coursing (w, r))
    (hp : PendingAdmitted w) (h : World.step cfg w (.command i) = some w') :
    Coursing (w', noteCourses w (.command i) r) := by
  have hlower := counter_lower h rfl
  cases World.step_command h with
  | accept command script uuid hc hn =>
      rw [noteCourses_accept hc hn]
      exact hI.update rfl hlower (onCourse_accepted ..) ⟨nofun, nofun⟩
  | store g' command hc =>
      obtain ⟨u, hu, hadm⟩ := hp g' (by rw [hc]; rfl)
      rw [noteCourses_command fun uuid he => by cases he]
      have hspawn : OnCourse (r g') u.spawn := (hI.course g' u hu).spawn hadm
      refine hI.task ?_ hlower hspawn ?_
      · dsimp only
        rw [hu, Option.map_some]
      · -- storing the senders starts the counter at zero
        exact ⟨fun _ _ => Nat.zero_le _, fun _ => rfl⟩
  | cancel =>
      rw [noteCourses_command fun uuid he => by cases he]
      exact ⟨hI.course, fun g t ht => (hI.counted g t ht).lower hlower, hI.sound⟩
  | other i keys p hplain hpend hrej =>
      have hsame : noteCourses w (.command i) r = r := by
        by_cases hi : ∃ uuid, i = .admission uuid
        · obtain ⟨uuid, rfl⟩ := hi
          exact noteCourses_reject (hrej uuid rfl)
        · exact noteCourses_command fun uuid he => hi ⟨uuid, he⟩
      rw [hsame]
      exact ⟨hI.course, fun g t ht => (hI.counted g t ht).lower hlower, hI.sound⟩

/-- What a step of a goal's task does to its own course. -/
theorem onCourse_task {g : Nat} {t t' : Task F} {i : TaskInput} {c : Course (Waypoint F)}
    (h : World.step cfg w (.task g i) = some w') (ht : w.task g = some t)
    (ht' : w'.task g = some t') (hm : Task.Move t i t') (hc : OnCourse c t)
    (hcount : Counted w c t) (hw : ∀ u, i ≠ .write (.ok u)) : OnCourse c t' := by
  refine hc.move hm hw ?_
  rintro n rfl
  obtain ⟨u, hu, hphase, hn, hu'⟩ := step_measure h
  rw [ht] at hu
  cases hu
  rw [ht'] at hu'
  cases hu'
  have hle : w.shared.ds.waypointsCompleted ≤ c.reported t.attempt :=
    hcount.reported (by rw [hphase]; rfl) (by rw [hphase]; exact nofun)
  exact ⟨hn ▸ hle, measure_next cfg.render t n⟩

theorem coursing_task {g : Nat} {i : TaskInput} {r : Courses F} (hI : Coursing (w, r))
    (h : World.step cfg w (.task g i) = some w') :
    Coursing (w', noteCourses w (.task g i) r) := by
  have hlower := counter_lower h rfl
  obtain ⟨t, t', ht, -, hm, hw'⟩ := World.step_task h
  have htask : w'.task = Function.update w.task g (some t') := by rw [hw']
  have hcount := hI.counted g t ht
  -- only a written script begins a new course
  by_cases hwrite : ∃ u, i = .write (.ok u)
  · obtain ⟨u, rfl⟩ := hwrite
    rw [noteCourses_write ht]
    have hreported := Course.issue_reported (r g) t.attempt t.command.waypoints
    exact hI.update htask hlower ((hI.course g t ht).write hm) (counted_move h hm hcount hreported)
  · have hno : ∀ u, i ≠ .write (.ok u) := fun u he => hwrite ⟨u, he⟩
    have hself : w'.task g = some t' := by rw [htask]; exact Function.update_self ..
    rw [noteCourses_task hno]
    exact hI.task htask hlower (onCourse_task h ht hself hm (hI.course g t ht) hcount hno)
      (counted_move h hm hcount rfl)

/-- A progress line is counted for the attempt that it is from. -/
theorem coursing_progress {a : Action F} {r : Courses F} {ch : Chan} {k : Nat}
    (hI : Coursing (w, r)) (hf : Fresh w) (hord : InOrder (w, r) a) (htime : Timely w a)
    (h : World.step cfg w a = some w') (htask : w'.task = w.task)
    (hp : progress w a = some (ch, k)) :
    Coursing (w', Function.update r ch.goal ((r ch.goal).report ch.attempt)) := by
  have hk : k = (r ch.goal).reported ch.attempt := InOrder.index hord hp
  refine ⟨fun g t ht => ?_, fun g t ht => ?_, fun g => ?_⟩
  · rw [htask] at ht
    by_cases hg : g = ch.goal
    · subst hg
      simpa only [Function.update_self] using (hI.course ch.goal t ht).report ch.attempt
    · simpa only [Function.update_of_ne hg] using hI.course g t ht
  · rw [htask] at ht
    -- a line in time is of the attempt that its goal is in
    have hone (hl : t.phase.inAttempt = true) := htime.attempt hf hp ht hl
    refine ⟨fun hl ha => ?_, fun ha => absurd ha (hone (by rw [ha]; rfl)).2.2⟩
    obtain ⟨rfl, hattempt, -⟩ := hone hl
    have hle := (hI.counted ch.goal t ht).reported hl ha
    dsimp only
    rw [Function.update_self, hattempt, Course.report_reported_self]
    rw [hattempt] at hle
    -- the counter is moved to where the course has been reported to
    rcases counter_step h with he | he | ⟨ch', k', hp', he⟩
    · rw [he]
      exact hle.trans (Nat.le_succ _)
    · rw [he]
      exact Nat.zero_le _
    · rw [hp] at hp'
      cases hp'
      rw [he, hk]
  · by_cases hg : g = ch.goal
    · subst hg
      simpa only [Function.update_self] using (hI.sound ch.goal).report ch.attempt
    · simpa only [Function.update_of_ne hg] using hI.sound g

theorem coursing_step {a : Action F} {r : Courses F} (hI : Coursing (w, r)) (hf : Fresh w)
    (hadm : PendingAdmitted w) (hord : InOrder (w, r) a) (htime : Timely w a)
    (h : World.step cfg w a = some w') : Coursing (w', noteCourses w a r) := by
  by_cases hc : ∃ i, a = .command i
  · obtain ⟨i, rfl⟩ := hc
    exact coursing_command hI hadm h
  by_cases ht : ∃ g i, a = .task g i
  · obtain ⟨g, i, rfl⟩ := ht
    exact coursing_task hI h
  have hc' : ∀ i, a ≠ .command i := fun i he => hc ⟨i, he⟩
  have ht' : ∀ g i, a ≠ .task g i := fun g i he => ht ⟨g, i, he⟩
  obtain ⟨htask, -, -⟩ := step_others h hc' ht'
  -- a line that reports progress, or a step that concerns no course
  rcases noteCourses_others (r := r) hc' ht' with ⟨hp, hnote⟩ | ⟨ch, k, hp, hnote⟩
  · rw [hnote]
    refine ⟨fun g t hg => hI.course g t (htask ▸ hg), fun g t hg => ?_, hI.sound⟩
    exact (hI.counted g t (htask ▸ hg)).lower (counter_lower h hp)
  · rw [hnote]
    exact coursing_progress hI hf hord htime h htask hp

/-! ## Every run -/

section Reachable

variable [Zero F]

/-- The driver with the courses of its goals, from its start, under a condition on the steps. -/
abbrev CourseRun (cfg : Config F) (ok : World F × Courses F → Action F → Prop)
    (x : World F × Courses F) : Prop :=
  Lts.ReachableBy (Lts.recorded (World.step cfg) noteCourses) ok
    (World.init, fun _ => .start []) x

theorem coursing_init : Coursing (World.init (F := F), fun _ => .start []) where
  course _ _ h := by cases h
  counted _ _ h := by cases h
  sound _ := Course.sound_start []

/--
**A resume skips no waypoint.** In every run in which scripts report the entries of their own
lists in order, and a progress line is read only while no attempt but its script's is in the
loop and the counter is not reset for the next one yet, every list issued to a script of a goal
is a suffix of the list the goal was accepted with, and each waypoint it leaves out was
reported by an earlier script of the goal.
-/
theorem resumed_sound {x : World F × Courses F}
    (h : CourseRun cfg (fun x a => InOrder x a ∧ Timely x.1 a) x) (g : Nat) : (x.2 g).Sound := by
  refine (h.invariant (I := Coursing) coursing_init ?_).sound g
  intro y a y' hr hI hok hs
  obtain ⟨hstep, hnote⟩ := Lts.recorded_eq_some.mp hs
  have hrun : Run cfg (fun _ _ => True) y.1 := hr.forget fun _ _ _ => trivial
  have hnext := coursing_step hI (fresh_reachable hrun) (pendingAdmitted_reachable hrun)
    hok.1 hok.2 hstep
  rwa [← hnote] at hnext

end Reachable

namespace Scenario

/-- A waypoint at the given joint angle. -/
def waypoint (angle : Int) : Waypoint Int where
  acceleration := 1
  velocity := 1
  globalAccelerationScaling := 1
  globalVelocityScaling := 1
  useExecutionTime := false
  executionTime := 0
  useBlendRadius := false
  blendRadius := 0
  useJointPositions := true
  jointPositions := [angle, 0, 0, 0, 0, 0]
  usePreferredJointConfig := false
  preferredJointConfig := []
  usePayload := false
  payload := ""
  targetInBase := ""
  relativePose := []
  tcpInFaceplate := ""
  forceThreshold := 0
  useLinearMotion := false

/-- A blended move through four waypoints. -/
def trajectory : RobotCommand Int :=
  { move with
    commandType := "trajectory_unsafe_move_j", reportWaypointProgress := true
    waypoints := [waypoint 1, waypoint 2, waypoint 3, waypoint 4] }

/-- That move, up to its task being spawned. -/
def requestTrajectory (uuid : String) : List (Action Int) :=
  [.client (.requestState .initial), .client (.requestTrigger true), .command .tick,
    .command .redis, .command (.prepare (.ok (trajectory, program))), .command (.admission uuid),
    .command .redis, .command .store]

/-- A pause and a `play` that does not get the paused program running again, as the commands
`n` and `n + 1`. -/
def pauseResumeAt (n : Nat) : List (Action Int) :=
  askDashboard "pause" "" ++ [.dashboard (.take ⟨.pause, n, .server, true⟩)]
    ++ trip "Pausing program" ++ trip "PAUSED x" ++ [.dashboard (.lock false)] ++ dashboardDone
    ++ askDashboard "resume" ""
    ++ [.dashboard (.take ⟨.resume, n + 1, .server, true⟩), .dashboard (.lock false)]
    ++ trip "Starting program" ++ trip "Program running: false"
    ++ [.dashboard (.lock false), .dashboard (.signal (.ok ()))] ++ dashboardDone

/-- A goal taking its resume after `completed` waypoints, its stop command `n`, and giving up
on the old script's verdict. -/
def reissue (completed n : Nat) : List (Action Int) :=
  [.task 0 .resume, .task 0 (.measure completed), .task 0 .claim, .task 0 (.sendStop (some n)),
    .dashboard (.take ⟨.stop, n, .goal 0, true⟩)]
    ++ trip "Stopped"
    ++ [.dashboard .answer, .task 0 (.stopReply (some (.ok "Stopped"))), .task 0 (.drain none),
      .task 0 .reset]

/-- The four waypoints, up to the second being under way: the first is reported. -/
def firstReported : List (Action Int) :=
  start ++ dashboardUp ++ requestTrajectory "a" ++ launch 0 ++ shake ⟨0, 0⟩ "a"
    ++ [.socket (.line (some "waypoint_reached 0"))]

end Scenario

open Scenario

/-- How long the list of a pass is. -/
def issuedLength (c : Course (Waypoint Int)) (n : Nat) : Option Nat := (c.issued n).map List.length

theorem offset_of_issuedLength {c : Course (Waypoint Int)} {n len : Nat} {l : List (Waypoint Int)}
    (hl : c.issued n = some l) (h : issuedLength c n = some len) :
    c.offset l = c.original.length - len := by
  rw [issuedLength, hl] at h
  cases h
  rfl

set_option maxRecDepth 4000 in
/-- The second waypoint is reported by the paused script once the counter was reset: the next
resume takes it for the first two of the three that were left. -/
theorem not_resumed_sound :
    ¬ ∀ x : World Int × Courses Int, CourseRun config InOrder x → ∀ g, (x.2 g).Sound := by
  intro h
  have hrun : (Lts.runBy (Lts.recorded (World.step config) noteCourses) InOrder
      (World.init, fun _ => .start []) (firstReported ++ pauseResumeAt 0 ++ reissue 1 2
        ++ [.socket (.line (some "waypoint_reached 1")), .socket (.line none), .task 0 .activate]
        ++ launch 0 ++ shake ⟨0, 1⟩ "a" ++ pauseResumeAt 3 ++ reissue 2 5 ++ [.task 0 .activate]
        ++ launch 0)).any (fun x =>
          (x.2 0).original.length == 4 && (x.2 0).reported 0 == 2 && (x.2 0).reported 1 == 0
            && issuedLength (x.2 0) 0 == some 4 && issuedLength (x.2 0) 2 == some 1) = true := by
    decide
  obtain ⟨x, hx, hp⟩ := Lts.exists_of_runBy hrun
  simp only [Bool.and_eq_true, beq_iff_eq] at hp
  obtain ⟨⟨⟨⟨horiginal, h0⟩, h1⟩, hlen0⟩, hlen2⟩ := hp
  obtain ⟨l, hl, -⟩ := Option.map_eq_some_iff.mp hlen2
  have hcovers := h x hx 0 2 l hl
  have hoffset := offset_of_issuedLength hl hlen2
  -- the third waypoint is left out, and neither of the two scripts has reported it
  obtain ⟨m, hm, l', hl', k, hk, hj⟩ := hcovers.done 2 (by omega)
  obtain rfl | rfl : m = 0 ∨ m = 1 := by omega
  · rw [offset_of_issuedLength hl' hlen0] at hj
    omega
  · omega

set_option maxRecDepth 4000 in
/-- A resume whose paused script is heard from in time. -/
theorem resumed_sound_trace : ∃ x : World Int × Courses Int,
    CourseRun config (fun x a => InOrder x a ∧ Timely x.1 a) x
      ∧ issuedLength (x.2 0) 1 = some 3 ∧ (x.2 0).Sound := by
  have hrun : (Lts.runBy (Lts.recorded (World.step config) noteCourses)
      (fun x a => InOrder x a ∧ Timely x.1 a) (World.init, fun _ => .start [])
      (firstReported ++ pauseResumeAt 0 ++ reissue 1 2 ++ [.task 0 .activate] ++ launch 0)).any
      (fun x => issuedLength (x.2 0) 1 == some 3) = true := by
    decide
  obtain ⟨x, hx, hp⟩ := Lts.exists_of_runBy hrun
  exact ⟨x, hx, eq_of_beq hp, resumed_sound hx 0⟩

end UrRedisDriver.Proof
