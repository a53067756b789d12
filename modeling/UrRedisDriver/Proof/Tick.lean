import UrRedisDriver.Interfaces.Prepare

/-!
# The answer to a trigger

A tick that has consumed a trigger owes the caller one answer: the request is failed, with a
reason, or it is executing and a task was spawned for it. It gives one unless it panics, and
that it does in two places: decoding a vector, and counting a failure.
-/

namespace UrRedisDriver.Proof

open UrRedisDriver CommandServer

variable {F T : Type}

/-! ## The steps of a tick -/

/-- What a tick does for its caller. -/
inductive Answer
  | result (reason : String)
  | state (st : ActionRequestState)
  /-- `handle_request` was spawned for goal `g`. -/
  | spawned (g : Nat)

/-- What the step out of a phase does for the caller, where it leaves `s'` behind. -/
def answers (s' : Shared F) : CommandPhase F → List Answer
  | .failing _ .publishResult => [.result s'.keys.requestResult]
  | .failing _ .publishState => [.state s'.keys.requestState]
  | .announcing _ _ => [.state s'.keys.requestState]
  | .storing g _ => [.spawned g]
  | _ => []

/-- Decoding as an input of the tick. A panic is none. -/
def prepared : Except Stop (RobotCommand F × String) → Option (CommandInput F)
  | .ok c => some (.prepare (.ok c))
  | .error (.failed reason) => some (.prepare (.error reason))
  | .error .panic => none

/-- What the operation a phase waits on resolves to, where `r` is what decoding comes to. A
counter that overflows is a panic too. -/
def resolved (r : Except Stop (RobotCommand F × String)) (uuid : String) :
    CommandPhase F → Option (CommandInput F)
  | .idle => none
  | .cancelling _ _ => some .cancel
  | .preparing => prepared r
  | .checking _ _ => some (.admission uuid)
  | .storing _ _ => some .store
  | .failing _ step => if step.overflows then none else some .redis
  | _ => some .redis

/--
`n` steps of a tick: what they do for the caller, and where they lead. The other tasks may
step in between, so every step finds a shared state of its own.
-/
def ticks (r : Except Stop (RobotCommand F × String)) (uuid : String) (g : Nat) :
    (seen : Nat → Shared F) → (n : Nat) → CommandPhase F → Option (List Answer × CommandPhase F)
  | _, 0, p => some ([], p)
  | seen, n + 1, p =>
      (resolved r uuid p).bind fun i =>
        (CommandServer.step g (seen 0) p i).bind fun done =>
          (ticks r uuid g (fun k => seen (k + 1)) n done.2).map fun rest =>
            (answers done.1 p ++ rest.1, rest.2)

/-- The tick comes to its end, having failed the request or started its execution. -/
def Answered (r : Except Stop (RobotCommand F × String)) (uuid : String) (g : Nat)
    (seen : Nat → Shared F) : Prop :=
  ∃ n as, ticks r uuid g seen n (.consuming .initial) = some (as, .idle)
    ∧ ((∃ reason, as = [.result reason, .state .failed])
      ∨ as = [.state .executing, .spawned g])

/-- One more failure can be counted. -/
def Roomy (keys : RequestKeys) : Prop :=
  keys.totalFailCounter < i64Max ∧ keys.subsequentFailCounter < i64Max

/-- The keys a tick that fails the request reads the counters off. -/
inductive Fails (r : Except Stop (RobotCommand F × String)) (seen : Nat → Shared F) :
    RequestKeys → Prop
  /-- It could not be prepared. -/
  | refused (reason : String) : r = .error (.failed reason) → Fails r seen (seen 2).keys
  /-- It is turned away by the admission block. -/
  | rejected (c : RobotCommand F × String) (reason : String) : r = .ok c →
      rejection (seen 2) = some reason → Fails r seen (seen 3).keys

theorem ticks_accepting (r : Except Stop (RobotCommand F × String)) (uuid : String) (g : Nat)
    (seen : Nat → Shared F) (command : RobotCommand F) :
    ticks r uuid g seen 2 (.announcing g command)
      = some ([.state .executing, .spawned g], .idle) := rfl

/-- A step that is no answer passes on the answer of those after it. -/
theorem ticks_succ {r : Except Stop (RobotCommand F × String)} {uuid : String} {g n : Nat}
    {seen : Nat → Shared F} {p p' p'' : CommandPhase F} {i : CommandInput F} {s' : Shared F}
    {as : List Answer} (hi : resolved r uuid p = some i)
    (hs : CommandServer.step g (seen 0) p i = some (s', p')) (hp : answers s' p = [])
    (h : ticks r uuid g (fun k => seen (k + 1)) n p' = some (as, p'')) :
    ticks r uuid g seen (n + 1) p = some (as, p'') := by
  rw [ticks, hi, Option.bind_some, hs, Option.bind_some, h, Option.map_some, hp]
  rfl

/-- A tick that has not come to its end goes on to it. -/
theorem ticks_go {r : Except Stop (RobotCommand F × String)} {uuid : String} {g n : Nat}
    {seen : Nat → Shared F} {p : CommandPhase F} {as : List Answer}
    (h : ticks r uuid g seen n p = some (as, .idle)) (hp : p ≠ .idle) :
    ∃ m i s' p' as', resolved r uuid p = some i
      ∧ CommandServer.step g (seen 0) p i = some (s', p')
      ∧ ticks r uuid g (fun k => seen (k + 1)) m p' = some (as', .idle) := by
  cases n with
  | zero =>
      cases h
      exact absurd rfl hp
  | succ n =>
      obtain ⟨i, hi, h⟩ := Option.bind_eq_some_iff.mp h
      obtain ⟨⟨s', p'⟩, hs, h⟩ := Option.bind_eq_some_iff.mp h
      obtain ⟨⟨as', q⟩, hrest, he⟩ := Option.map_eq_some_iff.mp h
      cases he
      exact ⟨n, i, s', p', as', hi, hs, hrest⟩

/-- Only a counter that is not full is counted on. -/
theorem resolved_failing {r : Except Stop (RobotCommand F × String)} {uuid reason : String}
    {step : FailStep} {i : CommandInput F} :
    resolved r uuid (.failing reason step) = some i ↔ step.overflows = false ∧ i = .redis := by
  have hresolved : resolved r uuid (.failing reason step)
      = if step.overflows then none else some .redis := rfl
  rw [hresolved]
  cases step.overflows with
  | true => exact ⟨nofun, nofun⟩
  | false => exact ⟨fun h => ⟨rfl, (Option.some.inj h).symm⟩, fun h => congrArg some h.2.symm⟩

/-- Failing a request takes five steps, with the counters as the first of them reads them. -/
theorem ticks_failing (r : Except Stop (RobotCommand F × String)) (uuid : String) (g : Nat)
    (seen : Nat → Shared F) (reason : String) (hroom : Roomy (seen 0).keys) :
    ticks r uuid g seen 5 (.failing reason .read)
      = some ([.result reason, .state .failed], .idle) :=
  ticks_succ rfl rfl rfl
    (ticks_succ (resolved_failing.mpr ⟨decide_eq_false (not_le.mpr hroom.1), rfl⟩) rfl rfl
      (ticks_succ (resolved_failing.mpr ⟨decide_eq_false (not_le.mpr hroom.2), rfl⟩) rfl rfl rfl))

/-- It does not come to its end over a counter that is full. -/
theorem roomy_of_ticks {r : Except Stop (RobotCommand F × String)} {uuid : String} {g n : Nat}
    {seen : Nat → Shared F} {reason : String} {as : List Answer}
    (h : ticks r uuid g seen n (.failing reason .read) = some (as, .idle)) :
    Roomy (seen 0).keys := by
  -- the counters are held from the first step on, and each is counted on when it is written
  obtain ⟨n, i, s', p, as', hi, hs, h⟩ := ticks_go h nofun
  cases hi
  cases hs
  obtain ⟨n, i, s', p, as', hi, hs, h⟩ := ticks_go h nofun
  obtain ⟨htotal, rfl⟩ := resolved_failing.mp hi
  cases hs
  obtain ⟨n, i, s', p, as', hi, hs, h⟩ := ticks_go h nofun
  obtain ⟨hsubsequent, rfl⟩ := resolved_failing.mp hi
  exact ⟨not_le.mp (of_decide_eq_false htotal), not_le.mp (of_decide_eq_false hsubsequent)⟩

/-- The tick answers unless decoding panics, or a counter it fails the request on is full. -/
theorem answered_iff {r : Except Stop (RobotCommand F × String)} {uuid : String} {g : Nat}
    {seen : Nat → Shared F} : Answered r uuid g seen
      ↔ r ≠ .error .panic ∧ ∀ keys, Fails r seen keys → Roomy keys := by
  constructor
  · intro h
    obtain ⟨n, as, h, -⟩ := h
    -- the tick gets as far as decoding
    obtain ⟨n, i, s', p, as', hi, hs, h⟩ := ticks_go h nofun
    cases hi
    cases hs
    obtain ⟨n, i, s', p, as', hi, hs, h⟩ := ticks_go h nofun
    refine ⟨?_, fun keys hf => ?_⟩
    · rintro rfl
      cases hi
    · cases hf with
      | refused reason hr =>
          subst hr
          cases hi
          cases hs
          exact roomy_of_ticks h
      | rejected c reason hr hrej =>
          subst hr
          cases hi
          cases hs
          obtain ⟨n, i, s', p, as', hi, hs, h⟩ := ticks_go h nofun
          cases hi
          simp only [CommandServer.step, hrej] at hs
          cases hs
          exact roomy_of_ticks h
  · rintro ⟨hr, hroom⟩
    cases r with
    | error e =>
        cases e with
        | panic => exact (hr rfl).elim
        | failed reason =>
            have hfail := ticks_failing (.error (.failed reason)) uuid g (fun k => seen (k + 2))
              reason (hroom _ (.refused reason rfl))
            exact ⟨7, _, ticks_succ rfl rfl rfl (ticks_succ rfl rfl rfl hfail),
              .inl ⟨reason, rfl⟩⟩
    | ok c =>
        obtain ⟨command, script⟩ := c
        -- from the admission block on, which sees `DriverState` as it is by then
        have hcheck : ∃ n as, ticks (.ok (command, script)) uuid g (fun k => seen (k + 2)) n
            (.checking command script) = some (as, .idle)
              ∧ ((∃ reason, as = [.result reason, .state .failed])
                ∨ as = [.state .executing, .spawned g]) := by
          cases hrej : rejection (seen 2) with
          | some reason =>
              have hstep : CommandServer.step g (seen 2) (.checking command script)
                  (.admission uuid) = some (seen 2, .failing reason .read) := by
                simp only [CommandServer.step, hrej]
              have hfail := ticks_failing (.ok (command, script)) uuid g (fun k => seen (k + 3))
                reason (hroom _ (.rejected _ reason rfl hrej))
              exact ⟨6, _, ticks_succ rfl hstep rfl hfail, .inl ⟨reason, rfl⟩⟩
          | none =>
              have hstep : CommandServer.step g (seen 2) (.checking command script)
                  (.admission uuid) = some (seen 2, .announcing g command) := by
                simp only [CommandServer.step, hrej]
              exact ⟨3, _, ticks_succ rfl hstep rfl (ticks_accepting _ _ _ _ _), .inr rfl⟩
        obtain ⟨n, as, hn, has⟩ := hcheck
        exact ⟨n + 2, as, ticks_succ rfl rfl rfl (ticks_succ rfl rfl rfl hn), has⟩

/-! ## Where decoding panics -/

section Panic

variable {acc : Accessors F} {env : Surroundings F T} {state : SPState F}

/-- Every key of the request was fetched. -/
theorem present_of_missing (h : missing env state = []) {suffix : String}
    (hs : suffix ∈ requestSuffixes) : ∃ v, state (key env suffix) = some v := by
  have hnot := List.filter_eq_nil_iff.mp h (key env suffix) (List.mem_map_of_mem hs)
  exact Option.ne_none_iff_exists'.mp (by simpa using hnot)

theorem getOr_ok {α : Type} {k : String} (h : ∃ v, state k = some v)
    (read : SPValue F → α → α) (default : α) : ∃ a, getOr read state k default = .ok a := by
  obtain ⟨v, hv⟩ := h
  refine ⟨read v default, ?_⟩
  unfold getOr getValue
  rw [hv]
  rfl

/-- A step that succeeds leaves the panic to what comes after it. -/
theorem panic_of_ok {α β : Type} {x : Except Stop α} {f : α → Except Stop β} {p : Prop}
    (hx : ∃ a, x = .ok a) (hf : ∀ a, f a = .error .panic ↔ p) : x >>= f = .error .panic ↔ p := by
  obtain ⟨a, rfl⟩ := hx
  exact hf a

/-- A step that fails no request panics itself, or leaves it to what comes after it. -/
theorem panic_or {α β : Type} {x : Except Stop α} {f : α → Except Stop β} {p : Prop}
    (hx : ∀ reason, x ≠ .error (.failed reason)) (hf : ∀ a, f a = .error .panic ↔ p) :
    x >>= f = .error .panic ↔ x = .error .panic ∨ p := by
  cases x with
  | ok a =>
      rw [show (Except.ok a >>= f) = f a from rfl, hf]
      refine ⟨.inr, ?_⟩
      intro h
      rcases h with h | h
      · cases h
      · exact h
  | error e =>
      cases e with
      -- a panic ends the tick whatever comes after it
      | panic => exact iff_of_true rfl (.inl rfl)
      | failed reason => exact (hx reason rfl).elim

/-- An element is a float, or the default's. -/
theorem elementOr_cases (d : List F) (i : Nat) (v : SPValue F) :
    (∃ x, v = .float64 (some x) ∧ elementOr d i v = .ok x)
      ∨ (∀ x, v ≠ .float64 (some x)) ∧ elementOr d i v = .ofOption d[i]? .panic := by
  cases v with
  | float64 x =>
      cases x with
      | some x => exact .inl ⟨x, rfl, rfl⟩
      | none =>
          refine .inr ⟨?_, rfl⟩
          intro x h
          cases h
  | _ =>
      refine .inr ⟨?_, rfl⟩
      intro x h
      cases h

theorem elementOr_panics {d : List F} {i : Nat} {v : SPValue F} :
    elementOr d i v = .error .panic ↔ (∀ x, v ≠ .float64 (some x)) ∧ d[i]? = none := by
  rcases elementOr_cases d i v with ⟨x, hv, h⟩ | ⟨hv, h⟩
  · rw [h]
    refine iff_of_false ?_ ?_
    · intro hc; cases hc
    · intro hc; exact hc.1 x hv
  · rw [h, Except.ofOption_eq_error]
    exact ⟨fun hc => ⟨hv, hc.1⟩, fun hc => ⟨hc.2, rfl⟩⟩

theorem elementOr_not_failed (d : List F) (i : Nat) (v : SPValue F) (reason : String) :
    elementOr d i v ≠ .error (.failed reason) := by
  rcases elementOr_cases d i v with ⟨x, -, h⟩ | ⟨-, h⟩
  · rw [h]
    intro hc
    cases hc
  · rw [h]
    intro hc
    cases (Except.ofOption_eq_error.mp hc).2

theorem extractFrom_not_failed (d : List F) (i : Nat) (vs : List (SPValue F)) (reason : String) :
    extractFrom d i vs ≠ .error (.failed reason) := by
  induction vs generalizing i with
  | nil =>
      intro h
      cases h
  | cons v vs ih =>
      intro h
      rcases Except.bind_eq_error.mp h with h | ⟨x, -, h⟩
      · exact elementOr_not_failed d i v reason h
      · exact ih (i + 1) (Except.map_eq_error.mp h)

/-- An element that is no float panics if the default ends before it. -/
theorem extractFrom_panics {d : List F} {vs : List (SPValue F)} {i : Nat} :
    extractFrom d i vs = .error .panic ↔ ∃ (j : Nat) (v : SPValue F), vs[j]? = some v
      ∧ (∀ x, v ≠ .float64 (some x)) ∧ d[i + j]? = none := by
  induction vs generalizing i with
  | nil =>
      refine iff_of_false ?_ ?_
      · intro h; cases h
      · intro h
        obtain ⟨j, v, hj, -⟩ := h
        cases hj
  | cons v vs ih =>
      constructor
      · intro h
        rcases Except.bind_eq_error.mp h with h | ⟨x, -, h⟩
        · exact ⟨0, v, rfl, elementOr_panics.mp h⟩
        · -- the first element is read, so the panic is further on
          obtain ⟨j, u, hj, hu⟩ := ih.mp (Except.map_eq_error.mp h)
          rw [Nat.add_right_comm] at hu
          exact ⟨j + 1, u, hj, hu⟩
      · intro h
        obtain ⟨j, u, hj, hu, hd⟩ := h
        refine Except.bind_eq_error.mpr ?_
        cases j with
        | zero =>
            cases hj
            exact .inl (elementOr_panics.mpr ⟨hu, hd⟩)
        | succ j =>
            -- whether the first element panics as well or is read, the list does not come out
            have hrest : extractFrom d (i + 1) vs = .error .panic := by
              refine ih.mpr ⟨j, u, hj, hu, ?_⟩
              rwa [Nat.add_right_comm]
            cases he : elementOr d i v with
            | ok x => exact .inr ⟨x, rfl, Except.map_eq_error.mpr hrest⟩
            | error e =>
                cases e with
                | panic => exact .inl rfl
                | failed reason => exact (elementOr_not_failed d i v reason he).elim

/-- An array with something other than a float beyond the sixth place. -/
def OverlongMix (state : SPState F) (k : String) : Prop :=
  ∃ vs, state k = some (.array (some vs))
    ∧ ∃ (i : Nat) (v : SPValue F), vs[i]? = some v ∧ 6 ≤ i ∧ ∀ x, v ≠ .float64 (some x)

theorem extractF64Array_panics {k : String} {d : List F} (hd : d.length = 6)
    (hk : ∃ v, state k = some v) :
    extractF64Array state k d = .error .panic ↔ OverlongMix state k := by
  obtain ⟨v, hv⟩ := hk
  have hvalue : getValue state k = .ok v := by
    unfold getValue
    rw [hv]
    rfl
  by_cases harray : ∃ vs, v = .array (some vs)
  · obtain ⟨vs, rfl⟩ := harray
    have hextract : extractF64Array state k d = extractFrom d 0 vs := by
      unfold extractF64Array
      rw [hvalue]
      rfl
    rw [hextract, extractFrom_panics]
    constructor
    · intro h
      obtain ⟨j, u, hj, hu, hnone⟩ := h
      rw [Nat.zero_add, List.getElem?_eq_none_iff, hd] at hnone
      exact ⟨vs, hv, j, u, hj, hnone, hu⟩
    · intro h
      obtain ⟨vs', hvs, j, u, hj, h6, hu⟩ := h
      rw [hv] at hvs
      cases hvs
      refine ⟨j, u, hj, hu, ?_⟩
      rwa [Nat.zero_add, List.getElem?_eq_none_iff, hd]
  · have hextract : extractF64Array state k d = .ok d := by
      unfold extractF64Array
      rw [hvalue]
      cases v with
      | array vs =>
          cases vs with
          | some vs => exact (harray ⟨vs, rfl⟩).elim
          | none => rfl
      | _ => rfl
    -- anything but an array gives the default, whatever its length
    rw [hextract]
    refine iff_of_false ?_ ?_
    · intro h; cases h
    · intro h
      obtain ⟨vs, hvs, -⟩ := h
      rw [hv] at hvs
      exact harray ⟨vs, Option.some.inj hvs⟩

theorem extractF64Array_not_failed (k : String) (d : List F) (reason : String) :
    extractF64Array state k d ≠ .error (.failed reason) := by
  intro h
  rcases Except.bind_eq_error.mp h with h | ⟨v, -, h⟩
  · cases (Except.ofOption_eq_error.mp h).2
  · split at h
    · exact extractFrom_not_failed _ _ _ _ h
    · cases h

variable [Field F]

/-- Reading a request panics over its three vectors only. -/
theorem readRequest_panics (h : missing env state = []) :
    readRequest acc env state = .error .panic
      ↔ OverlongMix state (key env "joint_positions")
        ∨ OverlongMix state (key env "preferred_joint_config")
        ∨ OverlongMix state (key env "relative_pose") := by
  have hpresent : ∀ suffix ∈ requestSuffixes, ∃ v, state (key env suffix) = some v := by
    intro suffix hs
    exact present_of_missing h hs
  have hget : ∀ suffix ∈ requestSuffixes, ∀ {α : Type} (read : SPValue F → α → α) (d : α),
      ∃ a, getOr read state (key env suffix) d = .ok a := by
    intro suffix hs α read d
    exact getOr_ok (hpresent suffix hs) read d
  unfold readRequest
  -- the typed reads before the vectors
  iterate 21 refine panic_of_ok (hget _ (by decide) _ _) fun _ => ?_
  rw [← extractF64Array_panics (d := safeHomeJointState) rfl
      (hpresent "joint_positions" (by decide)),
    ← extractF64Array_panics (d := safeHomeJointState) rfl
      (hpresent "preferred_joint_config" (by decide)),
    ← extractF64Array_panics (d := List.replicate 6 0) rfl
      (hpresent "relative_pose" (by decide))]
  -- of these the first that panics decides, and none of them fails otherwise
  refine panic_or (extractF64Array_not_failed _ _) fun _ => ?_
  refine panic_or (extractF64Array_not_failed _ _) fun _ => ?_
  refine (panic_or (p := False) (extractF64Array_not_failed _ _) fun _ => ?_).trans
    (or_false _).to_iff
  refine iff_of_false ?_ id
  intro hc
  cases hc

/-! ### Everything else fails the request -/

omit [Field F] in
theorem lookupTransform_not_panic (n : Nat) (parent child reason : String) :
    lookupTransform env n parent child reason ≠ .error .panic := by
  intro h
  cases (Except.ofOption_eq_error.mp (Except.map_eq_error.mp h)).2

omit [Field F] in
/-- Two lookups, one after the other. -/
theorem lookups_not_panic {n n' : Nat} {parent child reason parent' child' reason' : String} :
    ((lookupTransform env n parent child reason).bind fun target =>
      (lookupTransform env n' parent' child' reason').bind fun tcp =>
        Except.ok (target, tcp)) ≠ .error .panic := by
  intro h
  rcases Except.bind_eq_error.mp h with h | ⟨target, -, h⟩
  · exact lookupTransform_not_panic _ _ _ _ h
  · rcases Except.bind_eq_error.mp h with h | ⟨tcp, -, h⟩
    · exact lookupTransform_not_panic _ _ _ _ h
    · cases h

omit [Field F] in
theorem requestFrames_not_panic (ct : String) (raw : RequestRaw F) :
    requestFrames env ct raw ≠ .error .panic := by
  unfold requestFrames
  split
  · exact lookups_not_panic
  · intro h
    cases h

omit [Field F] in
theorem waypointFrames_not_panic (raw : RequestRaw F) (n : Nat) (tcp : String)
    (wpr : WaypointRaw F) : waypointFrames env raw n tcp wpr ≠ .error .panic := by
  unfold waypointFrames
  split
  · exact lookups_not_panic
  · intro h
    cases h

omit [Field F] in
theorem waypointsWithFrames_not_panic (raw : RequestRaw F) (wprs : List (WaypointRaw F))
    (n : Nat) (tcp : String) : waypointsWithFrames env raw n tcp wprs ≠ .error .panic := by
  induction wprs generalizing n tcp with
  | nil =>
      intro h
      cases h
  | cons wpr rest ih =>
      intro h
      rcases Except.bind_eq_error.mp h with h | ⟨frames, -, h⟩
      · exact waypointFrames_not_panic raw n tcp wpr h
      · exact ih _ _ (Except.map_eq_error.mp h)

theorem readWaypoints_not_panic (h : missing env state = []) :
    readWaypoints env state ≠ .error .panic := by
  intro hp
  have hmem : "waypoints" ∈ requestSuffixes := by decide
  obtain ⟨v, hv⟩ := present_of_missing h hmem
  rcases Except.bind_eq_error.mp hp with hp | ⟨u, -, hp⟩
  · rw [(Except.ofOption_eq_error.mp hp).1] at hv
    cases hv
  · split at hp
    · cases hp
    · cases (Except.ofOption_eq_error.mp hp).2

omit [Field F] in
theorem planned_not_panic (command : RobotCommand F) : planned env command ≠ .error .panic := by
  unfold planned
  split
  · intro h
    obtain ⟨e, -, he⟩ := Except.mapError_eq_error.mp (Except.map_eq_error.mp h)
    cases he
  · intro h
    cases h

/-- Decoding panics exactly over a request it has not refused by then. -/
theorem prepare_panics : prepare acc env state = .error .panic
    ↔ missing env state = [] ∧ commandType acc env state ++ ".script" ∈ env.templateNames
      ∧ (OverlongMix state (key env "joint_positions")
        ∨ OverlongMix state (key env "preferred_joint_config")
        ∨ OverlongMix state (key env "relative_pose")) := by
  constructor
  · intro h
    rcases Except.bind_eq_error.mp h with h | ⟨_, hmissing, h⟩
    · cases (Except.require_eq_error.mp h).2
    have hall : missing env state = [] := Except.require_eq_ok.mp hmissing
    rcases Except.bind_eq_error.mp h with h | ⟨_, hname, h⟩
    · cases (Except.require_eq_error.mp h).2
    refine ⟨hall, Except.require_eq_ok.mp hname, ?_⟩
    rcases Except.bind_eq_error.mp h with h | ⟨raw, -, h⟩
    · exact (readRequest_panics hall).mp h
    -- after the request is read nothing panics
    exfalso
    rcases Except.bind_eq_error.mp h with h | ⟨frames, -, h⟩
    · exact requestFrames_not_panic _ _ h
    rcases Except.bind_eq_error.mp h with h | ⟨wprs, -, h⟩
    · exact readWaypoints_not_panic hall h
    rcases Except.bind_eq_error.mp h with h | ⟨done, -, h⟩
    · exact waypointsWithFrames_not_panic _ _ _ _ h
    rcases Except.bind_eq_error.mp h with h | ⟨command, -, h⟩
    · exact planned_not_panic _ h
    obtain ⟨e, -, he⟩ := Except.mapError_eq_error.mp (Except.map_eq_error.mp h)
    cases he
  · intro h
    obtain ⟨hall, hname, hmix⟩ := h
    refine Except.bind_eq_error.mpr (.inr ⟨(), Except.require_eq_ok.mpr hall, ?_⟩)
    refine Except.bind_eq_error.mpr (.inr ⟨(), Except.require_eq_ok.mpr hname, ?_⟩)
    exact Except.bind_eq_error.mpr (.inl ((readRequest_panics hall).mpr hmix))

/-- The request is turned away before its vectors are read. -/
def Refused (acc : Accessors F) (env : Surroundings F T) (state : SPState F) : Prop :=
  missing env state ≠ [] ∨ commandType acc env state ++ ".script" ∉ env.templateNames

/--
**Every trigger is answered.** A tick that has consumed a trigger ends with exactly one
answer, whatever the other tasks do in between, if and only if it refuses the request before
reading its vectors or none of the three has something other than a float beyond its sixth
place, and, where it fails the request, neither failure counter is at its last value.
-/
theorem tick_answered_iff (acc : Accessors F) (env : Surroundings F T) (state : SPState F)
    (uuid : String) (g : Nat) (seen : Nat → Shared F) :
    Answered (prepare acc env state) uuid g seen
      ↔ (Refused acc env state
        ∨ ∀ suffix ∈ ["joint_positions", "preferred_joint_config", "relative_pose"],
            ¬ OverlongMix state (key env suffix))
        ∧ ∀ keys, Fails (prepare acc env state) seen keys → Roomy keys := by
  rw [answered_iff]
  refine and_congr_left fun _ => ?_
  rw [ne_eq, prepare_panics, Refused]
  simp only [List.mem_cons, List.not_mem_nil, or_false, forall_eq_or_imp, forall_eq]
  tauto

/-! ### A request that is never answered -/

/-- Accessors that take a value of their own type only. -/
def typedAccessors : Accessors ℚ where
  bool v default := v.flag.getD default
  float
    | .float64 (some x), _ => x
    | _, default => default
  string v default := v.text.getD default

/-- A driver with one template. -/
def oneTemplate : Surroundings ℚ Unit where
  robotName := "robot"
  tfPrefix := ""
  templateNames := ["safe_move_j.script"]
  lookup := fun _ _ _ => none
  transformToString := fun _ => "p[0,0,0,0,0,0]"
  defaultTransform := ()
  jointValues := []
  plan := fun _ _ => .error "a planned trajectory needs at least one waypoint"
  render := fun command => .ok command.commandType

/-- Seven joint positions, the last of them an integer. -/
def sevenJoints : SPState ℚ := fun k =>
  if k = "robot_joint_positions" then
    some (.array (some (List.replicate 6 (.float64 (some 0)) ++ [.int64 (some 0)])))
  else if k = "robot_command_type" then some (.string (some "safe_move_j"))
  else if k = "robot_use_joint_positions" then some (.bool (some true))
  else some (.string none)

theorem not_answered_sevenJoints :
    ¬ Answered (prepare typedAccessors oneTemplate sevenJoints) "goal" 0
      fun _ => Shared.init := by
  rw [answered_iff]
  refine fun h => h.1 (prepare_panics.mpr ⟨by decide, by decide, .inl ?_⟩)
  refine ⟨_, rfl, 6, .int64 (some 0), rfl, le_rfl, ?_⟩
  intro x h
  cases h

end Panic

end UrRedisDriver.Proof
