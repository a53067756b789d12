import UrRedisDriver.Cell
import UrRedisDriver.Interfaces.Prepare
import UrRedisDriver.Proof.Counters

/-!
# Drivers of one cell do not meet

Two robots have a key in common exactly if they have one name, or the name of one is that of the
other with one of three words behind it. Where no two names are like that, each driver of a cell
is at any time in a state it could have got to with Redis for itself, whatever the others do.
-/

namespace UrRedisDriver.Proof

open UrRedisDriver

variable {F : Type}

/-! ## Keys of two robots -/

/-- All the keys of a robot. -/
def robotKeys (robotName : String) : Set String :=
  {k | ∃ suffix ∈ interfaceSuffixes, k = robotKey robotName suffix}

/-- The words that stand in front of another suffix in one of the suffixes. -/
def frontWords : List String := ["dashboard", "gripper", "use"]

theorem robotKey_toList (r s : String) : (robotKey r s).toList = r.toList ++ '_' :: s.toList := by
  simp only [robotKey, String.toList_append]
  rw [List.append_assoc]
  rfl

theorem robotKey_injective (r : String) : Function.Injective (robotKey r) := by
  intro s s' h
  have hl := congrArg String.toList h
  rw [robotKey_toList, robotKey_toList] at hl
  exact String.toList_inj.mp (List.cons.inj (List.append_cancel_left hl)).2

theorem suffix_in_suffix : ∀ s ∈ interfaceSuffixes, ∀ s' ∈ interfaceSuffixes,
    ('_' :: s'.toList).isSuffixOf s.toList = true →
      s.toList.take (s.toList.length - (s'.toList.length + 1)) ∈ frontWords.map String.toList := by
  decide +kernel

theorem frontWord_of_eq {s s' : String} {t : List Char} (hs : s ∈ interfaceSuffixes)
    (hs' : s' ∈ interfaceSuffixes) (h : s.toList = t ++ '_' :: s'.toList) :
    ∃ word ∈ frontWords, t = word.toList := by
  have hsuffix : ('_' :: s'.toList).isSuffixOf s.toList = true :=
    List.isSuffixOf_iff_suffix.mpr ⟨t, h.symm⟩
  have hmem := suffix_in_suffix s hs s' hs' hsuffix
  have htake : s.toList.take (s.toList.length - (s'.toList.length + 1)) = t := by
    rw [h, List.length_append, List.length_cons, Nat.add_sub_cancel, List.take_left]
  rw [htake] at hmem
  obtain ⟨word, hword, hw⟩ := List.mem_map.mp hmem
  exact ⟨word, hword, hw.symm⟩

/-- A shorter name, of which a key is one of a longer name. -/
theorem name_of_longer {r r' s s' : String} {a : List Char} (hs : s ∈ interfaceSuffixes)
    (hs' : s' ∈ interfaceSuffixes) (hr : r'.toList = r.toList ++ a)
    (h : '_' :: s.toList = a ++ '_' :: s'.toList) :
    r' = r ∨ ∃ word ∈ frontWords, r' = robotKey r word := by
  cases a with
  | nil => exact .inl (String.toList_inj.mp (by rw [hr, List.append_nil]))
  | cons c t =>
      obtain ⟨rfl, ht⟩ := List.cons.inj h
      obtain ⟨word, hword, rfl⟩ := frontWord_of_eq hs hs' ht
      refine .inr ⟨word, hword, ?_⟩
      rw [← String.toList_inj, robotKey_toList, hr]

/-- The name of one robot is that of the other, or that with one of the words behind it. -/
def NamesMeet (r r' : String) : Prop :=
  r' = r ∨ (∃ word ∈ frontWords, r' = robotKey r word) ∨ ∃ word ∈ frontWords, r = robotKey r' word

instance (r r' : String) : Decidable (NamesMeet r r') := inferInstanceAs (Decidable (_ ∨ _))

theorem namesMeet_of_key {r r' k : String} (h : k ∈ robotKeys r) (h' : k ∈ robotKeys r') :
    NamesMeet r r' := by
  obtain ⟨s, hs, rfl⟩ := h
  obtain ⟨s', hs', heq⟩ := h'
  have hl := congrArg String.toList heq
  rw [robotKey_toList, robotKey_toList] at hl
  rcases List.append_eq_append_iff.mp hl with ⟨a, hr, ha⟩ | ⟨a, hr, ha⟩
  · exact (name_of_longer hs hs' hr ha).elim .inl fun h => .inr (.inl h)
  · exact (name_of_longer hs' hs hr ha).elim (fun h => .inl h.symm) fun h => .inr (.inr h)

/-- A request state that is read back as it was written. -/
def Plain (st : ActionRequestState) : Prop := ActionRequestState.ofText st.text = st

theorem ofText_plain (s : String) : Plain (.ofText s) := by
  unfold Plain ActionRequestState.ofText
  split
  · rfl
  split
  · rfl
  split
  · rfl
  split
  · rfl
  · simp only [ActionRequestState.text, *, if_false]

attribute [ext] RequestKeys

section Keys

variable {robotName : String} {state : SPState F} {old new : RequestKeys}

theorem requestFields_nodup : ((requestFields (F := F)).map KeyField.suffix).Nodup := by
  have h : (requestFields (F := F)).map KeyField.suffix
      = (requestFields (F := Unit)).map KeyField.suffix := rfl
  rw [h]
  decide

theorem requestFields_seeded {f : KeyField F} (hf : f ∈ requestFields) :
    f.suffix ∈ interfaceSuffixes := by
  have h : ∀ s ∈ (requestFields (F := Unit)).map KeyField.suffix, s ∈ interfaceSuffixes := by
    decide
  exact h f.suffix (List.mem_map_of_mem (f := KeyField.suffix) hf)

/-- A key is set if the two requests differ there, and else left alone. -/
theorem setAll_keyWrites {f : KeyField F} (hf : f ∈ requestFields) :
    SharedMap.setAll state (keyWrites robotName old new) (robotKey robotName f.suffix)
      = if f.differs old new then some (f.value new) else state (robotKey robotName f.suffix) := by
  have hkeys : (keyWrites (F := F) robotName old new).map Prod.fst
      = (((requestFields (F := F)).filter fun f => f.differs old new).map KeyField.suffix).map
        (robotKey robotName) := by
    simp only [keyWrites, List.map_map, Function.comp_def]
  split
  · rename_i hd
    refine SharedMap.setAll_of_nodup (e := (robotKey robotName f.suffix, some (f.value new))) state
      ?_ (List.mem_map.mpr ⟨f, List.mem_filter.mpr ⟨hf, hd⟩, rfl⟩)
    rw [hkeys]
    exact ((List.filter_sublist.map _).nodup requestFields_nodup).map
      (robotKey_injective robotName)
  · rename_i hd
    refine SharedMap.setAll_of_not_mem state ?_
    rw [hkeys]
    intro hmem
    obtain ⟨suffix, hs, hkey⟩ := List.mem_map.mp hmem
    obtain ⟨g, hg, rfl⟩ := List.mem_map.mp hs
    obtain ⟨hg, hgd⟩ := List.mem_filter.mp hg
    -- no other field has this suffix
    have hgf : g = f := List.inj_on_of_nodup_map requestFields_nodup hg hf
      (robotKey_injective robotName hkey)
    exact hd (hgf ▸ hgd)

/-- What is read of a field is what the new request has there. -/
theorem read_keyWrites {α : Type} [DecidableEq α] (suffix : String) (get : RequestKeys → α)
    (toSpValue : α → SPValue F) (read : Option (SPValue F) → α)
    (hf : keyField suffix get toSpValue ∈ requestFields)
    (hread : read (some (toSpValue (get new))) = get new)
    (hold : read (state (robotKey robotName suffix)) = get old) :
    read (SharedMap.setAll state (keyWrites robotName old new) (robotKey robotName suffix))
      = get new := by
  have hset : SharedMap.setAll state (keyWrites robotName old new) (robotKey robotName suffix)
      = if (get old != get new) = true then some (toSpValue (get new))
        else state (robotKey robotName suffix) :=
    @setAll_keyWrites F robotName state old new _ hf
  rw [hset]
  by_cases hd : (get old != get new) = true
  · rw [if_pos hd]
    exact hread
  · rw [if_neg hd, hold]
    simpa using hd

/-- The two request states are read back as they are written. -/
def PlainKeys (keys : RequestKeys) : Prop :=
  Plain keys.requestState ∧ Plain keys.dashboardRequestState

/-- Setting the keys that differ makes the new request of the one that was there. -/
theorem readRequestKeys_set (hnew : PlainKeys new) :
    readRequestKeys robotName
      (SharedMap.setAll state (keyWrites robotName (readRequestKeys robotName state) new))
        = new := by
  obtain ⟨hstate, hdashboard⟩ := hnew
  have hf : ∀ (i : ℕ) {f : KeyField F}, requestFields[i]? = some f → f ∈ requestFields :=
    fun _ _ h => List.mem_of_getElem? h
  -- each field is read back from its own key, through the same decoding that reads it at a tick
  apply RequestKeys.ext
  · exact read_keyWrites "request_trigger" _ .ofBool (stateBoolOr · false) (hf 0 rfl) rfl rfl
  · exact read_keyWrites "request_state" _ .ofState
      (fun v => .ofText (stateTextOr v "UNKNOWN")) (hf 1 rfl) hstate rfl
  · exact read_keyWrites "request_cancel" _ .ofBool (stateBoolOr · false) (hf 2 rfl) rfl rfl
  · exact read_keyWrites "request_result" _ .ofText (stateTextOr · "UNKNOWN") (hf 3 rfl) rfl rfl
  · exact read_keyWrites "request_feedback" _ .ofText (stateTextOr · "UNKNOWN") (hf 4 rfl) rfl rfl
  · exact read_keyWrites "total_fail_counter" _ .ofInt (stateIntOr · 0) (hf 5 rfl) rfl rfl
  · exact read_keyWrites "subsequent_fail_counter" _ .ofInt (stateIntOr · 0) (hf 6 rfl) rfl rfl
  · exact read_keyWrites "dashboard_request_trigger" _ .ofBool (stateBoolOr · false) (hf 7 rfl)
      rfl rfl
  · exact read_keyWrites "dashboard_request_state" _ .ofState
      (fun v => .ofText (stateTextOr v "UNKNOWN")) (hf 8 rfl) hdashboard rfl
  · exact read_keyWrites "dashboard_command" _ .ofText (stateTextOr · "UNKNOWN") (hf 9 rfl) rfl rfl
  · exact read_keyWrites "dashboard_command_arg" _ .ofText (stateTextOr · "") (hf 10 rfl) rfl rfl
  · exact read_keyWrites "dashboard_request_result" _ .ofText (stateTextOr · "UNKNOWN") (hf 11 rfl)
      rfl rfl

/-- Nothing but the keys of the robot decides what is read. -/
theorem readRequestKeys_congr {state' : SPState F}
    (h : ∀ k ∈ robotKeys robotName, state k = state' k) :
    readRequestKeys robotName state = readRequestKeys robotName state' := by
  have hk : ∀ suffix ∈ interfaceSuffixes,
      state (robotKey robotName suffix) = state' (robotKey robotName suffix) :=
    fun suffix hs => h _ ⟨suffix, hs, rfl⟩
  unfold readRequestKeys
  dsimp only
  rw [hk "request_trigger" (by decide), hk "request_state" (by decide),
    hk "request_cancel" (by decide), hk "request_result" (by decide),
    hk "request_feedback" (by decide), hk "total_fail_counter" (by decide),
    hk "subsequent_fail_counter" (by decide), hk "dashboard_request_trigger" (by decide),
    hk "dashboard_request_state" (by decide), hk "dashboard_command" (by decide),
    hk "dashboard_command_arg" (by decide), hk "dashboard_request_result" (by decide)]

/-! ## What a driver starts from -/

theorem seedWrites_keys :
    (seedWrites (F := F) robotName).map Prod.fst = interfaceSuffixes.map (robotKey robotName) := by
  have hsuffixes : interfaceSuffixes = (interfaceSeeds (F := F)).map Prod.fst := rfl
  simp only [seedWrites, generateRobotInterfaceState, hsuffixes, List.map_map, Function.comp_def]

theorem interfaceSuffixes_nodup : interfaceSuffixes.Nodup := by decide +kernel

/-- Whatever was in Redis, a key of the robot has its seed once the driver has started. -/
theorem setAll_seedWrites {e : String × SPValue F} (he : e ∈ interfaceSeeds) :
    SharedMap.setAll state (seedWrites robotName) (robotKey robotName e.1) = some e.2 := by
  refine SharedMap.setAll_of_nodup (e := (robotKey robotName e.1, some e.2)) state ?_ ?_
  · rw [seedWrites_keys]
    exact interfaceSuffixes_nodup.map (robotKey_injective robotName)
  · rw [seedWrites, generateRobotInterfaceState, List.map_map]
    exact List.mem_map.mpr ⟨e, he, rfl⟩

/-- The request keys as they are seeded. -/
def seededKeys : RequestKeys := { dashboardCommandArg := "" }

theorem readRequestKeys_seeded :
    readRequestKeys robotName (SharedMap.setAll state (seedWrites robotName)) = seededKeys := by
  have hseed : ∀ (i : ℕ) {e : String × SPValue F}, interfaceSeeds[i]? = some e →
      SharedMap.setAll state (seedWrites robotName) (robotKey robotName e.1) = some e.2 :=
    fun _ _ h => setAll_seedWrites (List.mem_of_getElem? h)
  unfold readRequestKeys
  dsimp only
  rw [hseed 0 rfl, hseed 1 rfl, hseed 2 rfl, hseed 3 rfl, hseed 4 rfl, hseed 11 rfl, hseed 12 rfl,
    hseed 5 rfl, hseed 6 rfl, hseed 8 rfl, hseed 9 rfl, hseed 10 rfl]
  rfl

end Keys

/-! ## Request states stay plain -/

section Plain

variable {cfg : Config F} {w w' : World F}

/-- What the client writes as a request state is read back as it is: it is text. -/
def plainAction : DriverAction F → Bool
  | .act (.client (.requestState st)) | .act (.client (.dashboardRequestState st)) =>
      decide (ActionRequestState.ofText st.text = st)
  | _ => true

abbrev PlainAction (a : DriverAction F) : Prop := plainAction a = true

theorem plainKeys_client {keys : RequestKeys} {i : ClientWrite} (hp : PlainKeys keys)
    (ha : PlainAction (F := F) (.act (.client i))) : PlainKeys (World.clientStep keys i) := by
  cases i with
  | requestState st =>
      have hplain : ActionRequestState.ofText st.text = st := of_decide_eq_true ha
      exact ⟨hplain, hp.2⟩
  | dashboardRequestState st =>
      have hplain : ActionRequestState.ofText st.text = st := of_decide_eq_true ha
      exact ⟨hp.1, hplain⟩
  | _ => exact hp

theorem plainKeys_fail {keys : RequestKeys} (reason : String) (step : FailStep)
    (hp : PlainKeys keys) : PlainKeys (failRequest reason keys step).1 := by
  cases step with
  | publishState => exact ⟨rfl, hp.2⟩
  | _ => exact hp

theorem plainKeys_command {g : ℕ} {s s' : Shared F} {p p' : CommandPhase F} {i : CommandInput F}
    (hp : PlainKeys s.keys) (h : CommandServer.step g s p i = some (s', p')) :
    PlainKeys s'.keys := by
  unfold CommandServer.step at h
  split at h
  · split at h
    · cases h; exact hp
    · split at h <;> cases h <;> exact hp
  · cases h; exact hp
  · cases h
    unfold CommandServer.deliverCancel
    split <;> exact hp
  · cases h; exact hp
  · cases h; exact hp
  · cases h; exact hp
  · split at h <;> cases h <;> exact hp
  -- the goal is announced
  · cases h; exact ⟨rfl, hp.2⟩
  · cases h; exact hp
  · rename_i reason step
    have hfail := plainKeys_fail reason step hp
    split at h
    · rename_i hf
      cases h
      rwa [hf] at hfail
    · rename_i hf
      cases h
      rwa [hf] at hfail
  · cases h

theorem plainKeys_server {up : Bool} {s s' : Shared F} {p p' : ServerPhase} {i : ServerInput}
    (hp : PlainKeys s.keys) (h : DashboardServer.step up s p i = some (s', p')) :
    PlainKeys s'.keys := by
  unfold DashboardServer.step at h
  split at h
  · split at h <;> cases h <;> exact hp
  · cases h; exact hp
  · cases h; exact ⟨hp.1, rfl⟩
  · split at h <;> cases h
    exact hp
  · split at h <;> cases h
    exact hp
  · split at h <;> cases h
    exact hp
  · cases h; exact hp
  · cases h
    -- the terminal state is one of the two words
    refine ⟨hp.1, ?_⟩
    dsimp only
    split <;> rfl
  · cases h

theorem plainKeys_redisOp {t t' : Task F} {keys keys' : RequestKeys} (hp : PlainKeys keys)
    (h : t.redisOp keys = some (keys', t')) : PlainKeys keys' := by
  unfold Task.redisOp at h
  split at h
  · cases h; exact hp
  · -- `SUCCEEDED` is written
    cases h; exact ⟨rfl, hp.2⟩
  · cases h; exact hp
  · rename_i step _
    have hfail := plainKeys_fail t.message step hp
    split at h
    · rename_i hf
      cases h
      rwa [hf] at hfail
    · rename_i hf
      cases h
      rwa [hf] at hfail
  · cases h

/-- Whoever takes a step, it writes no request state that is read back as another. -/
theorem plainKeys_step {a : Action F} (hp : PlainKeys w.shared.keys)
    (ha : PlainAction (.act a)) (h : World.step cfg w a = some w') :
    PlainKeys w'.shared.keys := by
  cases a with
  | client i =>
      rw [World.step_client h]
      exact plainKeys_client hp ha
  | robot i =>
      obtain ⟨s, hs, rfl⟩ := World.step_robot h
      obtain ⟨backlog, running, rfl⟩ := World.robotStep_frame hs
      exact hp
  | command i =>
      obtain ⟨s, p, hs, rfl, -⟩ := World.step_command_eq h
      exact plainKeys_command hp hs
  | task g i =>
      -- of the steps of a task only a Redis operation touches the keys
      by_cases hi : ∃ keys, i = .redis keys
      · obtain ⟨keys, rfl⟩ := hi
        obtain ⟨t, keys', t', -, hop, rfl⟩ := step_task_redis h
        exact plainKeys_redisOp hp hop
      · obtain ⟨t, t', ht, -, hm, rfl⟩ := World.step_task h
        show PlainKeys (World.effect cfg w.dashboard.up w.shared g t i).keys
        cases i with
        | redis keys => exact absurd ⟨keys, rfl⟩ hi
        | write r => cases r <;> exact hp
        | feedback m => cases m <;> exact hp
        | sendStop r => cases r <;> exact hp
        | _ => exact hp
  | socket i =>
      obtain ⟨s, p, hm, rfl⟩ := World.step_socket h
      cases hm with
      | ok | error | close =>
          have hkeys := fun v r => resolveGoal_keys w.shared v r
          exact (congrArg PlainKeys (hkeys _ _)).mpr hp
      | _ => exact hp
  | realtime i =>
      obtain ⟨s, p, hm, rfl⟩ := World.step_realtime h
      cases hm with
      | abort => exact (congrArg PlainKeys (resolveGoal_keys w.shared false .safetyStop)).mpr hp
      | _ => exact hp
  | dashboard i => cases World.step_dashboard h <;> exact hp
  | server i =>
      obtain ⟨s, p, hs, rfl⟩ := World.step_server_eq h
      exact plainKeys_server hp hs

end Plain

/-! ## A driver by itself -/

section Driver

variable [Zero F] {cfg : Config F} {robotName : String}

/-- A driver has to do with the keys of its robot only. -/
theorem driver_owns : SharedMap.Owns (driver cfg robotName) (robotKeys robotName) where
  reads := by
    intro m m' hagree s a
    cases s with
    -- before it is started the driver reads nothing
    | none => cases a <;> rfl
    | some w =>
        cases a with
        | start => rfl
        | act a =>
            unfold driver
            dsimp only
            rw [readRequestKeys_congr hagree]
  writes := by
    intro m s s' a es h e he
    unfold driver at h
    split at h
    · -- the first start seeds every key of the interface
      cases h
      have hkey : e.1 ∈ interfaceSuffixes.map (robotKey robotName) := by
        rw [← seedWrites_keys (F := F)]
        exact List.mem_map_of_mem he
      obtain ⟨suffix, hs, hk⟩ := List.mem_map.mp hkey
      exact ⟨suffix, hs, hk.symm⟩
    · obtain ⟨w', -, hr⟩ := Option.map_eq_some_iff.mp h
      cases hr
      obtain ⟨f, hf, rfl⟩ := List.mem_map.mp he
      exact ⟨f.suffix, requestFields_seeded (List.mem_of_mem_filter hf), rfl⟩
    · cases h

/-- What a driver is like, with what is in Redis for it. -/
structure InRun (cfg : Config F) (robotName : String) (state : SPState F) (w : World F) :
    Prop where
  /-- It is in a state of a run by itself. -/
  run : Run cfg (fun _ _ => True) (w.withKeys (readRequestKeys robotName state))
  /-- None of its keys is missing. -/
  present : ∀ suffix ∈ interfaceSuffixes, (state (robotKey robotName suffix)).isSome = true

theorem InRun.start {state : SPState F} :
    InRun cfg robotName (SharedMap.setAll state (seedWrites robotName)) World.init where
  run := by
    rw [readRequestKeys_seeded]
    -- `dashboard_command_arg` is read as empty where it has no value
    exact .tail (a := .client (.dashboardRequest "UNKNOWN" "")) .init trivial rfl
  present := by
    intro suffix hs
    obtain ⟨e, he, rfl⟩ : ∃ e ∈ interfaceSeeds (F := F), e.1 = suffix := List.mem_map.mp hs
    rw [setAll_seedWrites he]
    rfl

theorem InRun.act {state : SPState F} {w w' : World F} {a : Action F}
    (h : InRun cfg robotName state w) (ha : PlainAction (.act a))
    (hs : World.step cfg (w.withKeys (readRequestKeys robotName state)) a = some w') :
    InRun cfg robotName (SharedMap.setAll state
      (keyWrites robotName (readRequestKeys robotName state) w'.shared.keys)) w' where
  run := by
    have hplain : PlainKeys w'.shared.keys :=
      plainKeys_step ⟨ofText_plain _, ofText_plain _⟩ ha hs
    rw [readRequestKeys_set hplain]
    exact .tail h.run trivial hs
  present := by
    intro suffix hsuffix
    -- a write puts a value where one was, so no key goes missing
    refine SharedMap.setAll_keeps (P := fun v : Option (SPValue F) => v.isSome = true)
      (h.present suffix hsuffix) ?_
    intro e he
    obtain ⟨f, -, rfl⟩ := List.mem_map.mp he
    rfl

/-- The run of a driver that has Redis for itself. -/
theorem inRun_alone {state₀ : SPState F} {x : SPState F × Option (World F)}
    (h : Lts.ReachableBy (SharedMap.alone (driver cfg robotName)) (fun _ a => PlainAction a)
      (state₀, none) x) (w : World F) (hw : x.2 = some w) : InRun cfg robotName x.1 w := by
  refine h.invariant (I := fun x => ∀ w, x.2 = some w → InRun cfg robotName x.1 w) ?_ ?_ w hw
  · intro w hw
    cases hw
  · rintro ⟨state, s⟩ a ⟨state', s'⟩ - hI ha hs w' rfl
    obtain ⟨es, hP, rfl⟩ := SharedMap.alone_eq_some.mp hs
    dsimp only at hP ha hI
    cases s with
    | none =>
        -- what a driver leaves behind when it starts is its seed
        cases a with
        | start => cases hP; exact .start
        | act a => cases hP
    | some w =>
        cases a with
        | start => cases hP
        | act a =>
            obtain ⟨w'', hstep, hr⟩ := Option.map_eq_some_iff.mp hP
            cases hr
            exact (hI w rfl).act ha hstep

end Driver

/-! ## The cell -/

theorem requestSuffixes_seeded : ∀ suffix ∈ requestSuffixes, suffix ∈ interfaceSuffixes := by
  decide

/-- The drivers of a cell, whatever is in Redis before, in any order of their steps. -/
abbrev CellRun [Zero F] {ι : Type} [DecidableEq ι] (cfg : ι → Config F) (robotName : ι → String)
    (state₀ : SPState F) (x : SPState F × (ι → Option (World F))) : Prop :=
  Lts.ReachableBy (SharedMap.together fun i => driver (cfg i) (robotName i))
    (fun _ a => PlainAction a.2) (state₀, fun _ => none) x

/--
**Drivers of one cell do not meet.** Where no two names have a key in common, each driver that
has started is in a state of a run by itself, with the request keys as it finds them in Redis,
and no request of it is turned away for a key that is missing.
-/
theorem drivers_isolated [Field F] {T ι : Type} [DecidableEq ι] {cfg : ι → Config F}
    {robotName : ι → String} (hapart : ∀ i j, i ≠ j → ¬ NamesMeet (robotName i) (robotName j))
    {state₀ : SPState F} {x : SPState F × (ι → Option (World F))}
    (h : CellRun cfg robotName state₀ x) (i : ι) (w : World F) (hw : x.2 i = some w) :
    Run (cfg i) (fun _ _ => True) (w.withKeys (readRequestKeys (robotName i) x.1))
      ∧ ∀ env : Surroundings F T, env.robotName = robotName i →
        CommandServer.missing env x.1 = [] := by
  have hkeys : ∀ i j, i ≠ j → ∀ k ∈ robotKeys (robotName i), k ∉ robotKeys (robotName j) :=
    fun i j hij k hi hj => hapart i j hij (namesMeet_of_key hi hj)
  -- what this driver sees of the shared store is a run of it alone
  obtain ⟨state, halone, hagree⟩ := SharedMap.isolated (fun i => driver_owns) hkeys h i
  have hin := inRun_alone halone w hw
  refine ⟨?_, ?_⟩
  · rw [← readRequestKeys_congr hagree]
    exact hin.run
  · rintro env henv
    refine List.filter_eq_nil_iff.mpr ?_
    intro k hk
    obtain ⟨suffix, hs, rfl⟩ := List.mem_map.mp hk
    have hsuffix : suffix ∈ interfaceSuffixes := requestSuffixes_seeded suffix hs
    have hkey : CommandServer.key env suffix = robotKey (robotName i) suffix := by
      rw [← henv]
      rfl
    have hpresent : (state (robotKey (robotName i) suffix)).isSome = true :=
      hin.present suffix hsuffix
    rw [hagree _ ⟨suffix, hsuffix, rfl⟩] at hpresent
    rw [hkey]
    simpa using Option.isSome_iff_ne_none.mp hpresent

namespace Scenario

/-- Two robots with scripts of their own. -/
def pair : Bool → Config ℚ :=
  fun second => ⟨fun _ => .ok (if second then "lift" else "hold"), "192.168.0.10", 50000⟩

def pairNames : Bool → String := fun second => if second then "r2" else "r1"

/-- The first robot takes up a request while the second is started and asked for a motion. -/
def pairStarted : List (Bool × DriverAction ℚ) :=
  [ (false, .start), (false, .act (.client (.requestTrigger true))), (true, .start),
    (false, .act (.command .tick)), (true, .act (.client (.requestTrigger true))),
    (false, .act (.command .redis))]

end Scenario

open Scenario

set_option maxRecDepth 8000 in
/-- The trigger of the second robot is no trigger of the first. -/
theorem drivers_isolated_pair : ∃ (x : SPState ℚ × (Bool → Option (World ℚ))) (w : World ℚ),
    CellRun pair pairNames (fun _ => none) x ∧ x.2 false = some w
      ∧ (readRequestKeys "r2" x.1).requestTrigger = true
      ∧ Run (pair false) (fun _ _ => True) (w.withKeys (readRequestKeys "r1" x.1))
      ∧ ∀ env : Surroundings ℚ Unit, env.robotName = "r1" →
        CommandServer.missing env x.1 = [] := by
  have hrun : (Lts.runBy (SharedMap.together fun i => driver (pair i) (pairNames i))
      (fun _ a => PlainAction a.2) ((fun _ => none), fun _ => none) pairStarted).any (fun x =>
        (x.2 false).isSome && (readRequestKeys "r2" x.1).requestTrigger) = true := by
    decide +kernel
  obtain ⟨x, hx, hp⟩ := Lts.exists_of_runBy hrun
  have hx' : CellRun pair pairNames (fun _ => none) x := hx
  rw [Bool.and_eq_true] at hp
  obtain ⟨w, hw⟩ := Option.isSome_iff_exists.mp hp.1
  exact ⟨x, w, hx', hw, hp.2,
    drivers_isolated (T := Unit) (by decide) hx' false w hw⟩

end UrRedisDriver.Proof
