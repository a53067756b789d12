import UrRedisDriver.Driver.HandleRequest
import UrRedisDriver.Tools.Templates
import UrRedisDriver.Trajectory.Frames

/-!
# Motions that can be issued again

`remaining_command` refuses the command types that end in `_relative`. Whether a script moves
the arm from where it is, is decided by its template, and seven of the shipped templates do so
under other names.
-/

namespace UrRedisDriver.Proof

open UrRedisDriver Templates

variable {F P : Type}

/-! ## What is left of a command -/

section Remaining

variable {c remaining : RobotCommand F} {completed : Nat}

/-- What is left of a command differs from it in its waypoints. -/
theorem remainingCommand_ok (h : remainingCommand c completed = .ok remaining) :
    Text.endsWith c.commandType "_relative" = false
      ∧ remaining.commandType = c.commandType
      ∧ remaining.forceThreshold = c.forceThreshold := by
  unfold remainingCommand at h
  split at h
  · cases h
  · rename_i hsuffix
    refine ⟨Bool.eq_false_iff.mpr hsuffix, ?_⟩
    split at h
    · cases h
      exact ⟨rfl, rfl⟩
    · split at h
      · cases h
      · cases h
        exact ⟨rfl, rfl⟩

/-- A command without waypoints is issued as it was. -/
theorem remainingCommand_self (hsuffix : Text.endsWith c.commandType "_relative" = false)
    (hw : c.waypoints = []) : remainingCommand c completed = .ok c := by
  unfold remainingCommand
  rw [if_neg (by rw [hsuffix]; exact Bool.false_ne_true), if_pos hw]

/-- Without the suffix, a command is only refused when it is over. -/
theorem exists_remaining (hsuffix : Text.endsWith c.commandType "_relative" = false)
    (h : c.waypoints ≠ [] → completed < c.waypoints.length) :
    ∃ remaining, remainingCommand c completed = .ok remaining := by
  by_cases hw : c.waypoints = []
  · exact ⟨c, remainingCommand_self hsuffix hw⟩
  · unfold remainingCommand
    rw [if_neg (by rw [hsuffix]; exact Bool.false_ne_true)]
    exact ⟨_, by rw [if_neg hw, if_neg (Nat.not_le_of_lt (h hw))]⟩

theorem not_ok_of_over (hw : c.waypoints ≠ []) (hover : c.waypoints.length ≤ completed) :
    remainingCommand c completed ≠ .ok remaining := by
  unfold remainingCommand
  rw [if_neg hw, if_pos hover]
  intro h
  split at h <;> cases h

end Remaining

/-! ## Templates that use no pose of the arm -/

theorem isFixed_checkedMove {questions : List (Question F)} {dest : Place P (Target F P)}
    (h : dest.isFixed = true) : ∀ i ∈ checkedMove questions dest, i.isFixed = true := by
  intro i hi
  rcases List.mem_append.mp hi with hi | hi
  · obtain ⟨q, -, rfl⟩ := List.mem_map.mp hi
    exact h
  · rw [List.mem_singleton.mp hi]
    exact h

theorem isFixed_jointsOrTarget (c : RobotCommand F) (questions : List (Question F)) :
    ∀ i ∈ (jointsOrTarget c questions : Program F P), i.isFixed = true := by
  unfold jointsOrTarget
  split
  · intro i hi
    rw [List.mem_singleton.mp hi]
    rfl
  · exact isFixed_checkedMove rfl

theorem isFixed_waypointTarget (wp : Waypoint F) :
    (waypointTarget wp : Place P (Target F P)).isFixed = true := by
  unfold waypointTarget
  split <;> rfl

theorem isFixed_validation (questions : Waypoint F → List (Question F)) (c : RobotCommand F) :
    ∀ i ∈ (validation questions c : Program F P), i.isFixed = true := by
  intro i hi
  obtain ⟨wp, -, hi⟩ := List.mem_flatMap.mp hi
  split at hi
  · cases hi
  · obtain ⟨q, -, rfl⟩ := List.mem_map.mp hi
    rfl

theorem isFixed_blended (c : RobotCommand F) :
    ∀ i ∈ (blended c : Program F P), i.isFixed = true := by
  intro i hi
  obtain ⟨wp, -, rfl⟩ := List.mem_map.mp hi
  exact isFixed_waypointTarget wp

theorem isFixed_guarded (c : RobotCommand F) :
    ∀ i ∈ (guarded c : Program F P), i.isFixed = true := by
  intro i hi
  obtain ⟨wp, -, hi⟩ := List.mem_flatMap.mp hi
  rcases List.mem_cons.mp hi with rfl | hi
  · exact isFixed_waypointTarget wp
  · rw [List.mem_singleton.mp hi]
    rfl

theorem isFixed_optimalTrajectory (c : RobotCommand F) :
    ∀ i ∈ (optimalTrajectory c : Program F P), i.isFixed = true := by
  intro i hi
  rcases List.mem_append.mp hi with hi | hi <;> obtain ⟨wp, -, rfl⟩ := List.mem_map.mp hi <;> rfl

theorem isFixed_append {prog prog' : Program F P} (h : ∀ i ∈ prog, i.isFixed = true)
    (h' : ∀ i ∈ prog', i.isFixed = true) : ∀ i ∈ prog ++ prog', i.isFixed = true := by
  intro i hi
  rcases List.mem_append.mp hi with hi | hi
  · exact h i hi
  · exact h' i hi

theorem isFixed_still {name : String} {template : RobotCommand F → Program F P}
    (h : (name, template) ∈ stillTemplates) (c : RobotCommand F) :
    ∀ i ∈ template c, i.isFixed = true := by
  obtain ⟨_, -, he⟩ := List.mem_map.mp h
  cases he
  intro i hi
  cases hi

theorem isFixed_absolute {name : String} {template : RobotCommand F → Program F P}
    (h : (name, template) ∈ absoluteTemplates) (c : RobotCommand F) :
    ∀ i ∈ template c, i.isFixed = true := by
  simp only [absoluteTemplates, List.mem_cons, Prod.mk.injEq, List.not_mem_nil, or_false] at h
  rcases h with ⟨-, rfl⟩ | ⟨-, rfl⟩ | ⟨-, rfl⟩ | ⟨-, rfl⟩ | ⟨-, rfl⟩ | ⟨-, rfl⟩ | ⟨-, rfl⟩
    | ⟨-, rfl⟩ | ⟨-, rfl⟩ | ⟨-, rfl⟩ | ⟨-, rfl⟩ | ⟨-, rfl⟩ | ⟨-, rfl⟩ | ⟨-, rfl⟩ | ⟨-, rfl⟩
    | ⟨-, rfl⟩
  all_goals first
    | exact isFixed_checkedMove rfl
    | exact isFixed_jointsOrTarget c _
    | exact isFixed_optimalTrajectory c
    | exact isFixed_append (isFixed_validation _ c) (isFixed_blended c)
    | exact isFixed_append (isFixed_validation _ c) (isFixed_guarded c)

/-! ## Templates that do -/

theorem pose_mul_ne [Group P] {p₁ p₂ : P} (h : p₁ ≠ p₂) (x : P) :
    (Target.pose (p₁ * x) : Target F P) ≠ .pose (p₂ * x) := by
  intro he
  exact h (mul_right_cancel (Target.pose.inj he))

/-- The first move goes to different places from different poses. -/
def LeadsFromHere (prog : Program F P) : Prop :=
  ∃ f, firstMove prog = some (.seen f) ∧ ∀ p₁ p₂, p₁ ≠ p₂ → f p₁ p₁ ≠ f p₂ p₂

theorem leads_strokes [Group P] {u : UrScript F P} (down up : List F) :
    LeadsFromHere (strokes u down up) :=
  ⟨_, rfl, fun _ _ h => pose_mul_ne h _⟩

theorem leads_spiral [Field F] [Group P] {u : UrScript F P} {c : RobotCommand F} :
    LeadsFromHere (claudeSpiralSearch u c) := by
  refine ⟨fun _ noted => .pose (noted * u.pose (spiralPoint u 0)), ?_,
    fun _ _ h => pose_mul_ne h _⟩
  unfold claudeSpiralSearch
  rw [show (84 : Nat) = 83 + 1 from rfl, List.range_succ_eq_map, List.flatMap_cons]
  rfl

section Strokes

variable [Field F] [LinearOrder F] [Group P] {u : UrScript F P} {c : RobotCommand F}

theorem leads_search (rest : Program F P) (h : 0 < c.forceThreshold) :
    LeadsFromHere (search u c rest) := by
  unfold search
  rw [if_neg (not_le_of_gt h)]
  exact ⟨_, rfl, fun _ _ h => pose_mul_ne h _⟩

theorem isFixed_search_refused {rest : Program F P} (h : c.forceThreshold ≤ 0) :
    ∀ i ∈ search u c rest, i.isFixed = true := by
  unfold search
  rw [if_pos h]
  intro i hi
  cases hi

/--
The template moves the arm from where it is under a name without the suffix: always, or as
soon as there is a force threshold.
-/
def Strokes (c : RobotCommand F) : Prop :=
  c.commandType ∈ ["claude_spiral_search", "pick_vacuum", "pick_vacuum_broken", "place_vacuum"]
    ∨ (c.commandType ∈ ["claude_move_until_contact", "claude_pick_vacuum", "claude_place_vacuum"]
      ∧ 0 < c.forceThreshold)

theorem rendered_of_lookup {name : String} {template : RobotCommand F → Program F P}
    (h : (shipped u).lookup name = some template) (hc : c.commandType = name) :
    rendered u c = some (template c) := by
  unfold rendered
  rw [hc, h]
  rfl

theorem leads_of_strokes (h : Strokes c) :
    ∃ prog, rendered u c = some prog ∧ LeadsFromHere prog := by
  rcases h with h | ⟨h, hforce⟩
  · simp only [List.mem_cons, List.not_mem_nil, or_false] at h
    rcases h with h | h | h | h
    · exact ⟨_, rendered_of_lookup rfl h, leads_spiral⟩
    · exact ⟨_, rendered_of_lookup rfl h, leads_strokes ..⟩
    · exact ⟨_, rendered_of_lookup rfl h, leads_strokes ..⟩
    · exact ⟨_, rendered_of_lookup rfl h, leads_strokes ..⟩
  · simp only [List.mem_cons, List.not_mem_nil, or_false] at h
    rcases h with h | h | h
    · exact ⟨_, rendered_of_lookup rfl h, leads_search _ hforce⟩
    · exact ⟨_, rendered_of_lookup rfl h, leads_search _ hforce⟩
    · exact ⟨_, rendered_of_lookup rfl h, leads_search _ hforce⟩

/-- A shipped template that is not one of these and does not have the suffix. -/
theorem isFixed_rendered {prog : Program F P} (hc : ¬ Strokes c)
    (hsuffix : Text.endsWith c.commandType "_relative" = false)
    (h : rendered u c = some prog) : ∀ i ∈ prog, i.isFixed = true := by
  obtain ⟨template, hlookup, rfl⟩ := Option.map_eq_some_iff.mp h
  obtain ⟨before, after, heq, -⟩ := List.lookup_eq_some_iff.mp hlookup
  have hmem : (c.commandType, template) ∈ shipped u := by
    rw [heq]
    exact List.mem_append_right _ (List.mem_cons_self ..)
  have hname : c.commandType ∉
      ["claude_spiral_search", "pick_vacuum", "pick_vacuum_broken", "place_vacuum"] :=
    fun hmem => hc (.inl hmem)
  have hforce : c.commandType ∈
        ["claude_move_until_contact", "claude_pick_vacuum", "claude_place_vacuum"] →
      c.forceThreshold ≤ 0 := fun hmem => not_lt.mp fun hlt => hc (.inr ⟨hmem, hlt⟩)
  unfold shipped at hmem
  rcases List.mem_append.mp hmem with hmem | hmem
  · rcases List.mem_append.mp hmem with hmem | hmem
    · rcases List.mem_append.mp hmem with hmem | hmem
      · exact isFixed_still hmem c
      · exact isFixed_absolute hmem c
    · simp only [relativeTemplates, List.mem_cons, Prod.mk.injEq, List.not_mem_nil,
        or_false] at hmem
      -- the group whose names `remaining_command` refuses
      rcases hmem with ⟨he, -⟩ | ⟨he, -⟩ | ⟨he, -⟩ | ⟨he, -⟩ | ⟨he, -⟩ <;>
        exact absurd hsuffix (by rw [he]; decide)
  · simp only [strokeTemplates, List.mem_cons, Prod.mk.injEq, List.not_mem_nil,
      or_false] at hmem
    -- What is left of this group is refused by its own threshold.
    rcases hmem with ⟨he, rfl⟩ | ⟨he, rfl⟩ | ⟨he, rfl⟩ | ⟨he, -⟩ | ⟨he, -⟩ | ⟨he, -⟩ | ⟨he, -⟩
    · exact isFixed_search_refused (hforce (by simp [he]))
    · exact isFixed_search_refused (hforce (by simp [he]))
    · exact isFixed_search_refused (hforce (by simp [he]))
    all_goals exact absurd (by simp [he]) hname

/-! ## What is issued again -/

theorem endsWith_of_strokes (h : Strokes c) :
    Text.endsWith c.commandType "_relative" = false := by
  rcases h with h | ⟨h, -⟩
  · simp only [List.mem_cons, List.not_mem_nil, or_false] at h
    rcases h with h | h | h | h <;> rw [h] <;> decide
  · simp only [List.mem_cons, List.not_mem_nil, or_false] at h
    rcases h with h | h | h <;> rw [h] <;> decide

theorem strokes_remaining {remaining : RobotCommand F} {completed : Nat}
    (h : remainingCommand c completed = .ok remaining) : Strokes remaining ↔ Strokes c := by
  obtain ⟨-, hname, hforce⟩ := remainingCommand_ok h
  unfold Strokes
  rw [hname, hforce]

/--
What is issued again goes to the same places from everywhere, exactly if the template has no
stroke of its own or there is nothing left of the command.
-/
theorem reissued_startIndependent_iff [Nontrivial P] (u : UrScript F P) (c : RobotCommand F)
    (completed : Nat) :
    (∀ remaining prog, remainingCommand c completed = .ok remaining →
        rendered u remaining = some prog → StartIndependent prog)
      ↔ ¬ Strokes c ∨ (c.waypoints ≠ [] ∧ c.waypoints.length ≤ completed) := by
  constructor
  · intro hall
    by_contra hnot
    obtain ⟨hc, hleft⟩ := not_or.mp hnot
    have hstrokes : Strokes c := not_not.mp hc
    obtain ⟨remaining, hok⟩ := exists_remaining (endsWith_of_strokes hstrokes)
      fun hw => Nat.lt_of_not_le fun hover => hleft ⟨hw, hover⟩
    obtain ⟨prog, hprog, f, hfirst, hdiff⟩ :=
      leads_of_strokes (u := u) ((strokes_remaining hok).mpr hstrokes)
    -- two poses suffice, for the first move is already told differently
    obtain ⟨p₁, p₂, hp⟩ := exists_pair_ne P
    exact not_startIndependent hfirst (hdiff p₁ p₂ hp) (hall remaining prog hok hprog)
  · intro h remaining prog hok hprog
    rcases h with hc | ⟨hw, hover⟩
    · obtain ⟨hsuffix, hname, -⟩ := remainingCommand_ok hok
      rw [← hname] at hsuffix
      exact startIndependent_of_isFixed
        (isFixed_rendered (fun hs => hc ((strokes_remaining hok).mp hs)) hsuffix hprog)
    · exact absurd hok (not_ok_of_over hw hover)

end Strokes

/-! ## A pick-up -/

namespace Scenario

noncomputable section

/-- The poses of the base frame. -/
def urScript : UrScript ℝ Pose where
  pose l := ((Joints.ofList? l).map poseFromArray).getD 1
  cos := Real.cos
  sin := Real.sin

/-- A request with nothing in it but its type. -/
def pickUp : RobotCommand ℝ where
  commandType := "pick_vacuum"
  acceleration := 0
  velocity := 0
  globalAccelerationScaling := 1
  globalVelocityScaling := 1
  useExecutionTime := false
  executionTime := 0
  useBlendRadius := false
  blendRadius := 0
  useJointPositions := false
  jointPositions := []
  usePreferredJointConfig := false
  preferredJointConfig := []
  usePayload := false
  payload := ""
  targetInBase := ""
  relativePose := []
  tcpInFaceplate := ""
  forceThreshold := 0
  reportWaypointProgress := false
  trajectoryId := ""
  waypoints := []

end

end Scenario

open Scenario

instance : Nontrivial Pose := by
  refine ⟨1, Pose.translation 1 0 0, fun h => ?_⟩
  have h0 := congrFun (congrArg Motion.trans h) 0
  exact zero_ne_one h0

theorem reissued_pickUp_iff :
    (∀ remaining prog, remainingCommand pickUp 0 = .ok remaining →
        rendered urScript remaining = some prog → StartIndependent prog)
      ↔ ¬ Strokes pickUp ∨ (pickUp.waypoints ≠ [] ∧ pickUp.waypoints.length ≤ 0) :=
  reissued_startIndependent_iff urScript pickUp 0

/-- A second stroke starts from where the first was paused. -/
theorem not_reissued_startIndependent :
    ¬ ∀ (c : RobotCommand ℝ) (completed : Nat) (remaining : RobotCommand ℝ)
      (prog : Program ℝ Pose), remainingCommand c completed = .ok remaining →
        rendered urScript remaining = some prog → StartIndependent prog := by
  intro h
  have hstrokes : Strokes pickUp := .inl (by simp [pickUp])
  obtain ⟨prog, hprog, f, hfirst, hdiff⟩ := leads_of_strokes (u := urScript) hstrokes
  obtain ⟨p₁, p₂, hp⟩ := exists_pair_ne Pose
  have hok : remainingCommand pickUp 0 = .ok pickUp :=
    remainingCommand_self (endsWith_of_strokes hstrokes) rfl
  exact not_startIndependent hfirst (hdiff p₁ p₂ hp) (h pickUp 0 pickUp prog hok hprog)

end UrRedisDriver.Proof
