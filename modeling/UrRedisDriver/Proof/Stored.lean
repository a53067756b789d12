import UrRedisDriver.Proof.Tool

/-!
# Stored trajectories

A trajectory on disk is emitted as it was stored, and only where the arm is at its start. The
model it was planned for is stored with it and asked for by nothing.
-/

namespace UrRedisDriver.Proof

open UrRedisDriver
open scoped Literals

noncomputable section

variable {env : PlannerEnv} {command : RobotCommand ℝ} {joints : List ℝ}
  {traj : PlannedTrajectory} {out : List (Waypoint ℝ) × PlannedTrajectory}

/-- The arm is where the trajectory begins. -/
def AtStart (traj : PlannedTrajectory) (joints : List ℝ) : Prop :=
  6 ≤ joints.length
    ∧ ∀ i : Fin 6, |joints.getD i 0 - traj.startJointPositions i| ≤ PlannerEnv.startToleranceRad

theorem checkStartMatches_ok : env.checkStartMatches traj joints = .ok () ↔ AtStart traj joints := by
  unfold PlannerEnv.checkStartMatches AtStart
  by_cases hlen : joints.length < 6
  · rw [if_pos hlen]
    refine iff_of_false ?_ fun h => absurd h.1 (not_le.mpr hlen)
    intro h
    cases h
  · rw [if_neg hlen]
    dsimp only
    -- the source names the first joint that is too far away: none is exactly a match
    cases hfind : (List.finRange 6).find? fun i => decide
        (|joints.getD i.val 0 - traj.startJointPositions i| > PlannerEnv.startToleranceRad) with
    | none =>
        refine iff_of_true rfl ⟨not_lt.mp hlen, ?_⟩
        intro i
        have hnone := List.find?_eq_none.mp hfind i (List.mem_finRange i)
        simpa using hnone
    | some i =>
        have hfar := List.find?_some hfind
        refine iff_of_false (fun h => ?_) fun h => ?_
        · cases h
        · exact absurd (h.2 i) (by simpa using hfar)

/-- The waypoint that is emitted for a planned one. -/
structure EmittedAs (w : PlannedWaypoint) (e : Waypoint ℝ) : Prop where
  joints : e.useJointPositions = true ∧ e.jointPositions = List.ofFn w.jointPositions
  velocity : e.velocity = w.velocity
  acceleration : e.acceleration = w.acceleration
  blend : e.blendRadius = w.blendRadius ∧ (e.useBlendRadius = true ↔ 0 < w.blendRadius)
  linear : e.useLinearMotion = w.useLinearMotion

/-- Emitting keeps every waypoint, in order. -/
theorem toWaypoints_emittedAs (traj : PlannedTrajectory) (tcpInFaceplate payload : String) :
    List.Forall₂ EmittedAs traj.waypoints (toWaypoints traj tcpInFaceplate payload) := by
  unfold toWaypoints
  rw [List.forall₂_map_right_iff, List.forall₂_same]
  intro w _
  exact ⟨⟨rfl, rfl⟩, rfl, rfl, ⟨rfl, decide_eq_true_iff⟩, rfl⟩

/-- A trajectory is run on the arm it was planned for, from its start, as it was planned. -/
structure RunsAsPlanned (env : PlannerEnv) (joints : List ℝ) (traj : PlannedTrajectory)
    (waypoints : List (Waypoint ℝ)) : Prop where
  model : traj.robotModel = env.robotModelFromEnv
  start : AtStart traj joints
  waypoints : List.Forall₂ EmittedAs traj.waypoints waypoints

/-- What a command that names a stored trajectory executes. -/
theorem waypointsForCommand_stored (hid : command.trajectoryId ≠ "") :
    env.waypointsForCommand command joints = .ok out
      ↔ ∃ stored, env.load command.trajectoryId = .ok stored ∧ AtStart stored.trajectory joints
        ∧ out = (toWaypoints stored.trajectory command.tcpInFaceplate
          (if command.usePayload then command.payload else ""), stored.trajectory) := by
  have hempty : ¬ command.trajectoryId.isEmpty = true := by
    rwa [String.isEmpty_iff]
  unfold PlannerEnv.waypointsForCommand
  rw [if_neg hempty]
  constructor
  · intro h
    obtain ⟨traj, htraj, heq⟩ := Except.bind_eq_ok.mp h
    obtain ⟨stored, hload, h⟩ := Except.bind_eq_ok.mp htraj
    obtain ⟨_, hstart, htraj⟩ := Except.bind_eq_ok.mp h
    cases htraj
    cases heq
    exact ⟨stored, hload, checkStartMatches_ok.mp hstart, rfl⟩
  · -- nothing else is asked of a stored trajectory
    rintro ⟨stored, hload, hstart, rfl⟩
    refine Except.bind_eq_ok.mpr ⟨stored.trajectory, ?_, rfl⟩
    refine Except.bind_eq_ok.mpr ⟨stored, hload, ?_⟩
    exact Except.bind_eq_ok.mpr ⟨(), checkStartMatches_ok.mpr hstart, rfl⟩

/--
**Stored trajectories.** Whatever a command that names a stored trajectory executes was
planned for this arm exactly if no file that loads under that name begins where the arm
stands and is for another model. The start and the waypoints are always right.
-/
theorem runsAsPlanned_iff (hid : command.trajectoryId ≠ "") :
    (∀ stored out, env.load command.trajectoryId = .ok stored →
        env.waypointsForCommand command joints = .ok out →
          RunsAsPlanned env joints stored.trajectory out.1)
      ↔ ∀ stored, env.load command.trajectoryId = .ok stored →
        AtStart stored.trajectory joints →
          stored.trajectory.robotModel = env.robotModelFromEnv := by
  constructor
  · intro h stored hload hstart
    exact (h stored _ hload
      ((waypointsForCommand_stored hid).mpr ⟨stored, hload, hstart, rfl⟩)).model
  · intro h stored out hload hout
    obtain ⟨stored', hload', hstart, rfl⟩ := (waypointsForCommand_stored hid).mp hout
    rw [hload] at hload'
    cases hload'
    exact ⟨h stored hload hstart, hstart, toWaypoints_emittedAs _ _ _⟩

/-! ## A trajectory of another arm -/

/-- A short move of the first joint. -/
def pickTrajectory (model : String) : PlannedTrajectory where
  robotModel := model
  startJointPositions := 0
  waypoints := [⟨![1, 0, 0, 0, 0, 0], 2, 4, 0, false, 0⟩]
  durationEstimate := 1
  limits := ⟨fun _ => -4, fun _ => 4, fun _ => 2, fun _ => 4⟩
  warnings := []

/-- The file it is stored in. -/
def pickText (model : String) : String :=
  "\x7b\"schema_version\":1,\"name\":\"pick\",\"created_unix_seconds\":0,\"request\":null,"
    ++ "\"trajectory\":\x7b\"robot_model\":\"" ++ model
    ++ "\",\"start_joint_positions\":[0,0,0,0,0,0],\"waypoints\":[\x7b\"joint_positions\":"
    ++ "[1,0,0,0,0,0],\"velocity\":2,\"acceleration\":4,\"blend_radius\":0,"
    ++ "\"use_linear_motion\":false,\"limiting_joint\":0\x7d],\"duration_estimate\":1,"
    ++ "\"limits\":\x7b\"position_min\":[-4,-4,-4,-4,-4,-4],\"position_max\":[4,4,4,4,4,4],"
    ++ "\"velocity_max\":[2,2,2,2,2,2],\"acceleration_max\":[4,4,4,4,4,4]\x7d,"
    ++ "\"warnings\":[]\x7d\x7d"

/-- A driver of a `ur20` with that file. -/
def pickEnv (model : String) : PlannerEnv :=
  { bench with
    readFile := fun path => if path = "trajectories/pick.json" then .ok (pickText model)
      else .error "No such file or directory"
    parseStored := fun text => if text = pickText model then
      .ok ⟨1, "pick", 0, none, pickTrajectory model⟩ else .error "expected value" }

/-- The request to run it. -/
def pickCommand : RobotCommand ℝ := { frontCommand "p[0,0,0,0,0,0]" with trajectoryId := "pick" }

theorem pick_load (model : String) :
    (pickEnv model).load "pick" = .ok ⟨1, "pick", 0, none, pickTrajectory model⟩ := by
  have hname : validateName "pick" = .ok () := by decide
  have hpath : (pickEnv model).pathFor "pick" = .ok "trajectories/pick.json" := by
    have hdir : (pickEnv model).trajectoryDir = none := rfl
    unfold PlannerEnv.pathFor
    rw [hname, hdir]
    decide
  have hread : (pickEnv model).readFile "trajectories/pick.json" = .ok (pickText model) := by
    simp only [pickEnv, if_true]
  have hparse : (pickEnv model).parseStored (pickText model)
      = .ok ⟨1, "pick", 0, none, pickTrajectory model⟩ := by
    simp only [pickEnv, if_true]
  refine Except.bind_eq_ok.mpr ⟨_, hpath, ?_⟩
  refine Except.bind_eq_ok.mpr ⟨_, Except.mapError_eq_ok.mpr hread, ?_⟩
  exact Except.bind_eq_ok.mpr ⟨_, Except.mapError_eq_ok.mpr hparse, if_neg (not_not_intro rfl)⟩

theorem pick_start (model : String) : AtStart (pickTrajectory model) (List.replicate 6 0) := by
  refine ⟨le_rfl, ?_⟩
  intro i
  have hzero : (List.replicate 6 (0 : ℝ)).getD i 0 = 0 := by
    fin_cases i <;> rfl
  rw [hzero]
  norm_num [pickTrajectory, PlannerEnv.startToleranceRad]

theorem runsAsPlanned_pick : ∃ out,
    (pickEnv "ur20").waypointsForCommand pickCommand (List.replicate 6 0) = .ok out
      ∧ RunsAsPlanned (pickEnv "ur20") (List.replicate 6 0) (pickTrajectory "ur20") out.1 := by
  have hid : pickCommand.trajectoryId ≠ "" := by decide
  have hout := (waypointsForCommand_stored hid).mpr ⟨_, pick_load "ur20", pick_start "ur20", rfl⟩
  refine ⟨_, hout, (runsAsPlanned_iff hid).mpr ?_ _ _ (pick_load "ur20") hout⟩
  intro stored hload _
  rw [show pickCommand.trajectoryId = "pick" from rfl, pick_load] at hload
  cases hload
  rfl

/-- A `ur20` runs what was planned for a `ur5`. -/
theorem not_runsAsPlanned_pick : ∃ out,
    (pickEnv "ur5").load pickCommand.trajectoryId = .ok ⟨1, "pick", 0, none, pickTrajectory "ur5"⟩
      ∧ (pickEnv "ur5").waypointsForCommand pickCommand (List.replicate 6 0) = .ok out
      ∧ ¬ RunsAsPlanned (pickEnv "ur5") (List.replicate 6 0) (pickTrajectory "ur5") out.1 := by
  have hid : pickCommand.trajectoryId ≠ "" := by decide
  have hout := (waypointsForCommand_stored hid).mpr ⟨_, pick_load "ur5", pick_start "ur5", rfl⟩
  refine ⟨_, pick_load "ur5", hout, fun h => ?_⟩
  exact absurd h.model (by decide)

end

end UrRedisDriver.Proof
