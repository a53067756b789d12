import UrRedisDriver.Proof.Tick

/-!
# Where a waypoint leads

A waypoint that is not given by joint positions leads to the pose its target was looked up
as. The lookup is skipped for a waypoint that asks for a relative pose as well, and nothing
of that wish is left in the waypoint that the template is given.
-/

namespace UrRedisDriver.Proof

open UrRedisDriver CommandServer

variable {F T : Type} {env : Surroundings F T} {raw : RequestRaw F} {wpr : WaypointRaw F}
  {wprs : List (WaypointRaw F)} {n : Nat}

/-- The `n`-th lookup of the tick finds the frame of a waypoint, and the waypoint leads there. -/
def LooksUp (env : Surroundings F T) (raw : RequestRaw F) (n : Nat) (goal target : String) :
    Prop :=
  ∃ t, env.lookup n raw.baseframeId goal = some t ∧ target = env.transformToString t

/-- A waypoint made of the one decoded, with a target of its own. -/
structure RealTarget (env : Surroundings F T) (raw : RequestRaw F) (n : Nat)
    (wpr : WaypointRaw F) (w : Waypoint F) : Prop where
  same : w = toWaypoint wpr w.targetInBase w.tcpInFaceplate
  target : w.useJointPositions = true ∨ LooksUp env raw n wpr.goalFeatureId w.targetInBase

/-- The waypoints of a command are those that were decoded, in order, each with its target.
Two frames are looked up for each, the first ones of a tick for the request itself. -/
def RealTargets (env : Surroundings F T) (raw : RequestRaw F) (wprs : List (WaypointRaw F))
    (ws : List (Waypoint F)) : Prop :=
  ws.length = wprs.length ∧ ∀ (k : Nat) (wpr : WaypointRaw F) (w : Waypoint F),
    wprs[k]? = some wpr → ws[k]? = some w → RealTarget env raw (2 + 2 * k) wpr w

/-! ## One waypoint -/

/-- A decoded waypoint whose target is not looked up, though it is what the template uses. -/
def Unresolved (wpr : WaypointRaw F) : Prop :=
  wpr.useJointPositions = false ∧ wpr.useRelativePose = true

/-- The frames of a waypoint: looked up, or the placeholder. -/
theorem waypointFrames_ok {tcp : String} {frames : String × String}
    (h : waypointFrames env raw n tcp wpr = .ok frames) :
    wpr.useJointPositions = false ∧ wpr.useRelativePose = false
        ∧ LooksUp env raw n wpr.goalFeatureId frames.1
      ∨ (wpr.useJointPositions = true ∨ wpr.useRelativePose = true)
        ∧ frames.1 = placeholder env := by
  unfold waypointFrames at h
  cases hj : wpr.useJointPositions with
  | true =>
      rw [hj] at h
      cases h
      exact .inr ⟨.inl rfl, rfl⟩
  | false =>
      cases hr : wpr.useRelativePose with
      | true =>
          rw [hj, hr] at h
          cases h
          exact .inr ⟨.inr rfl, rfl⟩
      | false =>
          rw [hj, hr] at h
          obtain ⟨target, htarget, h⟩ := Except.bind_eq_ok.mp h
          obtain ⟨tcp', -, heq⟩ := Except.bind_eq_ok.mp h
          cases heq
          unfold lookupTransform at htarget
          cases hl : env.lookup n raw.baseframeId wpr.goalFeatureId with
          | none =>
              -- a frame that is not found ends the preparation, so one was found
              rw [hl] at htarget
              cases htarget
          | some t =>
              rw [hl] at htarget
              cases htarget
              exact .inl ⟨rfl, rfl, t, hl, rfl⟩

/-- It has a target of its own exactly if it is not one of those, or the frame it names
happens to read like the placeholder. -/
theorem realTarget_iff {tcp : String} {frames : String × String}
    (h : waypointFrames env raw n tcp wpr = .ok frames) :
    RealTarget env raw n wpr (toWaypoint wpr frames.1 frames.2)
      ↔ (Unresolved wpr → LooksUp env raw n wpr.goalFeatureId (placeholder env)) := by
  have hjoint : (toWaypoint wpr frames.1 frames.2).useJointPositions = wpr.useJointPositions := rfl
  have htarget : (toWaypoint wpr frames.1 frames.2).targetInBase = frames.1 := rfl
  constructor
  · intro hreal hun
    rcases waypointFrames_ok h with ⟨-, hrel, -⟩ | ⟨-, hplace⟩
    · rw [hun.2] at hrel
      cases hrel
    · rcases hreal.target with hj | hlooks
      · rw [hjoint, hun.1] at hj
        cases hj
      · rwa [htarget, hplace] at hlooks
  · -- with the flags set nothing was looked up, and the placeholder stands for a target
    intro hun
    refine ⟨rfl, ?_⟩
    rw [hjoint, htarget]
    rcases waypointFrames_ok h with ⟨-, -, hlooks⟩ | ⟨hflags, hplace⟩
    · exact .inr hlooks
    · cases hj : wpr.useJointPositions with
      | true => exact .inl rfl
      | false =>
          rw [hj] at hflags
          have hrel := hflags.resolve_left Bool.false_ne_true
          rw [hplace]
          exact .inr (hun ⟨hj, hrel⟩)

/-! ## The whole list -/

/-- Each decoded waypoint becomes one of the command, in its place. -/
theorem waypointsWithFrames_get {tcp : String} {done : List (Waypoint F) × String}
    (h : waypointsWithFrames env raw n tcp wprs = .ok done) :
    done.1.length = wprs.length ∧ ∀ (k : Nat) (wpr : WaypointRaw F), wprs[k]? = some wpr →
      ∃ tcp' frames, waypointFrames env raw (n + 2 * k) tcp' wpr = .ok frames
        ∧ done.1[k]? = some (toWaypoint wpr frames.1 frames.2) := by
  induction wprs generalizing n tcp done with
  | nil =>
      cases h
      refine ⟨rfl, ?_⟩
      intro k wpr hk
      cases hk
  | cons wpr rest ih =>
      obtain ⟨frames, hframes, h⟩ := Except.bind_eq_ok.mp h
      cases hrest : waypointsWithFrames env raw (n + 2) frames.2 rest with
      | error e =>
          rw [hrest] at h
          cases h
      | ok done' =>
          rw [hrest] at h
          cases h
          obtain ⟨hlen, hget⟩ := ih hrest
          refine ⟨congrArg Nat.succ hlen, ?_⟩
          intro k wpr' hk
          cases k with
          | zero =>
              cases hk
              exact ⟨tcp, frames, hframes, rfl⟩
          | succ k =>
              obtain ⟨tcp', frames', hframes', hk'⟩ := hget k wpr' hk
              -- each waypoint makes two lookups, of its goal and of its tool frame
              have hindex : n + 2 * (k + 1) = n + 2 + 2 * k := by omega
              rw [hindex]
              exact ⟨tcp', frames', hframes', hk'⟩

variable [Field F] {acc : Accessors F} {state : SPState F} {command : RobotCommand F}

/-- A request, its waypoints as decoded, and the command built from them. The planner has not
been asked yet. -/
structure Built (acc : Accessors F) (env : Surroundings F T) (state : SPState F)
    (raw : RequestRaw F) (wprs : List (WaypointRaw F)) (command : RobotCommand F) : Prop where
  read : readRequest acc env state = .ok raw
  decoded : readWaypoints env state = .ok wprs
  built : ∃ frames done, requestFrames env (commandType acc env state) raw = .ok frames
    ∧ waypointsWithFrames env raw 2 frames.2 wprs = .ok done
    ∧ command = robotCommand (commandType acc env state) raw frames.1 done.2 done.1

/-- Every command that comes out of a tick was built so, and then perhaps planned. -/
theorem prepare_built {script : String} (h : prepare acc env state = .ok (command, script)) :
    ∃ raw wprs command', Built acc env state raw wprs command'
      ∧ planned env command' = .ok command := by
  obtain ⟨_, -, h⟩ := Except.bind_eq_ok.mp h
  obtain ⟨_, -, h⟩ := Except.bind_eq_ok.mp h
  obtain ⟨raw, hraw, h⟩ := Except.bind_eq_ok.mp h
  obtain ⟨frames, hframes, h⟩ := Except.bind_eq_ok.mp h
  obtain ⟨wprs, hwprs, h⟩ := Except.bind_eq_ok.mp h
  obtain ⟨done, hdone, h⟩ := Except.bind_eq_ok.mp h
  obtain ⟨command', hplanned, h⟩ := Except.bind_eq_ok.mp h
  refine ⟨raw, wprs, _, ⟨hraw, hwprs, frames, done, hframes, hdone, rfl⟩, ?_⟩
  cases hr : env.render command' with
  | error e =>
      rw [hr] at h
      cases h
  | ok script' =>
      rw [hr] at h
      cases h
      exact hplanned

/--
**Real targets.** The waypoints of a command that is built are the decoded ones in order,
each with joint positions or with the pose its own frame was looked up as, exactly if none
asks for a relative pose instead of joint positions, unless the frame it names happens to
read like the placeholder.
-/
theorem realTargets_iff (h : Built acc env state raw wprs command) :
    RealTargets env raw wprs command.waypoints
      ↔ ∀ (k : Nat) (wpr : WaypointRaw F), wprs[k]? = some wpr → Unresolved wpr →
        LooksUp env raw (2 + 2 * k) wpr.goalFeatureId (placeholder env) := by
  obtain ⟨-, -, frames, done, -, hdone, rfl⟩ := h
  obtain ⟨hlen, hget⟩ := waypointsWithFrames_get hdone
  constructor
  · -- the raw waypoint and the prepared one stand at the same index
    intro hreal k wpr hk
    obtain ⟨tcp', frames', hframes', hk'⟩ := hget k wpr hk
    exact (realTarget_iff hframes').mp (hreal.2 k wpr _ hk hk')
  · intro hall
    refine ⟨hlen, ?_⟩
    intro k wpr w hk hw
    obtain ⟨tcp', frames', hframes', hk'⟩ := hget k wpr hk
    obtain rfl := Option.some.inj (hk'.symm.trans hw)
    exact (realTarget_iff hframes').mpr (hall k wpr hk)

/-! ## A relative waypoint -/

/-- A driver that finds every frame. -/
def mapped : Surroundings ℚ String where
  robotName := "robot"
  tfPrefix := ""
  templateNames := ["trajectory_unsafe_move_l.script"]
  lookup := fun _ _ child => some child
  transformToString := fun t => t
  defaultTransform := "p[0,0,0,0,0,0]"
  jointValues := []
  plan := fun _ _ => .error "a planned trajectory needs at least one waypoint"
  render := fun command => .ok command.commandType

/-- A waypoint in front of the frame `part`, absolute or relative. -/
def partWaypoint (relative : Bool) : SPValue ℚ :=
  .map (some
    [ (.string (some "use_joint_positions"), .bool (some false)),
      (.string (some "acceleration"), .float64 (some 1)),
      (.string (some "velocity"), .float64 (some 1)),
      (.string (some "global_acceleration_scaling"), .float64 (some 1)),
      (.string (some "global_velocity_scaling"), .float64 (some 1)),
      (.string (some "use_execution_time"), .bool (some false)),
      (.string (some "execution_time"), .float64 (some 0)),
      (.string (some "use_blend_radius"), .bool (some false)),
      (.string (some "blend_radius"), .float64 (some 0)),
      (.string (some "joint_positions"), .array (some [])),
      (.string (some "use_preferred_joint_config"), .bool (some false)),
      (.string (some "preferred_joint_config"), .array (some [])),
      (.string (some "use_relative_pose"), .bool (some relative)),
      (.string (some "relative_pose"), .array (some [])),
      (.string (some "use_payload"), .bool (some false)),
      (.string (some "payload"), .string (some "")),
      (.string (some "baseframe_id"), .string (some "base_link")),
      (.string (some "faceplate_id"), .string (some "tool0")),
      (.string (some "goal_feature_id"), .string (some "part")),
      (.string (some "tcp_id"), .string (some "gripper")),
      (.string (some "root_frame_id"), .string (some "world")),
      (.string (some "force_threshold"), .float64 (some 0)) ])

/-- A blended move through that waypoint. -/
def partState (relative : Bool) : SPState ℚ := fun k =>
  if k = "robot_waypoints" then some (.array (some [partWaypoint relative]))
  else if k = "robot_command_type" then some (.string (some "trajectory_unsafe_move_l"))
  else some (.string none)

/-- The command that is built from it. -/
theorem part_built (relative : Bool) : ∃ raw wpr command w,
    Built typedAccessors mapped (partState relative) raw [wpr] command
      ∧ wpr.useRelativePose = relative ∧ wpr.goalFeatureId = "part"
      ∧ command.waypoints = [w] ∧ w.useJointPositions = false
      ∧ w.targetInBase = if relative then "p[0,0,0,0,0,0]" else "part" := by
  cases relative with
  | true => exact ⟨_, _, _, _, ⟨rfl, rfl, _, _, rfl, rfl, rfl⟩, rfl, rfl, rfl, rfl, rfl⟩
  | false => exact ⟨_, _, _, _, ⟨rfl, rfl, _, _, rfl, rfl, rfl⟩, rfl, rfl, rfl, rfl, rfl⟩

theorem realTargets_part : ∃ raw wprs command,
    Built typedAccessors mapped (partState false) raw wprs command
      ∧ RealTargets mapped raw wprs command.waypoints := by
  obtain ⟨raw, wpr, command, w, hbuilt, hrel, -⟩ := part_built false
  refine ⟨raw, [wpr], command, hbuilt, (realTargets_iff hbuilt).mpr ?_⟩
  intro k wpr' hk hun
  obtain rfl := List.mem_singleton.mp (List.mem_of_getElem? hk)
  rw [hun.2] at hrel
  cases hrel

/-- Asked for a pose relative to where it is, the arm is sent to the origin of its base. -/
theorem not_realTargets_part : ∃ raw wprs command w,
    Built typedAccessors mapped (partState true) raw wprs command
      ∧ command.waypoints = [w] ∧ w.useJointPositions = false
      ∧ w.targetInBase = "p[0,0,0,0,0,0]"
      ∧ ¬ RealTargets mapped raw wprs command.waypoints := by
  obtain ⟨raw, wpr, command, w, hbuilt, -, hgoal, hw, hjoint, htarget⟩ := part_built true
  refine ⟨raw, [wpr], command, w, hbuilt, hw, hjoint, htarget, ?_⟩
  intro hreal
  rcases (hreal.2 0 wpr w rfl (by rw [hw]; rfl)).target with hj | ⟨t, ht, heq⟩
  · exact Bool.false_ne_true (hjoint.symm.trans hj)
  · -- the frame that was asked for is somewhere else
    rw [hgoal] at ht
    cases ht
    exact absurd (htarget.symm.trans heq) (by decide)

end UrRedisDriver.Proof
