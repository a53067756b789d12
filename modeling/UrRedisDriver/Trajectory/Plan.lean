import UrRedisDriver.Trajectory.Path
import UrRedisDriver.Trajectory.Timing

/-!
# The planner

Waypoints in, a blended `movej`/`movel` chain out. Waypoints are counted from one in what
is reported about them; the start is number zero.
-/

namespace UrRedisDriver

open scoped Literals

noncomputable section

/-- How far the tool may stray from a corner when blending, in metres. -/
def defaultMaxPathDeviation : ℝ := 0.01

/-- Cartesian sampling step used to check a straight segment, in metres. -/
def linearSampleStep : ℝ := 0.005

/-- Samples one straight segment is allowed. -/
def maxLinearSamples : Nat := 2000

/-- Emitted waypoints beyond which a plan is refused. -/
def maxWaypoints : Nat := 400

/-- Where a waypoint is, and in what space it was given. -/
inductive WaypointTarget
  | joints (q : Joints ℝ)
  /-- A tool pose, `[x, y, z, rx, ry, rz]` with a rotation vector. -/
  | pose (values : Joints ℝ) (frame : PoseFrame)

/-- How the arm should travel to a waypoint. -/
inductive Interpolation
  /-- `movej` -/
  | joint
  /-- `movel` -/
  | linear
  deriving DecidableEq

/-- One waypoint as the caller specifies it. -/
structure PlanWaypoint where
  target : WaypointTarget
  /-- Which branch to prefer; without one, the branch nearest the previous waypoint. -/
  preferredJointConfig : Option (Joints ℝ)
  /-- An upper bound on this corner's blend radius. -/
  blendRadius : Option ℝ
  interpolation : Interpolation

/-- A complete planning problem. -/
structure PlanRequest where
  robotModel : String
  start : WaypointTarget
  waypoints : List PlanWaypoint
  scaling : PlanScaling ℝ
  /-- Overrides the estimated acceleration limits. -/
  accelerationMax : Option (Joints ℝ)
  maxCartesianSpeed : ℝ
  maxPathDeviation : ℝ
  frameConfig : FrameConfig

/-- One waypoint as the controller will receive it. -/
structure PlannedWaypoint where
  jointPositions : Joints ℝ
  velocity : ℝ
  acceleration : ℝ
  /-- Zero means "stop here". -/
  blendRadius : ℝ
  useLinearMotion : Bool
  limitingJoint : Nat

/-- A planned trajectory, ready to store or to render. -/
structure PlannedTrajectory where
  robotModel : String
  startJointPositions : Joints ℝ
  waypoints : List PlannedWaypoint
  durationEstimate : ℝ
  limits : Limits ℝ
  warnings : List String

/-- Why a plan could not be produced. -/
inductive PlanError
  | unknownModel (model : String)
  | noWaypoints
  | tooManyWaypoints (count max : Nat)
  | resolve (e : ResolveError)
  | linearSegmentNotFollowable (index : Nat)
  | degenerateSegment (index : Nat)

def PlanError.display (num : NumberText ℝ) : PlanError → String
  | .unknownModel m => s!"unknown robot model '{m}'"
  | .noWaypoints => "a trajectory needs at least one waypoint"
  | .tooManyWaypoints count max => s!"{count} waypoints exceeds the limit of {max}"
  | .resolve e => e.display num
  | .linearSegmentNotFollowable index =>
      s!"the straight path to waypoint {index} leaves the workspace or requires "
        ++ "a wrist flip; use joint interpolation or add an intermediate waypoint"
  | .degenerateSegment index =>
      s!"waypoint {index} is the same configuration as the one before it"

/-- The files and variables `model_limits` looks at. -/
structure LimitSource where
  /-- `urdf_rs::read_file`. -/
  readUrdf : String → Except String (List UrdfJoint)
  /-- `UR_DESCRIPTION_DIR`. -/
  urDescriptionDir : Option String

/-- The limits a URDF that may be missing or unusable gives. -/
def LimitSource.read (src : LimitSource) (path : String) : Option (Limits ℝ) :=
  match Limits.fromUrdf src.readUrdf path with
  | .ok l => some l
  | .error _ => none

/-- Limits for a model: from the vendored URDF when it is there, else from the directory. -/
def modelLimits (src : LimitSource) (model : String) : Except PlanError (Limits ℝ) :=
  .ofOption
    ((src.read ("src/ur_description/urdf/" ++ model ++ ".urdf")).or
      (src.urDescriptionDir.bind fun dir =>
        src.read (Text.trimEndMatches dir '/' ++ "/urdf/" ++ model ++ ".urdf")))
    (.unknownModel model)

/-! ## Every waypoint to joint space -/

/-- Resolve one target. -/
def resolve (target : WaypointTarget) (preferred : Option (Joints ℝ)) (dh : DhParameters)
    (limits : Limits ℝ) (frames : FrameConfig) (seed : Joints ℝ) (index : Nat) :
    Except PlanError (Joints ℝ) :=
  match target with
  | .joints q =>
      ((checkConfiguration limits q index).mapError .resolve).bind fun _ => .ok q
  | .pose values frame =>
      let p := poseFromArray values
      let inUrBase :=
        match frame with
        | .urBase => p
        | .urdfBaseLink => frames.baseLinkToUrBase p
      (resolvePose dh limits inUrBase (preferred.getD seed) index).mapError .resolve

/-- Resolve waypoint `i + 1` and those after it, each seeded from the one before. -/
def resolveWaypoints (dh : DhParameters) (limits : Limits ℝ) (frames : FrameConfig) :
    (i : Nat) → (prev : Joints ℝ) → List PlanWaypoint → Except PlanError (List (Joints ℝ))
  | _, _, [] => .ok []
  | i, prev, wp :: wps =>
      (resolve wp.target wp.preferredJointConfig dh limits frames
        (wp.preferredJointConfig.getD prev) (i + 1)).bind fun q =>
          (resolveWaypoints dh limits frames (i + 1) q wps).bind fun qs => .ok (q :: qs)

/-! ## Per-segment speed -/

/-- The flange position in a configuration. -/
def flangePoint (dh : DhParameters) (q : Joints ℝ) : Vec3 := (forwardKinematics dh q).trans

/-- The distance between the flange positions of two configurations. -/
def chord (dh : DhParameters) (a b : Joints ℝ) : ℝ :=
  Vec3.norm (flangePoint dh b - flangePoint dh a)

/-- One timed segment: what is emitted for it, its duration, and what is to be said. -/
structure Segment where
  planned : PlannedWaypoint
  duration : ℝ
  warnings : List String

/-- The speed of the segment to waypoint `i + 1`. -/
def segmentSpeed (dh : DhParameters) (limits : Limits ℝ) (maxCartesianSpeed : ℝ) (i : Nat)
    (interpolation : Interpolation) (fromQ toQ : Joints ℝ) :
    Except PlanError (SegmentSpeed ℝ) :=
  match interpolation with
  | .linear =>
      (Except.ofOption (sampleLinearSegment dh limits fromQ (forwardKinematics dh toQ)
        linearSampleStep maxLinearSamples) (.linearSegmentNotFollowable (i + 1))).bind
          fun rates => .ok (cartesianSpeedCap rates limits maxCartesianSpeed)
  | .joint =>
      .ofOption (jointSegmentSpeed (jointDelta fromQ toQ) limits) (.degenerateSegment (i + 1))

/-- The distance of a segment in whatever space it is timed in. -/
def segmentDistance (dh : DhParameters) (interpolation : Interpolation)
    (fromQ toQ : Joints ℝ) : ℝ :=
  match interpolation with
  | .linear => chord dh fromQ toQ
  | .joint => largestMove (jointDelta fromQ toQ)

/-- The segment to waypoint `i + 1`. Its blend is filled in once the next one is known. -/
def planSegment (dh : DhParameters) (limits : Limits ℝ) (maxCartesianSpeed : ℝ) (i : Nat)
    (wp : PlanWaypoint) (fromQ toQ : Joints ℝ) : Except PlanError Segment :=
  (segmentSpeed dh limits maxCartesianSpeed i wp.interpolation fromQ toQ).bind fun speed =>
    let distance := segmentDistance dh wp.interpolation fromQ toQ
    .ok
      { planned :=
          { jointPositions := toQ
            velocity := speed.velocity
            acceleration := speed.acceleration
            blendRadius := 0
            useLinearMotion := wp.interpolation = .linear
            limitingJoint := speed.limitingJoint }
        duration := trapezoidDuration distance speed.velocity speed.acceleration
        warnings :=
          if wp.interpolation = .linear ∧ chord dh fromQ toQ < 1e-6 then
            [s!"waypoint {i + 1} asks for a straight move but the tool does not travel; "
              ++ "only the orientation changes"]
          else [] }

/-- The segments to waypoint `i + 1` and those after it. -/
def planSegments (dh : DhParameters) (limits : Limits ℝ) (maxCartesianSpeed : ℝ) :
    (i : Nat) → (fromQ : Joints ℝ) → List (PlanWaypoint × Joints ℝ) →
      Except PlanError (List Segment)
  | _, _, [] => .ok []
  | i, fromQ, (wp, toQ) :: rest =>
      (planSegment dh limits maxCartesianSpeed i wp fromQ toQ).bind fun s =>
        (planSegments dh limits maxCartesianSpeed (i + 1) toQ rest).bind fun ss => .ok (s :: ss)

/-! ## Corner blends -/

/-- The radius at the corner of waypoint `i + 1`, if there is one, and what is to be said. -/
def cornerBlend (maxPathDeviation : ℝ) (i : Nat) (requested : Option ℝ)
    (p0 p1 p2 : Vec3) : Option (ℝ × List String) :=
  (cornerDeflection p0 p1 p2).map fun deflection =>
    let r := blendRadius deflection (Vec3.norm (p1 - p0)) (Vec3.norm (p2 - p1))
      maxPathDeviation requested
    (r, if r = 0 ∧ deflection < Real.pi / 2 then
        [s!"waypoint {i + 1} cannot be blended, so the arm will stop there"]
      else [])

/--
Blend the corners of waypoint `i + 1` and those after it; `p` is the point before it. The
last waypoint has no corner, so the motion ends at rest.
-/
def blendCorners (dh : DhParameters) (maxPathDeviation : ℝ) :
    (i : Nat) → (p : Vec3) → List PlanWaypoint → List PlannedWaypoint →
      List PlannedWaypoint × List String
  | i, p, wp :: wps, w :: w' :: ws =>
      let p1 := flangePoint dh w.jointPositions
      let rest := blendCorners dh maxPathDeviation (i + 1) p1 wps (w' :: ws)
      match cornerBlend maxPathDeviation i wp.blendRadius p p1
        (flangePoint dh w'.jointPositions) with
      | none => (w :: rest.1, rest.2)
      | some (r, said) => ({ w with blendRadius := r } :: rest.1, said ++ rest.2)
  | _, _, _, ws => (ws, [])

/-- Plan a trajectory. The start is not among the waypoints returned. -/
def plan (src : LimitSource) (request : PlanRequest) : Except PlanError PlannedTrajectory :=
  (Except.ofOption (DhParameters.forModel request.robotModel)
    (.unknownModel request.robotModel)).bind fun dh =>
  (Except.require (request.waypoints ≠ []) PlanError.noWaypoints).bind fun _ =>
  (Except.require (request.waypoints.length ≤ maxWaypoints)
    (.tooManyWaypoints request.waypoints.length maxWaypoints)).bind fun _ =>
  (modelLimits src request.robotModel).bind fun modelled =>
  let base := request.accelerationMax.elim modelled modelled.withAcceleration
  let limits := base.scaled request.scaling
  (resolve request.start none dh limits request.frameConfig 0 0).bind fun startQ =>
  (resolveWaypoints dh limits request.frameConfig 0 startQ request.waypoints).bind fun configs =>
  (planSegments dh limits request.maxCartesianSpeed 0 startQ
    (request.waypoints.zip configs)).bind fun segments =>
  let blended := blendCorners dh request.maxPathDeviation 0 (flangePoint dh startQ)
    request.waypoints (segments.map Segment.planned)
  .ok
    { robotModel := request.robotModel
      startJointPositions := startQ
      waypoints := blended.1
      durationEstimate := (segments.map Segment.duration).sum
      limits := limits
      warnings := segments.flatMap Segment.warnings ++ blended.2 }

end

end UrRedisDriver
