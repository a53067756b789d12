import UrRedisDriver.Trajectory.Kinematics
import UrRedisDriver.Trajectory.Limits

/-!
# Path geometry

Resolving waypoints to joint space, sizing corner blends, and following a straight line.
-/

namespace UrRedisDriver

open scoped Literals

noncomputable section

/-- Why a waypoint could not be turned into a joint configuration. -/
inductive ResolveError
  /-- No branch at all: the pose is outside the arm's reach. -/
  | unreachable (index : Nat)
  /-- Branches exist, but every one of them violates a joint limit. -/
  | outsideJointLimits (index : Nat)
  /-- A joint configuration was supplied directly and is outside the limits. -/
  | givenConfigurationOutsideLimits (index joint : Nat) (value min max : ℝ)

def ResolveError.display (num : NumberText ℝ) : ResolveError → String
  | .unreachable index => s!"waypoint {index} is outside the arm's reach"
  | .outsideJointLimits index =>
      s!"waypoint {index} is reachable, but every inverse-kinematics branch "
        ++ "violates a joint limit"
  | .givenConfigurationOutsideLimits index joint value min max =>
      s!"waypoint {index} sets joint {joint} to " ++ num.display value ++ ", outside ["
        ++ num.display min ++ ", " ++ num.display max ++ "]"

/-- Resolve one tool pose to the joint configuration nearest a seed. -/
def resolvePose (dh : DhParameters) (limits : Limits ℝ) (target : Pose) (seed : Joints ℝ)
    (index : Nat) : Except ResolveError (Joints ℝ) :=
  let raw := inverseKinematics dh target
  if raw = [] then .error (.unreachable index)
  else
    let within := inverseKinematicsFiltered dh target limits.positionMin limits.positionMax
    .ofOption (selectNearest within seed) (.outsideJointLimits index)

/-- Check a directly supplied joint configuration against the position limits. -/
def checkConfiguration (limits : Limits ℝ) (q : Joints ℝ) (index : Nat) :
    Except ResolveError Unit :=
  match limits.firstViolation q with
  | none => .ok ()
  | some (joint, value, min, max) =>
      .error (.givenConfigurationOutsideLimits index joint value min max)

/-- The per-joint change between two configurations. -/
def jointDelta (a b : Joints ℝ) : Joints ℝ := fun i => b i - a i

/-! ## Corner blends -/

/-- Blend regions closer together than this fraction of the chord are overlapping. -/
def chordFraction : ℝ := 0.4

/-- Blend radii below this are not worth emitting. -/
def minUsefulBlend : ℝ := 0.001

/-- Beyond this deflection a corner is a reversal and cannot be blended. -/
def maxBlendableDeflection : ℝ := 170 * Real.pi / 180

/-- The deflection angle at a corner, if both adjacent segments have a length. -/
def cornerDeflection (prev at_ next : Vec3) : Option ℝ :=
  let incoming := at_ - prev
  let outgoing := next - at_
  let li := Vec3.norm incoming
  let lo := Vec3.norm outgoing
  if li ≤ 1e-12 ∨ lo ≤ 1e-12 then none
  else some (Real.arccos (Angle.clamp (incoming ⬝ᵥ outgoing / (li * lo)) (-1) 1))

/-- The blend radius to command at a corner, in metres. -/
def blendRadius (deflection chordIn chordOut maxDeviation : ℝ) (requested : Option ℝ) : ℝ :=
  if deflection ≥ maxBlendableDeflection then 0
  else
    let byChord := chordFraction * min chordIn chordOut
    let quarter := Real.tan (deflection / 4)
    -- Nearly straight on, no radius leaves the path by much.
    let byDeviation := if quarter > 1e-9 then min byChord (maxDeviation / quarter) else byChord
    let r := requested.elim byDeviation fun cap => min byDeviation (max cap 0)
    if r < minUsefulBlend then 0 else r

/-! ## Straight lines -/

/-- `try_inverse` of a square matrix: a singular one has none. -/
def tryInverse (m : Matrix (Fin 6) (Fin 6) ℝ) : Option (Matrix (Fin 6) (Fin 6) ℝ) :=
  if m.det = 0 then none else some m⁻¹

/-- Interpolate the translation linearly and the rotation spherically. -/
def lerpSlerp (a b : Pose) (t : ℝ) : Pose :=
  ⟨UnitQuaternion.slerp a.rot b.rot t, (1 - t) • a.trans + t • b.trans⟩

/-- The twist of a tool moving at unit speed along the line between two poses. -/
def unitTwist (a b : Pose) : Joints ℝ :=
  let travel := b.trans - a.trans
  let distance := Vec3.norm travel
  let dir := if distance > 1e-12 then distance⁻¹ • travel else 0
  let rot := UnitQuaternion.scaledAxis (b.rot * a.rot⁻¹)
  let omega := if distance > 1e-12 then distance⁻¹ • rot else 0
  ![dir 0, dir 1, dir 2, omega 0, omega 1, omega 2]

/--
The samples of a straight segment from the `k`-th on: the configuration selected at each,
and the joint rates unit tool speed demands there. `count` is how many the segment has.
-/
def followLine (dh : DhParameters) (limits : Limits ℝ) (a b : Pose) (count : Nat) :
    (todo k : Nat) → (seed : Joints ℝ) → Option (List (Joints ℝ × Joints ℝ))
  | 0, _, _ => some []
  | todo + 1, k, seed =>
      let t : ℝ := (k : ℝ) / ((count - 1 : Nat) : ℝ)
      let sols := inverseKinematicsFiltered dh (lerpSlerp a b t) limits.positionMin
        limits.positionMax
      (selectNearest sols seed).bind fun q =>
        -- A jump this far is a change of branch; the first sample has nothing before it.
        if k > 0 ∧ configurationDistance q seed > Real.pi then none
        else
          (tryInverse (jacobian dh q)).bind fun inv =>
            (followLine dh limits a b count todo (k + 1) q).map fun rest =>
              (q, inv.mulVec (unitTwist a b)) :: rest

/-- How many samples a straight segment gets. -/
def sampleCount (distance step : ℝ) (maxSamples : Nat) : Nat :=
  if distance ≤ step then 2 else min (⌈distance / step⌉₊ + 1) maxSamples

/-- Joint rates produced by unit tool speed, sampled along a straight segment. -/
def sampleLinearSegment (dh : DhParameters) (limits : Limits ℝ) (fromQ : Joints ℝ)
    (toPose : Pose) (step : ℝ) (maxSamples : Nat) : Option (List (Joints ℝ)) :=
  let fromPose := forwardKinematics dh fromQ
  let count := sampleCount (Vec3.norm (toPose.trans - fromPose.trans)) step maxSamples
  (followLine dh limits fromPose toPose count count 0 fromQ).map (List.map Prod.snd)

end

end UrRedisDriver
