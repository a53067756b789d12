import UrRedisDriver.Trajectory.Limits

/-!
# Per-segment speed and acceleration

The fastest a segment may be run at the joint limits, in closed form. A speed that no joint
has bounded yet is `⊤`, which is what the source's `f64::INFINITY` stands for.
-/

namespace UrRedisDriver

open scoped Literals

/-- The speed and acceleration to command for one segment, and which joint set them. -/
structure SegmentSpeed (K : Type) where
  velocity : K
  acceleration : K
  limitingJoint : Nat

section Speed

variable {K : Type} [Field K] [LinearOrder K]

/-- Joint motions below this are treated as "this joint does not move". -/
def motionlessJoint : K := 1 / 1000000000

/-- The largest joint move. -/
def largestMove (dq : Joints K) : K := (List.ofFn fun i => |dq i|).foldl max 0

/-- What the loop of `joint_segment_speed` carries: velocity, acceleration, limiting joint. -/
def boundByJoint (dq : Joints K) (limits : Limits K) (dmax : K)
    (acc : WithTop K × WithTop K × Nat) (i : Fin 6) : WithTop K × WithTop K × Nat :=
  let travel := |dq i|
  if travel ≤ motionlessJoint then acc
  else
    let ratio := dmax / travel
    let v : K := limits.velocityMax i * ratio
    let a : K := limits.accelerationMax i * ratio
    -- Of equal bounds the first joint is named.
    let (velocity, limitingJoint) := if (v : WithTop K) < acc.1 then ((v : WithTop K), i.val)
      else (acc.1, acc.2.2)
    (velocity, min acc.2.1 a, limitingJoint)

/-- The fastest legal `movej` for a joint-space displacement. -/
def jointSegmentSpeed (dq : Joints K) (limits : Limits K) : Option (SegmentSpeed K) :=
  let dmax := largestMove dq
  if dmax ≤ motionlessJoint then none
  else
    match (List.finRange 6).foldl (boundByJoint dq limits dmax) (⊤, ⊤, 0) with
    | (some velocity, some acceleration, limitingJoint) =>
        some ⟨velocity, acceleration, limitingJoint⟩
    | _ => none

/-- Tool speed a straight segment is never allowed to exceed. -/
def defaultMaxCartesianSpeed : K := 1 / 2

/-- A tool-space acceleration ceiling. -/
def defaultCartesianAcceleration : K := defaultMaxCartesianSpeed / rampTimeS

/-- What the loops of `cartesian_speed_cap` carry: velocity, limiting joint. -/
def capByRate (rates : Joints K) (limits : Limits K) (acc : K × Nat) (i : Fin 6) : K × Nat :=
  let rate := |rates i|
  if rate ≤ motionlessJoint then acc
  else
    let v := limits.velocityMax i / rate
    if v < acc.1 then (v, i.val) else acc

/-- The fastest legal tool speed for a Cartesian segment. -/
def cartesianSpeedCap (jointRates : List (Joints K)) (limits : Limits K) (ceiling : K) :
    SegmentSpeed K :=
  let (velocity, limitingJoint) := jointRates.foldl
    (fun acc rates => (List.finRange 6).foldl (capByRate rates limits) acc) (ceiling, 0)
  -- The ramp is slowed down as the speed is, so that its length in time stays.
  let ratio := if ceiling > 0 then velocity / ceiling else 1
  ⟨velocity, defaultCartesianAcceleration * ratio, limitingJoint⟩

end Speed

/-- How long a rest-to-rest trapezoid over `distance` takes at peak `v` and ramp `a`. -/
noncomputable def trapezoidDuration (distance v a : ℝ) : ℝ :=
  let d := |distance|
  if d ≤ 0 ∨ v ≤ 0 ∨ a ≤ 0 then 0
  else
    let rampDistance := v * v / a
    if rampDistance ≥ d then 2 * √(d / a) else 2 * (v / a) + (d - rampDistance) / v

end UrRedisDriver
