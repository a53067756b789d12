import UrRedisDriver.Interfaces.StatePublisher

/-!
# Poses as URScript text

The formatters of a pose literal: of an array, and of a transform looked up in Redis. The second
turns a quaternion into a rotation vector, and what is not a number on the way there is not a
number in the text.
-/

namespace UrRedisDriver

open scoped Literals

section Formatters

variable {K : Type}

/-- `p[{},{},{},{},{},{}]` -/
def poseText (num : NumberText K) (x y z rx ry rz : K) : String :=
  "p[" ++ num.display x ++ "," ++ num.display y ++ "," ++ num.display z ++ ","
    ++ num.display rx ++ "," ++ num.display ry ++ "," ++ num.display rz ++ "]"

/-- `core::structs::pose_to_string`; `frames::pose_to_string` is the same of a pose's array. -/
def poseToString (num : NumberText K) (pose : Joints K) : String :=
  poseText num (pose 0) (pose 1) (pose 2) (pose 3) (pose 4) (pose 5)

end Formatters

/-! ## From a quaternion to a rotation vector -/

/-- What `transform_to_string` takes from the floating-point library. `none` is no number. -/
structure AngleMath (K : Type) where
  /-- `f64::EPSILON` -/
  epsilon : K
  sqrt : K → Option K
  acos : K → Option K

section Transforms

variable {K : Type} [Field K] [LinearOrder K]

/-- Division, which yields no number by zero. -/
def divide (a b : K) : Option K := if b = 0 then none else some (a / b)

/-- The three numbers `rx`, `ry`, `rz`. -/
def rotationVector (m : AngleMath K) (rot : SPRotation K) : Option (K × K × K) := do
  let angle := 2 * (← m.acos rot.w)
  let den ← m.sqrt (1 - rot.w ^ 2)
  let norm ← m.sqrt (rot.w ^ 2 + rot.x ^ 2 + rot.y ^ 2 + rot.z ^ 2)
  let x_r ← divide rot.x norm
  let y_r ← divide rot.y norm
  let z_r ← divide rot.z norm
  if |den| < m.epsilon then
    return (x_r * angle, y_r * angle, z_r * angle)
  else
    let rx ← divide x_r den
    let ry ← divide y_r den
    let rz ← divide z_r den
    return (rx * angle, ry * angle, rz * angle)

/-- The six numbers of the literal of a transform. -/
def transformNumbers (m : AngleMath K) (tfStamped : SPTransformStamped K) : Option (Joints K) :=
  let t := tfStamped.transform.translation
  (rotationVector m tfStamped.transform.rotation).map fun (rx, ry, rz) =>
    ![t.x, t.y, t.z, rx, ry, rz]

/-- `transform_to_string`, where every number in it is one. -/
def transformToString (m : AngleMath K) (num : NumberText K) (tfStamped : SPTransformStamped K) :
    Option String :=
  (transformNumbers m tfStamped).map fun v =>
    poseText num (v 0) (v 1) (v 2) (v 3) (v 4) (v 5)

end Transforms

end UrRedisDriver
