import UrRedisDriver.Trajectory.Frames
import Mathlib.Data.List.MinMax
import Mathlib.LinearAlgebra.CrossProduct
import Mathlib.LinearAlgebra.Matrix.NonsingularInverse

/-!
# Forward and inverse kinematics of the UR arms

Everything is expressed in the UR base frame. The branches of the inverse kinematics are
listed in the order the source pushes them: by `theta1`, then `theta5`, then `theta3`.
-/

namespace UrRedisDriver

noncomputable section

open scoped Literals
open Real (pi)
open UnitQuaternion (fromAxisAngle)

/-- The six Denavit-Hartenberg lengths that distinguish one UR model from another. -/
structure DhParameters where
  d1 : ℝ
  a2 : ℝ
  a3 : ℝ
  d4 : ℝ
  d5 : ℝ
  d6 : ℝ

namespace DhParameters

/-- The parameters of a model by its name. -/
def forModel (model : String) : Option DhParameters :=
  if model = "ur3" then some ⟨0.1519, -0.24365, -0.21325, 0.11235, 0.08535, 0.0819⟩
  else if model = "ur3e" then some ⟨0.15185, -0.24355, -0.2132, 0.13105, 0.08535, 0.0921⟩
  else if model = "ur5" then some ⟨0.089159, -0.425, -0.39225, 0.10915, 0.09465, 0.0823⟩
  else if model = "ur5e" then some ⟨0.1625, -0.425, -0.3922, 0.1333, 0.0997, 0.0996⟩
  else if model = "ur10" then some ⟨0.1273, -0.612, -0.5723, 0.163941, 0.1157, 0.0922⟩
  else if model = "ur10e" then some ⟨0.1807, -0.6127, -0.57155, 0.17415, 0.11985, 0.11655⟩
  else if model = "ur16e" then some ⟨0.1807, -0.4784, -0.36, 0.17415, 0.11985, 0.11655⟩
  else if model = "ur20" then some ⟨0.2363, -0.862, -0.7287, 0.201, 0.1593, 0.1543⟩
  else if model = "ur30" then some ⟨0.2363, -0.637, -0.5037, 0.201, 0.1593, 0.1543⟩
  else none

/-- The row of a joint, as `(d, a, alpha)`. -/
def row (dh : DhParameters) : Fin 6 → ℝ × ℝ × ℝ :=
  ![(dh.d1, 0, pi / 2), (0, dh.a2, 0), (0, dh.a3, 0), (dh.d4, 0, pi / 2),
    (dh.d5, 0, -pi / 2), (dh.d6, 0, 0)]

end DhParameters

/-- One link transform, `Rz(theta) * Tz(d) * Tx(a) * Rx(alpha)`. -/
def dhTransform (theta d a alpha : ℝ) : Pose :=
  Pose.rotation (fromAxisAngle Vec3.zAxis theta) * Pose.translation 0 0 d
    * Pose.translation a 0 0 * Pose.rotation (fromAxisAngle Vec3.xAxis alpha)

/-- The transform of joint `i`. -/
def DhParameters.link (dh : DhParameters) (q : Joints ℝ) (i : Fin 6) : Pose :=
  dhTransform (q i) (dh.row i).1 (dh.row i).2.1 (dh.row i).2.2

/-- Forward kinematics: the pose of the tool flange. -/
def forwardKinematics (dh : DhParameters) (q : Joints ℝ) : Pose :=
  (List.finRange 6).foldl (fun t i => t * dh.link q i) 1

/-- Forward kinematics to every joint frame, base first, flange last. -/
def forwardKinematicsAll (dh : DhParameters) (q : Joints ℝ) : Fin 6 → Pose := fun i =>
  ((List.finRange 6).take (i + 1)).foldl (fun t i => t * dh.link q i) 1

/-- Wrap an angle into `(-pi, pi]`. -/
def wrapToPi (a : ℝ) : ℝ :=
  let x := Angle.rem (a + pi) (2 * pi)
  (if x ≤ 0 then x + 2 * pi else x) - pi

/-- How close to a singularity a value has to be before it is treated as one. -/
def singularEps : ℝ := 1e-7

/-- Slack allowed on a cosine before a branch is judged out of reach. -/
def reachTolerance : ℝ := 1e-9

/-! ## The branches of the inverse kinematics -/

section Branches

variable (dh : DhParameters) (target : Pose)

/-- The wrist centre must lie on a cylinder of radius `d4`: the choices for `theta1`. -/
def theta1Branches : List ℝ :=
  let m := UnitQuaternion.matrix target.rot
  let p := target.trans
  let x := p 0 - dh.d6 * m 0 2
  let y := p 1 - dh.d6 * m 1 2
  let r := √(x * x + y * y)
  if r < |dh.d4| then []
  else
    let phi := Real.arccos (Angle.clamp (dh.d4 / r) (-1) 1)
    let base := Angle.atan2 x (-y)
    [base + phi, base - phi]

/-- The cosine of `theta5`: the tool approach vector against the shoulder offset. -/
def c5Raw (theta1 : ℝ) : ℝ :=
  (target.trans 0 * Real.sin theta1 - target.trans 1 * Real.cos theta1 - dh.d4) / dh.d6

/-- The choices for `theta5`. -/
def theta5Branches (theta1 : ℝ) : List ℝ :=
  let c5 := c5Raw dh target theta1
  if |c5| > 1 + reachTolerance then []
  else
    let a5 := Real.arccos (Angle.clamp c5 (-1) 1)
    [a5, -a5]

/-- `theta6`, from the tool's own axes; zero when the wrist is straight. -/
def theta6 (theta1 theta5 : ℝ) : ℝ :=
  let m := UnitQuaternion.matrix target.rot
  let s1 := Real.sin theta1
  let c1 := Real.cos theta1
  let s5 := Real.sin theta5
  if |s5| < singularEps then 0
  else
    let sign : ℝ := if s5 > 0 then 1 else -1
    Angle.atan2 (sign * (-m 0 1 * s1 + m 1 1 * c1)) (sign * (m 0 0 * s1 - m 1 0 * c1))

/-- What joints 2, 3 and 4 have to bring about. -/
def t14 (theta1 theta5 theta6 : ℝ) : Pose :=
  let t01 := dhTransform theta1 dh.d1 0 (pi / 2)
  let t45 := dhTransform theta5 dh.d5 0 (-pi / 2)
  let t56 := dhTransform theta6 dh.d6 0 0
  t01⁻¹ * target * (t45 * t56)⁻¹

/-- The cosine of `theta3`: the two-link arm of lengths `a2` and `a3` has to span `t14`. -/
def c3Raw (t : Pose) : ℝ :=
  let reach2 := t.trans 0 * t.trans 0 + t.trans 1 * t.trans 1
  (reach2 - dh.a2 * dh.a2 - dh.a3 * dh.a3) / (2 * dh.a2 * dh.a3)

/-- The choices for `theta3`. -/
def theta3Branches (t : Pose) : List ℝ :=
  let c3 := c3Raw dh t
  if |c3| > 1 + reachTolerance then []
  else
    let a3ang := Real.arccos (Angle.clamp c3 (-1) 1)
    [a3ang, -a3ang]

/-- The sum of joints 2, 3 and 4. -/
def theta234 (t : Pose) : ℝ :=
  let m14 := UnitQuaternion.matrix (t.rot * fromAxisAngle Vec3.xAxis (-pi / 2))
  Angle.atan2 (m14 1 0) (m14 0 0)

def theta2 (t : Pose) (theta3 : ℝ) : ℝ :=
  Angle.atan2 (t.trans 1) (t.trans 0)
    - Angle.atan2 (dh.a3 * Real.sin theta3) (dh.a2 + dh.a3 * Real.cos theta3)

/-- The six angles of one branch, before they are wrapped. -/
def branch (theta1 theta5 theta3 : ℝ) : Joints ℝ :=
  let th6 := theta6 target theta1 theta5
  let t := t14 dh target theta1 theta5 th6
  let th2 := theta2 dh t theta3
  ![theta1, th2, theta3, theta234 t - th2 - theta3, theta5, th6]

/-- All closed-form branches for a flange pose, every joint wrapped into `(-pi, pi]`. -/
def inverseKinematics : List (Joints ℝ) :=
  (theta1Branches dh target).flatMap fun theta1 =>
    (theta5Branches dh target theta1).flatMap fun theta5 =>
      (theta3Branches dh (t14 dh target theta1 theta5 (theta6 target theta1 theta5))).map
        fun theta3 => wrapToPi ∘ branch dh target theta1 theta5 theta3

end Branches

/-! ## Whole turns and the nearest branch -/

/-- Offset each joint by the whole turns that stay inside its limits. -/
def expandTurns : {n : Nat} → (sol lower upper : Fin n → ℝ) → List (Fin n → ℝ)
  | 0, sol, _, _ => [sol]
  | _ + 1, sol, lower, upper =>
      (([-1, 0, 1] : List ℝ).map fun turn => sol 0 + turn * 2 * pi).flatMap fun v =>
        if v ≥ lower 0 ∧ v ≤ upper 0 then
          (expandTurns (Fin.tail sol) (Fin.tail lower) (Fin.tail upper)).map (Fin.cons v)
        else []

/-- Inverse kinematics, expanded across whole turns and filtered to limits. -/
def inverseKinematicsFiltered (dh : DhParameters) (target : Pose) (lower upper : Joints ℝ) :
    List (Joints ℝ) :=
  (inverseKinematics dh target).flatMap fun sol => expandTurns sol lower upper

/-- Per-joint weights used when ranking branches. -/
def branchWeights : Joints ℝ := ![4, 4, 3, 1, 1, 1]

/-- Weighted distance between two configurations, as the largest weighted joint move. -/
def configurationDistance (a b : Joints ℝ) : ℝ :=
  (List.ofFn fun i => branchWeights i * |a i - b i|).foldl max 0

/-- Pick the first branch closest to `preferred`. -/
def selectNearest (solutions : List (Joints ℝ)) (preferred : Joints ℝ) : Option (Joints ℝ) :=
  solutions.argmin fun s => configurationDistance s preferred

/-- The axis of a joint and a point on it: those of the frame before it. -/
def jointAxis (frames : Fin 6 → Pose) (i : Fin 6) : Vec3 × Vec3 :=
  if i = 0 then (![0, 0, 1], 0) else ((frames (i - 1)).rot • ![0, 0, 1], (frames (i - 1)).trans)

/-- The geometric Jacobian, linear rows first. -/
def jacobian (dh : DhParameters) (q : Joints ℝ) : Matrix (Fin 6) (Fin 6) ℝ :=
  let frames := forwardKinematicsAll dh q
  .of fun r i =>
    let z := (jointAxis frames i).1
    let lin := crossProduct z ((frames 5).trans - (jointAxis frames i).2)
    ![lin 0, lin 1, lin 2, z 0, z 1, z 2] r

end

end UrRedisDriver
