import UrRedisDriver.Lib.Result
import UrRedisDriver.Trajectory.Frames

/-!
# Joint limits

Limits are read from a URDF, which does not say how fast a joint may accelerate: that is an
estimate. Scaling makes the arm slower, not smaller.
-/

namespace UrRedisDriver

open scoped Literals

/-- The names of the joints of a UR arm, in the order of every joint vector. -/
def jointNames : Joints String :=
  ![ "shoulder_pan_joint", "shoulder_lift_joint", "elbow_joint", "wrist_1_joint",
    "wrist_2_joint", "wrist_3_joint"]

/-- Per-joint kinematic limits for one arm. -/
structure Limits (K : Type) where
  positionMin : Joints K
  positionMax : Joints K
  velocityMax : Joints K
  /-- Estimated, not published. -/
  accelerationMax : Joints K

/-- Velocity and acceleration scaling for one plan. -/
structure PlanScaling (K : Type) where
  velocity : K
  acceleration : K

section Scaling

variable {K : Type} [Field K] [LinearOrder K]

/-- Time a joint is assumed to need to reach its maximum velocity from rest. -/
def rampTimeS : K := 1 / 2

/-- The default acceleration estimate: reach maximum velocity in `rampTimeS`. -/
def estimateAcceleration (velocityMax : Joints K) : Joints K := fun i => velocityMax i / rampTimeS

/-- `(0, 1]` passes through; anything else means "no scaling". -/
def clampScale (s : K) : K := if s > 0 ∧ s ≤ 1 then s else 1

namespace Limits

/-- Apply velocity and acceleration scaling. -/
def scaled (l : Limits K) (scaling : PlanScaling K) : Limits K :=
  { l with
    velocityMax := fun i => l.velocityMax i * clampScale scaling.velocity
    accelerationMax := fun i => l.accelerationMax i * clampScale scaling.acceleration }

/-- Replace the estimated acceleration limits with explicit values. -/
def withAcceleration (l : Limits K) (accelerationMax : Joints K) : Limits K :=
  { l with accelerationMax := accelerationMax }

/-- The first joint outside its position limits, if any. -/
def firstViolation (l : Limits K) (q : Joints K) : Option (Fin 6 × K × K × K) :=
  ((List.finRange 6).find? fun i => q i < l.positionMin i || q i > l.positionMax i).map fun i =>
    (i, q i, l.positionMin i, l.positionMax i)

end Limits

end Scaling

/-! ## Reading a URDF -/

noncomputable section

/-- A joint as `urdf_rs` reads it. -/
structure UrdfJoint where
  name : String
  continuous : Bool
  lower : ℝ
  upper : ℝ
  velocity : ℝ

/-- The limits of one joint: lowest and highest position, highest velocity. -/
def UrdfJoint.limit (path : String) (joints : List UrdfJoint) (name : String) :
    Except String (ℝ × ℝ × ℝ) :=
  (Except.ofOption (joints.find? (·.name = name)) s!"{path} has no joint '{name}'").bind fun j =>
    (Except.require (0 < j.velocity) s!"{path}: joint '{name}' has no velocity limit").bind fun _ =>
      if j.continuous ∨ j.lower = j.upper then
        .ok (-2 * Real.pi, 2 * Real.pi, j.velocity)
      else .ok (j.lower, j.upper, j.velocity)

/-- The first failure in the order of the joints, or all of the values. -/
def Joints.sequence {K : Type} (f : Fin 6 → Except String K) : Except String (Joints K) :=
  (f 0).bind fun a => (f 1).bind fun b => (f 2).bind fun c => (f 3).bind fun d =>
    (f 4).bind fun e => (f 5).bind fun g => .ok ![a, b, c, d, e, g]

theorem Joints.sequence_ok {K : Type} {f : Fin 6 → Except String K} {v : Joints K} :
    Joints.sequence f = .ok v ↔ ∀ i, f i = .ok (v i) := by
  unfold Joints.sequence
  simp only [Except.bind_eq_ok]
  constructor
  · rintro ⟨a, ha, b, hb, c, hc, d, hd, e, he, g, hg, h⟩
    rw [← Except.ok.inj h]
    intro i
    fin_cases i <;> assumption
  · intro h
    refine ⟨_, h 0, _, h 1, _, h 2, _, h 3, _, h 4, _, h 5, ?_⟩
    congr 1
    funext i
    fin_cases i <;> rfl

/-- Read position and velocity limits from a URDF, estimating acceleration. -/
def Limits.fromUrdf (readFile : String → Except String (List UrdfJoint)) (path : String) :
    Except String (Limits ℝ) :=
  ((readFile path).mapError fun e => s!"{path}: {e}").bind fun joints =>
    (Joints.sequence fun i => UrdfJoint.limit path joints (jointNames i)).bind fun limits =>
      .ok
        { positionMin := fun i => (limits i).1
          positionMax := fun i => (limits i).2.1
          velocityMax := fun i => (limits i).2.2
          accelerationMax := estimateAcceleration fun i => (limits i).2.2 }

end

end UrRedisDriver
