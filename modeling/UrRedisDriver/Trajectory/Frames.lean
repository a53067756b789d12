import UrRedisDriver.Lib.Text
import UrRedisDriver.Lib.UnitQuaternion

/-!
# Poses and the frame convention

A pose is a rigid motion, its turn a unit quaternion, over the real numbers: nothing here is
rounded. How a number is read from text and written as text is left open (`NumberText`).
-/

namespace UrRedisDriver

/-- One value for each of the six joints. -/
abbrev Joints (K : Type) := Fin 6 → K

/-- `[f64; 6]` from the values of a slice of that length. -/
def Joints.ofList? {K : Type} (l : List K) : Option (Joints K) :=
  if h : l.length = 6 then some fun i => l.get (i.cast h.symm) else none

/-- How numbers are read from text and written as text. -/
structure NumberText (K : Type) where
  /-- `str::parse::<f64>`. -/
  parse : String → Except String K
  /-- `{}` -/
  display : K → String
  /-- `{:.4}` -/
  fixed4 : K → String

open scoped Literals

noncomputable section

/-- A rigid transform. -/
abbrev Pose := Motion UnitQuaternion Vec3

namespace Pose

/-- The translation by a vector. -/
def translation (x y z : ℝ) : Pose := ⟨1, ![x, y, z]⟩

/-- The turn about an axis through the origin. -/
def rotation (q : UnitQuaternion) : Pose := ⟨q, 0⟩

end Pose

/-- Which frame a `[x, y, z, rx, ry, rz]` array is expressed in. -/
inductive PoseFrame
  /-- The UR controller's `Base`. -/
  | urBase
  /-- The URDF `base_link`. -/
  | urdfBaseLink

/-- How the driver's TF tree relates to the UR controller's base frame. -/
structure FrameConfig where
  /-- The TF tree's `base_link` is numerically the UR `base` frame. -/
  baseLinkIsUrBase : Bool

/-- The driver as it behaves today. -/
def FrameConfig.default : FrameConfig := ⟨true⟩

/-- The `base_link` to UR `base` rotation: half a turn about the third axis. -/
def rzPi : Pose := ⟨UnitQuaternion.fromScaledAxis ![0, 0, Real.pi], ![0, 0, 0]⟩

namespace FrameConfig

/-- Reinterpret a pose that was looked up against `base_link` as a UR base pose. -/
def baseLinkToUrBase (c : FrameConfig) (pose : Pose) : Pose :=
  if c.baseLinkIsUrBase then pose else rzPi * pose

end FrameConfig

/-- Build a pose from URScript's `[x, y, z, rx, ry, rz]` layout. -/
def poseFromArray (p : Joints ℝ) : Pose :=
  ⟨UnitQuaternion.fromScaledAxis ![p 3, p 4, p 5], ![p 0, p 1, p 2]⟩

end

section Literals

variable {K L : Type}

/-- The components of a pose literal, the first of them the `seen`-th. -/
def poseComponents (num : NumberText K) (s : String) :
    Nat → List String → Except String (List K)
  | _, [] => .ok []
  | seen, part :: parts =>
      if seen = 6 then .error s!"'{s}' has more than six components"
      else
        match num.parse (Text.trim part) with
        | .error e => .error s!"'{s}' component {seen} is not a number: {e}"
        | .ok x => (poseComponents num s (seen + 1) parts).map (x :: ·)

/-- What stands between the brackets of a pose literal. -/
def poseBody (s : String) : Option String :=
  let trimmed := Text.trim s
  let rest := (Text.stripPrefix trimmed 'p').getD trimmed
  (Text.stripPrefix (Text.trim rest) '[').bind (Text.stripSuffix · ']')

/-- Parse a URScript pose literal, `p[x,y,z,rx,ry,rz]`. -/
def parsePoseString (num : NumberText K) (s : String) : Except String (Joints K) :=
  match poseBody s with
  | none => .error s!"'{s}' is not a p[...] pose literal"
  | some body =>
      match poseComponents num s 0 (Text.split body ',') with
      | .error e => .error e
      | .ok xs =>
          match Joints.ofList? xs with
          | some v => .ok v
          | none => .error s!"'{s}' has {xs.length} components, expected six"

/-- Numbers read as those of another type. -/
def NumberText.map (f : K → L) (display fixed4 : L → String) (num : NumberText K) :
    NumberText L where
  parse s := (num.parse s).map f
  display := display
  fixed4 := fixed4

theorem poseComponents_map (f : K → L) (display fixed4 : L → String) (num : NumberText K)
    (s : String) (parts : List String) (seen : Nat) :
    poseComponents (num.map f display fixed4) s seen parts
      = (poseComponents num s seen parts).map (List.map f) := by
  induction parts generalizing seen with
  | nil => rfl
  | cons part parts ih =>
      unfold poseComponents
      by_cases h : seen = 6
      · rw [if_pos h, if_pos h]
        rfl
      · rw [if_neg h, if_neg h, ih]
        have hp : (num.map f display fixed4).parse (Text.trim part)
            = (num.parse (Text.trim part)).map f := rfl
        rw [hp]
        cases num.parse (Text.trim part) with
        | error e => rfl
        | ok x => cases poseComponents num s (seen + 1) parts <;> rfl

/-- A literal is read exactly if its six parts are. -/
theorem parsePoseString_ok {num : NumberText K} {s : String} {v : Joints K} :
    parsePoseString num s = .ok v ↔ ∃ body xs, poseBody s = some body
      ∧ poseComponents num s 0 (Text.split body ',') = .ok xs ∧ Joints.ofList? xs = some v := by
  unfold parsePoseString
  constructor
  · intro h
    split at h
    · cases h
    · rename_i body hb
      split at h
      · cases h
      · rename_i xs hxs
        split at h
        · rename_i v' hv
          rw [Except.ok.inj h] at hv
          exact ⟨body, xs, hb, hxs, hv⟩
        · cases h
  · rintro ⟨body, xs, hb, hxs, hv⟩
    simp only [hb, hxs, hv]

theorem Joints.ofList?_map (f : K → L) {xs : List K} {v : Joints K}
    (h : Joints.ofList? xs = some v) : Joints.ofList? (xs.map f) = some (f ∘ v) := by
  unfold Joints.ofList? at h ⊢
  by_cases h6 : xs.length = 6
  · rw [dif_pos h6] at h
    rw [dif_pos (by rwa [List.length_map]), ← Option.some.inj h]
    congr 1
    funext i
    simp
  · rw [dif_neg h6] at h
    cases h

theorem Joints.ofList?_ofFn (v : Joints K) : Joints.ofList? (List.ofFn v) = some v := by
  have h : (List.ofFn v).length = 6 := List.length_ofFn
  unfold Joints.ofList?
  rw [dif_pos h]
  congr 1
  funext i
  rw [List.get_ofFn]
  rfl

/-- A literal read over another type has the values read over the first. -/
theorem parsePoseString_map (f : K → L) (display fixed4 : L → String) (num : NumberText K)
    {s : String} {v : Joints K} (h : parsePoseString num s = .ok v) :
    parsePoseString (num.map f display fixed4) s = .ok (f ∘ v) := by
  obtain ⟨body, xs, hb, hxs, hv⟩ := parsePoseString_ok.mp h
  refine parsePoseString_ok.mpr ⟨body, xs.map f, hb, ?_, Joints.ofList?_map f hv⟩
  rw [poseComponents_map, hxs]
  rfl

end Literals

end UrRedisDriver
