import UrRedisDriver.Interfaces.StatePublisher
import UrRedisDriver.Lib.SharedMap
import UrRedisDriver.Lib.Text

/-!
# The frames in Redis

Before its first tick the publisher seeds the frames of the arm, and then one for the mesh of
every link that it finds in the URDF. A mesh hangs on its link by the origin the URDF gives it.
The transforms are in Redis by their frames, one table for all drivers of a cell.
-/

namespace UrRedisDriver

/-! ## A parsed document -/

/-- A node of a document, as `roxmltree` has it. -/
inductive XmlNode
  | element (tag : String) (attributes : List (String × String)) (children : List XmlNode)
  /-- Text, a comment and whatever else is no element. -/
  | other

namespace XmlNode

def hasTagName : XmlNode → String → Bool
  | .element tag _ _, name => tag == name
  | .other, _ => false

/-- `attribute` -/
def attr : XmlNode → String → Option String
  | .element _ attributes _, name => attributes.lookup name
  | .other, _ => none

def children : XmlNode → List XmlNode
  | .element _ _ children => children
  | .other => []

mutual

/-- The node and what is below it, in the order of the document. -/
def descendants : XmlNode → List XmlNode
  | .element tag attributes children =>
      .element tag attributes children :: descendantsOf children
  | .other => [.other]

def descendantsOf : List XmlNode → List XmlNode
  | [] => []
  | n :: ns => n.descendants ++ descendantsOf ns

end

end XmlNode

/-! ## The frames of the meshes -/

section Meshes

variable {F : Type} [Field F]

/-- What `rpy_to_quaternion` takes from the floating-point library. -/
structure Trigonometry (F : Type) where
  sin : F → F
  cos : F → F

def rpyToQuaternion (trig : Trigonometry F) (roll pitch yaw : F) : SPRotation F :=
  let cy := trig.cos (yaw * 0.5)
  let sy := trig.sin (yaw * 0.5)
  let cp := trig.cos (pitch * 0.5)
  let sp := trig.sin (pitch * 0.5)
  let cr := trig.cos (roll * 0.5)
  let sr := trig.sin (roll * 0.5)
  { w := cr * cp * cy + sr * sp * sy
    x := sr * cp * cy - cr * sp * sy
    y := cr * sp * cy + sr * cp * sy
    z := cr * cp * sy - sr * sp * cy }

/-- The links with a mesh, and its file. -/
def meshLinks : List (String × String) :=
  [ ("base_link_inertia", "base.dae"), ("shoulder_link", "shoulder.dae"),
    ("upper_arm_link", "upperarm.dae"), ("forearm_link", "forearm.dae"),
    ("wrist_1_link", "wrist1.dae"), ("wrist_2_link", "wrist2.dae"),
    ("wrist_3_link", "wrist3.dae")]

/-- What the meshes are read from. -/
structure MeshEnv (F : Type) where
  trig : Trigonometry F
  /-- `str::parse` to a number -/
  parse : String → Option F
  urMeshesPath : String
  document : XmlNode

/-- The numbers in a text if they are three. A word that is no number is passed over. -/
def threeNumbers (parse : String → Option F) (text : String) : Option (F × F × F) :=
  match (Text.splitWhitespace text).filterMap parse with
  | [a, b, c] => some (a, b, c)
  | _ => none

/-- Where a link has its mesh: `xyz` and `rpy` of the visual's origin, zeros if not given. -/
def visualOrigin (parse : String → Option F) (link : XmlNode) : (F × F × F) × (F × F × F) :=
  let origin := (link.children.find? (·.hasTagName "visual")).bind fun visual =>
    visual.children.find? (·.hasTagName "origin")
  let read (name : String) : F × F × F :=
    ((origin.bind (·.attr name)).bind (threeNumbers parse)).getD (0, 0, 0)
  (read "xyz", read "rpy")

/-- The link of the document with this name. -/
def XmlNode.findLink (document : XmlNode) (name : String) : Option XmlNode :=
  document.descendants.find? fun n => n.hasTagName "link" && n.attr "name" == some name

/-- The frame of a link's mesh. -/
def visualFrame (link : String) : String := s!"{link}_visual"

/-- The mesh of a link, by its shift and its turns. -/
def visualTransform (params : URDFParameters) (env : MeshEnv F) (now : String → Nat)
    (mesh : String × String) (link : XmlNode) : SPTransformStamped F :=
  let (xyz, rpy) := visualOrigin env.parse link
  let text (s : String) : SPValue F := .string (some s)
  let number (x : F) : SPValue F := .float64 (some x)
  { activeTransform := false
    enableTransform := true
    timeStamp := now mesh.1
    parentFrameId := params.frame mesh.1
    childFrameId := params.frame (visualFrame mesh.1)
    transform :=
      { translation := ⟨xyz.1, xyz.2.1, xyz.2.2⟩
        rotation := rpyToQuaternion env.trig rpy.1 rpy.2.1 rpy.2.2 }
    metadata := some
      [ (text "override_meshes_dir", text env.urMeshesPath), (text "mesh_file", text mesh.2),
        (text "mesh_scale", number 1), (text "visualize_mesh", .bool (some true)),
        (text "mesh_a", number 0), (text "mesh_r", number 0), (text "mesh_g", number 0),
        (text "mesh_b", number 0), (text "mesh_use_embedded_materials", .bool (some true))] }

/-- Seed the frames of the meshes. A link that is not in the URDF has none. -/
def initializeVisualTransforms (params : URDFParameters) (env : MeshEnv F)
    (now : String → Nat) : Write F :=
  .transforms (meshLinks.filterMap fun mesh =>
    (env.document.findLink mesh.1).map (visualTransform params env now mesh))

end Meshes

/-! ## The publisher over the table of frames -/

section Process

variable {F G N C : Type} [Group G] [Field F] [LinearOrder F]

/-- The transforms in Redis, by their frames. -/
abbrev FrameTable (F : Type) := String → Option (SPTransformStamped F)

/-- Where a publisher is. What it knows of its frames is what it seeded them with, `seeded` being
the clock it read then. -/
inductive FramesPhase (F C : Type)
  | down
  /-- About to seed the frames of the meshes. -/
  | seeding (seeded : String → Nat)
  /-- In its loop. History: the joints whose frames were the last ones to reach Redis. -/
  | running (seeded : String → Nat) (p : Publisher F C) (shown : Option (List F))

/-- What a publisher does next, and whether Redis can be reached. -/
inductive FramesAction (F N : Type)
  | robot (now : String → Nat) (reaches : Bool)
  | visual (now : String → Nat) (reaches : Bool)
  | tick (now : N → Nat) (ds : DriverState F) (reaches : Bool)

/-- The transforms among some writes. -/
def transformsIn (ws : List (Write F)) : List (SPTransformStamped F) :=
  ws.flatMap fun w => match w with
    | .transforms ts => ts
    | _ => []

/-- What transforms set in the table. They go out in one write: all are lost, or none. -/
def landing (reaches : Bool) (ts : List (SPTransformStamped F)) :
    List (String × Option (SPTransformStamped F)) :=
  if reaches then ts.map fun t => (t.childFrameId, some t) else []

/-- The publisher of one driver, as far as the table of frames is concerned. -/
def framePublisher (env : PublisherEnv F G N C) (mesh : MeshEnv F) (chain : C) :
    SharedMap.Process String (Option (SPTransformStamped F)) (FramesPhase F C)
      (FramesAction F N)
  | _, .down, .robot now reaches =>
      let r := initializeRobotTransforms env.robotParams env.defaultTransform now
      some (.seeding now, landing reaches (transformsIn [r.2]))
  | _, .seeding seeded, .visual now reaches =>
      some (.running seeded (.start chain) none,
        landing reaches (transformsIn [initializeVisualTransforms env.robotParams mesh now]))
  | _, .running seeded p shown, .tick now ds reaches =>
      let T := (initializeRobotTransforms env.robotParams env.defaultTransform seeded).1
      let r := p.tick env T now ds
      let ts := transformsIn r.2
      some (.running seeded r.1 (if reaches && !ts.isEmpty then some ds.jointValues else shown),
        landing reaches ts)
  | _, _, _ => none

end Process

/-- The sine and the cosine, not rounded. -/
noncomputable def Trigonometry.real : Trigonometry ℝ := ⟨Real.sin, Real.cos⟩

end UrRedisDriver
