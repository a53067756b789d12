import UrRedisDriver.Trajectory.Store

/-!
# Planning offline

The `plan_trajectory` tool: a path is planned once and stored under a name, and the driver
executes it by that name. What the tool prints is left out; what it leaves on the disk and
whether it fails is not.
-/

namespace UrRedisDriver

open FileTree

/-! ## The command line -/

/-- Minimal `--flag value` parsing. -/
structure Args where
  flags : List (String × Option String)
  positional : List String

namespace Args

/-- `strip_prefix("--")` -/
def flagName (arg : String) : Option String :=
  (Text.stripPrefix arg '-').bind (Text.stripPrefix · '-')

/-- A flag takes the argument after it, unless that is a flag as well. -/
def parse : List String → Args
  | [] => ⟨[], []⟩
  | [arg] =>
      match flagName arg with
      | some name => ⟨[(name, none)], []⟩
      | none => ⟨[], [arg]⟩
  | arg :: next :: raw =>
      match flagName arg with
      | some name =>
          if Text.startsWith next "--" then
            let args := parse (next :: raw)
            { args with flags := (name, none) :: args.flags }
          else
            let args := parse raw
            { args with flags := (name, some next) :: args.flags }
      | none =>
          let args := parse (next :: raw)
          { args with positional := arg :: args.positional }

variable (args : Args)

/-- The first flag of a name decides, also where it has no value. -/
def get (name : String) : Option String :=
  (args.flags.find? fun f => f.1 == name).bind (·.2)

def has (name : String) : Bool := args.flags.any fun f => f.1 == name

def require (name : String) : Except String String :=
  .ofOption (args.get name) s!"--{name} is required"

def float (num : NumberText ℝ) (name : String) : Except String (Option ℝ) :=
  match args.get name with
  | none => .ok none
  | some v =>
      ((num.parse v).mapError fun e => s!"--{name}: '{v}' is not a number: {e}").map some

end Args

/-- The values of a list from number `i` on. -/
def parseValues (num : NumberText ℝ) (flag : String) : (i : Nat) → List String →
    Except String (List ℝ)
  | _, [] => .ok []
  | i, p :: ps =>
      ((num.parse p).mapError
        fun e => s!"{flag} value {i} ('{p}') is not a number: {e}").bind fun x =>
          (parseValues num flag (i + 1) ps).map fun xs => x :: xs

noncomputable section

def parseSix (num : NumberText ℝ) (list flag : String) : Except String (Joints ℝ) :=
  let parts := (Text.split list ',').map Text.trim
  (Except.require (parts.length = 6)
    s!"{flag} needs six comma-separated values, got {parts.length}").bind fun _ =>
      (parseValues num flag 0 parts).map fun out i => out.getD i 0

/-! ## The subcommands -/

/-- `OPTIMAL_TRAJECTORY_COMMAND` -/
def optimalTrajectoryCommand : String := "optimal_trajectory"

/-- The tool, in the process it runs in. Its files are those of the disk it is run on. -/
structure Tool where
  env : PlannerEnv
  /-- `serde_json::to_string_pretty`, of what is stored. -/
  toStringPretty : StoredTrajectory → Except String String
  /-- `serde_json::from_str`, of a plan request. -/
  parseRequest : String → Except String PlanRequest
  /-- `Tera::new("templates/*.script")`, and what the templates make of a command. -/
  templates : Except String (RobotCommand ℝ → Except String String)

/-- How the operating system goes along with one run of the tool. -/
structure Weather where
  clock : Option Nat
  refuseDir : List String → Option String
  writeScript : Disk.WriteOutcome
  writeTrajectory : Disk.WriteOutcome
  listing : Option Disk.DirFault

namespace Tool

variable (t : Tool) (sky : Weather) (d : Disk)

/-- The request of the input file, with what the command line has instead. -/
def override (args : Args) (request : PlanRequest) : Except String PlanRequest :=
  let num := t.env.numbers
  let request := (args.get "model").elim request fun model => { request with robotModel := model }
  (args.float num "velocity-scaling").bind fun v =>
  let request := v.elim request fun v =>
    { request with scaling := { request.scaling with velocity := v } }
  (args.float num "acceleration-scaling").bind fun a =>
  let request := a.elim request fun a =>
    { request with scaling := { request.scaling with acceleration := a } }
  match args.get "acceleration-limits" with
  | none => .ok request
  | some list =>
      (parseSix num list "--acceleration-limits").map fun limits =>
        { request with accelerationMax := some limits }

/-- What `plan` does before it touches a file: the name, the request and its plan. -/
def planned (args : Args) : Except String (String × PlanRequest × PlannedTrajectory) :=
  (args.require "input").bind fun input =>
  (args.require "name").bind fun name =>
  (validateName name).bind fun _ =>
  ((d.readToString input).mapError fun e => s!"{input}: {e}").bind fun text =>
  ((t.parseRequest text).mapError fun e => s!"{input} is not a plan request: {e}").bind
    fun request =>
  (t.override args request).bind fun request =>
  ((plan t.env.limits request).mapError (·.display t.env.numbers)).bind fun trajectory =>
  .ok (name, request, trajectory)

/-- Render the core script body, the way `command_server` would. -/
def render (trajectory : PlannedTrajectory) (tcp : Option String) : Except String String :=
  (t.templates.mapError
    fun e => s!"could not load templates/ (run from the repository root): {e}").bind
      fun generate =>
        (generate (toRobotCommand trajectory optimalTrajectoryCommand
          (tcp.getD "p[0,0,0,0,0,0]") "" true)).mapError fun e => s!"rendering failed: {e}"

/-- Whether a path ends in the name of a file. -/
def namesFile (path : String) : Bool :=
  match (Text.split path '/').getLast? with
  | some last => last != "" && last != "." && last != ".."
  | none => false

/-- `std::fs::write` of a script. -/
def writeScript (path script : String) : Except String Unit × Disk :=
  let outcome :=
    if namesFile path then sky.writeScript else .notOpened "Is a directory (os error 21)"
  if path.isEmpty then (.error s!"{path}: No such file or directory (os error 2)", d)
  else
    match d.write (components path) script.toByteArray outcome with
    | (.error e, d) => (.error s!"{path}: {e}", d)
    | (.ok (), d) => (.ok (), d)

/-- The script of a trajectory, to the file that was asked for. -/
def scriptTo (args : Args) (trajectory : PlannedTrajectory) : Except String Unit × Disk :=
  match t.render trajectory (args.get "tcp"), args.get "script" with
  | .error e, _ => (.error e, d)
  | .ok script, some path => writeScript sky d path script
  -- it is printed
  | .ok _, none => (.ok (), d)

/-- `plan` only renders the script if there is a file for it. -/
def planScript (args : Args) (trajectory : PlannedTrajectory) : Except String Unit × Disk :=
  if (args.get "script").isSome then t.scriptTo sky d args trajectory else (.ok (), d)

/-- The save a run of `plan` makes. -/
def saving (name : String) (request : PlanRequest) (trajectory : PlannedTrajectory) : Saving where
  name := name
  trajectory := trajectory
  request := some request
  clock := sky.clock
  refuseDir := sky.refuseDir
  write := sky.writeTrajectory

def cmdPlan (raw : List String) : Except String Unit × Disk :=
  let args := Args.parse raw
  match t.planned d args with
  | .error e => (.error e, d)
  | .ok (name, request, trajectory) =>
      match t.planScript sky d args trajectory with
      | (.error e, d) => (.error e, d)
      | (.ok (), d) =>
          if args.has "dry-run" then (.ok (), d)
          else
            match t.env.save t.toStringPretty d (saving sky name request trajectory) with
            | (.error e, d) => (.error e, d)
            | (.ok _, d) => (.ok (), d)

/-- A name that does not load is listed all the same. -/
def cmdList : Except String Unit := (t.env.list d sky.listing).map fun _ => ()

def cmdShow (raw : List String) : Except String Unit :=
  (Except.ofOption (Args.parse raw).positional.head? "show needs a trajectory name").bind
    fun name => ((t.env.onDisk d).load name).map fun _ => ()

def cmdRender (raw : List String) : Except String Unit × Disk :=
  let args := Args.parse raw
  match (Except.ofOption args.positional.head? "render needs a trajectory name").bind
    (t.env.onDisk d).load with
  | .error e => (.error e, d)
  | .ok stored => t.scriptTo sky d args stored.trajectory

/-- One run of the tool. An error is printed, and the exit code says that there was one. -/
def main : List String → Except String Unit × Disk
  | [] => (.ok (), d)
  | "-h" :: _ | "--help" :: _ => (.ok (), d)
  | "plan" :: raw => t.cmdPlan sky d raw
  | "list" :: _ => (t.cmdList sky d, d)
  | "show" :: raw => (t.cmdShow d raw, d)
  | "render" :: raw => t.cmdRender sky d raw
  | other :: _ => (.error s!"unknown subcommand '{other}'; try --help", d)

/-- The disk after runs of the tool, one after the other. -/
def runs (t : Tool) : Disk → List (List String × Weather) → Disk
  | d, [] => d
  | d, (argv, sky) :: calls => runs t (t.main sky d argv).2 calls

end Tool

end

end UrRedisDriver
