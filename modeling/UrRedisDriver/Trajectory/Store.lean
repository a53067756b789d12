import UrRedisDriver.Lib.FileTree
import UrRedisDriver.Trajectory.Online

/-!
# The trajectory store

`save` and `list`, on the disk `load` reads: one file per trajectory under the trajectory
directory. The numbers of a trajectory are finite here, and what the operating system answers
a call is part of the call.
-/

namespace UrRedisDriver

open FileTree

/-- One call of `save`, and how the operating system goes along with it. -/
structure Saving where
  name : String
  trajectory : PlannedTrajectory
  request : Option PlanRequest
  /-- Seconds since the Unix epoch, unless the clock stands before it. -/
  clock : Option Nat
  /-- The directories that cannot be made, and why. -/
  refuseDir : List String → Option String
  write : Disk.WriteOutcome

/-- The record that is written. -/
def Saving.stored (s : Saving) : StoredTrajectory where
  schemaVersion := schemaVersion
  name := s.name
  createdUnixSeconds := s.clock.getD 0
  request := s.request
  trajectory := s.trajectory

/-- The stem of a `.json` file. -/
def jsonStem (file : String) : Option String :=
  if extension file = some "json" then fileStem file else none

namespace PlannerEnv

variable (env : PlannerEnv)

/-- The directory trajectories are read from and written to. -/
def trajectoryDirPath : String := env.trajectoryDir.getD "trajectories"

/-- A process that finds its files on a disk. -/
def onDisk (d : Disk) : PlannerEnv := { env with readFile := d.readToString }

/--
Write a trajectory, creating the directory if it does not exist. `toStringPretty` is
`serde_json::to_string_pretty`.
-/
def save (toStringPretty : StoredTrajectory → Except String String) (d : Disk) (s : Saving) :
    Except String String × Disk :=
  match env.pathFor s.name with
  | .error e => (.error e, d)
  | .ok path =>
      -- what was joined to a directory has a parent
      match d.createDirAll s.refuseDir (components path).dropLast with
      | (.error e, d) => (.error s!"could not create {parentText path}: {e}", d)
      | (.ok (), d) =>
          match toStringPretty s.stored with
          | .error e => (.error s!"could not serialise trajectory '{s.name}': {e}", d)
          | .ok json =>
              match d.write (components path) json.toByteArray s.write with
              | (.error e, d) => (.error s!"could not write {path}: {e}", d)
              | (.ok (), d) => (.ok path, d)

/-- Every trajectory name in the directory, sorted. An absent directory is empty. -/
def list (d : Disk) (fault : Option Disk.DirFault) : Except String (List String) :=
  let dir := env.trajectoryDirPath
  if !d.present dir then .ok []
  else
    match d.readDir dir fault with
    | .error (.cannotOpen e) => .error s!"could not read {dir}: {e}"
    | .error (.badEntry e) => .error s!"could not read an entry in {dir}: {e}"
    | .ok files => .ok ((files.filterMap jsonStem).mergeSort fun a b => decide (a ≤ b))

end PlannerEnv

end UrRedisDriver
