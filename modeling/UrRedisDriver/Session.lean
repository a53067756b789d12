import UrRedisDriver.Lib.LineStream
import UrRedisDriver.World

/-!
# The driver on its dashboard connection

In `World` the dashboard task reads whatever line it is given. Here it is given what is on
its connection: `send_command` writes the text of a command and a newline, the controller
cuts what it receives into lines and answers each with a line of its own, whatever and
whenever it likes, and the next line read is the oldest one not read yet.
-/

namespace UrRedisDriver

structure Session (F : Type) where
  world : World F
  /-- The connection since it was opened. -/
  stream : LineStream Char String
  /-- The commands written on it. -/
  sent : List DashboardCommand

inductive SessionAction (F : Type)
  | driver (a : Action F)
  /-- The controller answers a line. -/
  | controller (reply : String)

namespace Session

variable {F : Type}

def init [Zero F] : Session F where
  world := World.init
  stream := {}
  sent := []

/-- The write of `send_command`. -/
def send (s : LineStream Char String) (cmd : DashboardCommand) : LineStream Char String :=
  s.write Text.isLineBreak (cmd.wire.toList ++ ['\n'])

/-- What a step of the driver to `w'` does on the connection, if the connection allows it. -/
def exchange (c : Session F) (w' : World F) : Action F → Option (Session F)
  | .dashboard .connect => some ⟨w', {}, []⟩
  | .dashboard (.write (.ok _)) =>
      match c.world.dashboard with
      | .sending j t =>
          let cmd := t.sends j.command
          some ⟨w', send c.stream cmd, c.sent ++ [cmd]⟩
      | _ => some { c with world := w' }
  | .dashboard (.reply (.ok line) _) =>
      match c.stream.read with
      | some (line', s) => if line' = line then some { c with world := w', stream := s } else none
      | none => none
  | _ => some { c with world := w' }

/-- One step of the driver or of the controller. -/
def step (cfg : Config F) (c : Session F) : SessionAction F → Option (Session F)
  | .driver a => (World.step cfg c.world a).bind fun w' => exchange c w' a
  | .controller reply => (c.stream.answer reply).map fun s => { c with stream := s }

end Session

end UrRedisDriver
