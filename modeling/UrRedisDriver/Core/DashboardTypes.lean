import UrRedisDriver.Lib.Text

/-!
# The typed contract for the UR Dashboard Server

Everything the driver can send on port 29999 and everything a query can return:
`DashboardCommand` with the line it puts on the socket, the reply substring that means
success and the time the controller gets to answer, and the mode enumerations the replies
are read into.
-/

namespace UrRedisDriver

/-- Strip a `"Label: value"` prefix if the controller sent one. -/
def payloadOf (response : String) : String :=
  match Text.rsplitOnce response ':' with
  | some (_, tail) => Text.trim tail
  | none => Text.trim response

/-- Parse a `true`/`false` answer, tolerating a label and a trailing program name. -/
def parseFlag (response : String) : Bool :=
  match Text.firstWord (payloadOf response) with
  | some v => Text.eqIgnoreAsciiCase v "true"
  | none => false

/-- UR *robot* mode: the power/boot state of the arm. -/
inductive RobotMode
  | noController | disconnected | confirmSafety | booting | powerOff | powerOn | idle
  | backdrive | running | updatingFirmware | unknown
  deriving DecidableEq, Repr

namespace RobotMode

def asStr : RobotMode → String
  | noController => "NO_CONTROLLER"
  | disconnected => "DISCONNECTED"
  | confirmSafety => "CONFIRM_SAFETY"
  | booting => "BOOTING"
  | powerOff => "POWER_OFF"
  | powerOn => "POWER_ON"
  | idle => "IDLE"
  | backdrive => "BACKDRIVE"
  | running => "RUNNING"
  | updatingFirmware => "UPDATING_FIRMWARE"
  | unknown => "UNKNOWN"

/-- Decode realtime packet offset 756. -/
def fromRt (mode : Int) : RobotMode :=
  if mode = -1 then noController
  else if mode = 0 then disconnected
  else if mode = 1 then confirmSafety
  else if mode = 2 then booting
  else if mode = 3 then powerOff
  else if mode = 4 then powerOn
  else if mode = 5 then idle
  else if mode = 6 then backdrive
  else if mode = 7 then running
  else if mode = 8 then updatingFirmware
  else unknown

/-- Parse a dashboard `robotmode` reply, with or without its label prefix. -/
def parse (response : String) : RobotMode :=
  match Text.toAsciiUppercase (payloadOf response) with
  | "NO_CONTROLLER" => noController
  | "DISCONNECTED" => disconnected
  | "CONFIRM_SAFETY" => confirmSafety
  | "BOOTING" => booting
  | "POWER_OFF" => powerOff
  | "POWER_ON" => powerOn
  | "IDLE" => idle
  | "BACKDRIVE" => backdrive
  | "RUNNING" => running
  | "UPDATING_FIRMWARE" => updatingFirmware
  | _ => unknown

end RobotMode

/-- UR *safety* mode, from realtime packet offset 812 or the `safetymode` query. -/
inductive SafetyMode
  | normal | reduced | protectiveStop | recovery | safeguardStop | systemEmergencyStop
  | robotEmergencyStop | violation | fault | unknown
  deriving DecidableEq, Repr

namespace SafetyMode

def asStr : SafetyMode → String
  | normal => "NORMAL"
  | reduced => "REDUCED"
  | protectiveStop => "PROTECTIVE_STOP"
  | recovery => "RECOVERY"
  | safeguardStop => "SAFEGUARD_STOP"
  | systemEmergencyStop => "SYSTEM_EMERGENCY_STOP"
  | robotEmergencyStop => "ROBOT_EMERGENCY_STOP"
  | violation => "VIOLATION"
  | fault => "FAULT"
  | unknown => "UNKNOWN"

/-- Decode realtime packet offset 812. -/
def fromRt (mode : Int) : SafetyMode :=
  if mode = 1 then normal
  else if mode = 2 then reduced
  else if mode = 3 then protectiveStop
  else if mode = 4 then recovery
  else if mode = 5 then safeguardStop
  else if mode = 6 then systemEmergencyStop
  else if mode = 7 then robotEmergencyStop
  else if mode = 8 then violation
  else if mode = 9 then fault
  else unknown

def parse (response : String) : SafetyMode :=
  match Text.toAsciiUppercase (payloadOf response) with
  | "NORMAL" => normal
  | "REDUCED" => reduced
  | "PROTECTIVE_STOP" => protectiveStop
  | "RECOVERY" => recovery
  | "SAFEGUARD_STOP" => safeguardStop
  | "SYSTEM_EMERGENCY_STOP" => systemEmergencyStop
  | "ROBOT_EMERGENCY_STOP" => robotEmergencyStop
  | "VIOLATION" => violation
  | "FAULT" => fault
  | _ => unknown

/-- Whether an in-flight goal can no longer complete in this mode. -/
def abortsGoal : SafetyMode → Bool
  | protectiveStop | safeguardStop | systemEmergencyStop | robotEmergencyStop | violation
  | fault => true
  | _ => false

/-- Whether a new motion request may be accepted in this mode. -/
def acceptsGoal : SafetyMode → Bool
  | normal | reduced => true
  | _ => false

end SafetyMode

/-- The dashboard `safetystatus` answer, which tells the safeguard stops apart. -/
inductive SafetyStatus
  | normal | reduced | protectiveStop | recovery | safeguardStop | systemEmergencyStop
  | robotEmergencyStop | violation | fault | automaticModeSafeguardStop
  | systemThreePositionEnablingStop | unknown
  deriving DecidableEq, Repr

namespace SafetyStatus

def asStr : SafetyStatus → String
  | normal => "NORMAL"
  | reduced => "REDUCED"
  | protectiveStop => "PROTECTIVE_STOP"
  | recovery => "RECOVERY"
  | safeguardStop => "SAFEGUARD_STOP"
  | systemEmergencyStop => "SYSTEM_EMERGENCY_STOP"
  | robotEmergencyStop => "ROBOT_EMERGENCY_STOP"
  | violation => "VIOLATION"
  | fault => "FAULT"
  | automaticModeSafeguardStop => "AUTOMATIC_MODE_SAFEGUARD_STOP"
  | systemThreePositionEnablingStop => "SYSTEM_THREE_POSITION_ENABLING_STOP"
  | unknown => "UNKNOWN"

def parse (response : String) : SafetyStatus :=
  match Text.toAsciiUppercase (payloadOf response) with
  | "NORMAL" => normal
  | "REDUCED" => reduced
  | "PROTECTIVE_STOP" => protectiveStop
  | "RECOVERY" => recovery
  | "SAFEGUARD_STOP" => safeguardStop
  | "SYSTEM_EMERGENCY_STOP" => systemEmergencyStop
  | "ROBOT_EMERGENCY_STOP" => robotEmergencyStop
  | "VIOLATION" => violation
  | "FAULT" => fault
  | "AUTOMATIC_MODE_SAFEGUARD_STOP" => automaticModeSafeguardStop
  | "SYSTEM_THREE_POSITION_ENABLING_STOP" => systemThreePositionEnablingStop
  | _ => unknown

end SafetyStatus

/-- State of the *loaded pendant program*, from the `programState` query. -/
inductive ProgramState
  | stopped | playing | paused | unknown
  deriving DecidableEq, Repr

namespace ProgramState

def asStr : ProgramState → String
  | stopped => "STOPPED"
  | playing => "PLAYING"
  | paused => "PAUSED"
  | unknown => "UNKNOWN"

/-- Split a `"STOPPED <program name>"` reply into the state and the name. -/
def parse (response : String) : ProgramState × Option String :=
  let parts := Text.splitAtWhitespace (Text.trim response)
  let state := match Text.toAsciiUppercase parts.1 with
    | "STOPPED" => stopped
    | "PLAYING" => playing
    | "PAUSED" => paused
    | _ => unknown
  let program := (parts.2.map Text.trim).filter (· ≠ "")
  (state, program)

end ProgramState

/-- PolyScope operational mode. `none` means no mode password has been set. -/
inductive OperationalMode
  | manual | automatic | none | unknown
  deriving DecidableEq, Repr

namespace OperationalMode

def asStr : OperationalMode → String
  | manual => "MANUAL"
  | automatic => "AUTOMATIC"
  | none => "NONE"
  | unknown => "UNKNOWN"

/-- The spelling `set operational mode` expects. -/
def wire : OperationalMode → Option String
  | manual => some "manual"
  | automatic => some "automatic"
  | none | unknown => Option.none

def parse (response : String) : OperationalMode :=
  match Text.toAsciiUppercase (payloadOf response) with
  | "MANUAL" => manual
  | "AUTOMATIC" => automatic
  | "NONE" => none
  | _ => unknown

end OperationalMode

/-- Which flight report `generate flight report` should produce. -/
inductive FlightReportType
  | controller | software | system
  deriving DecidableEq, Repr

namespace FlightReportType

def wire : FlightReportType → String
  | controller => "controller"
  | software => "software"
  | system => "system"

/-- The manual makes `system` the default when no type is given. -/
def parse (arg : String) : FlightReportType :=
  match Text.toAsciiLowercase (Text.trim arg) with
  | "controller" => controller
  | "software" => software
  | _ => system

end FlightReportType

/-! ## Commands -/

/-- Milliseconds. -/
def queryTimeout : Nat := 2000
def actionTimeout : Nat := 5000
def loadTimeout : Nat := 30000
def flightReportTimeout : Nat := 300000
def supportFileTimeout : Nat := 600000

/--
Everything the driver can ask the UR Dashboard Server to do. There is no `quit`: it
would close the connection the driver keeps open for the life of the process.
-/
inductive DashboardCommand
  | stop | pause | play | resume
  | powerOn | powerOff | brakeRelease
  | unlockProtectiveStop | closeSafetyPopup | closePopup | restartSafety
  | load (program : String) | loadInstallation (installation : String)
  | setOperationalMode (mode : OperationalMode) | getOperationalMode | clearOperationalMode
  | robotMode | safetyStatus | safetyMode | programState | isProgramRunning | isProgramSaved
  | isInRemoteControl | getLoadedProgram | getRobotModel | getSerialNumber
  | polyscopeVersion | version
  | generateFlightReport (type : FlightReportType) | generateSupportFile (dir : String)
  | popup (text : String) | addToLog (text : String) | shutdown
  deriving DecidableEq, Repr

/-- The typed answer to a query command. -/
inductive DashboardValue
  | robotMode (mode : RobotMode)
  | safetyMode (mode : SafetyMode)
  | safetyStatus (status : SafetyStatus)
  | programState (state : ProgramState) (program : Option String)
  | operationalMode (mode : OperationalMode)
  | flag (v : Bool)
  | text (v : String)
  deriving DecidableEq, Repr

/-- The boolean behind a `flag`, if this is one. -/
def DashboardValue.asFlag : DashboardValue → Option Bool
  | .flag v => some v
  | _ => none

/-- The outcome of one dashboard command. -/
structure DashboardReply where
  success : Bool
  response : String
  value : Option DashboardValue
  deriving DecidableEq, Repr

def DashboardReply.ok (response : String) : DashboardReply := ⟨true, response, none⟩

def DashboardReply.fail (response : String) : DashboardReply := ⟨false, response, none⟩

/-- Attach the typed reply. -/
def DashboardReply.withValue (r : DashboardReply) (value : Option DashboardValue) :
    DashboardReply :=
  { r with value := value }

/-- What the dashboard connection polls on every keepalive tick. -/
structure DashboardStatus where
  remoteControl : Bool := false
  programState : ProgramState := .unknown
  programName : Option String := none
  programRunning : Bool := false
  operationalMode : OperationalMode := .unknown
  deriving DecidableEq, Repr

/-- Fixed facts about the controller, read once per connection. -/
structure DashboardIdentity where
  robotModel : String := ""
  serialNumber : String := ""
  polyscopeVersion : String := ""
  deriving DecidableEq, Repr

namespace DashboardCommand

/-- A command whose argument may not be blank. `arg` is already trimmed. -/
def requireArg (name arg what : String) (mk : String → DashboardCommand) :
    Except String DashboardCommand :=
  if arg = "" then .error s!"'{name}' needs an argument: {what}" else .ok (mk arg)

/--
Map the string written to `{robot}_dashboard_command` onto a command. The error is meant
for `{robot}_dashboard_request_result`.
-/
def parse (name arg : String) : Except String DashboardCommand :=
  let name := Text.toLowercase (Text.trim name)
  let arg := Text.trim arg
  match name with
  | "stop" => .ok stop
  | "pause" => .ok pause
  | "play" => .ok play
  | "resume" => .ok resume
  | "power_on" => .ok powerOn
  | "power_off" => .ok powerOff
  | "brake_release" => .ok brakeRelease
  | "unlock_protective_stop" => .ok unlockProtectiveStop
  | "reset_protective_stop" => .ok unlockProtectiveStop
  | "close_safety_popup" => .ok closeSafetyPopup
  | "close_popup" => .ok closePopup
  | "restart_safety" => .ok restartSafety
  | "load" => requireArg name arg "a program filename" load
  | "load_installation" => requireArg name arg "an installation filename" loadInstallation
  | "set_operational_mode" =>
      let mode := OperationalMode.parse arg
      if mode.wire.isNone then
        .error s!"'set_operational_mode' needs 'manual' or 'automatic', got '{arg}'"
      else .ok (setOperationalMode mode)
  | "get_operational_mode" => .ok getOperationalMode
  | "clear_operational_mode" => .ok clearOperationalMode
  | "robot_mode" => .ok robotMode
  | "safety_status" => .ok safetyStatus
  | "safety_mode" => .ok safetyMode
  | "program_state" => .ok programState
  | "is_program_running" => .ok isProgramRunning
  | "is_program_saved" => .ok isProgramSaved
  | "is_in_remote_control" => .ok isInRemoteControl
  | "get_loaded_program" => .ok getLoadedProgram
  | "get_robot_model" => .ok getRobotModel
  | "get_serial_number" => .ok getSerialNumber
  | "polyscope_version" => .ok polyscopeVersion
  | "version" => .ok version
  | "generate_flight_report" => .ok (generateFlightReport (FlightReportType.parse arg))
  | "generate_support_file" =>
      requireArg name arg "a directory inside the programs directory" generateSupportFile
  | "popup" => .ok (popup arg)
  | "add_to_log" => .ok (addToLog arg)
  | "shutdown" => .ok shutdown
  | _ => .error s!"unknown dashboard command '{name}'"

/-- The line to write on the socket, without the trailing newline. -/
def wire : DashboardCommand → String
  | stop => "stop"
  | pause => "pause"
  | play | resume => "play"
  | powerOn => "power on"
  | powerOff => "power off"
  | brakeRelease => "brake release"
  | unlockProtectiveStop => "unlock protective stop"
  | closeSafetyPopup => "close safety popup"
  | closePopup => "close popup"
  | restartSafety => "restart safety"
  | load p => "load " ++ p
  | loadInstallation p => "load installation " ++ p
  | setOperationalMode m => "set operational mode " ++ m.wire.getD "manual"
  | getOperationalMode => "get operational mode"
  | clearOperationalMode => "clear operational mode"
  | robotMode => "robotmode"
  | safetyStatus => "safetystatus"
  | safetyMode => "safetymode"
  | programState => "programState"
  | isProgramRunning => "running"
  | isProgramSaved => "isProgramSaved"
  | isInRemoteControl => "is in remote control"
  | getLoadedProgram => "get loaded program"
  | getRobotModel => "get robot model"
  | getSerialNumber => "get serial number"
  | polyscopeVersion => "PolyscopeVersion"
  | version => "version"
  | generateFlightReport t => "generate flight report " ++ t.wire
  | generateSupportFile d => "generate support file " ++ d
  | popup t => "popup " ++ t
  | addToLog t => "addToLog " ++ t
  | shutdown => "shutdown"

/-- Substring of the reply that means the command took effect; `none` marks a query. -/
def expect : DashboardCommand → Option String
  | stop => some "Stopped"
  | pause => some "Pausing program"
  | play | resume => some "Starting program"
  | powerOn => some "Powering on"
  | powerOff => some "Powering off"
  | brakeRelease => some "Brake releasing"
  | unlockProtectiveStop => some "Protective stop releasing"
  | closeSafetyPopup => some "closing safety popup"
  | closePopup => some "closing popup"
  | restartSafety => some "Restarting safety"
  | load _ => some "Loading program"
  | loadInstallation _ => some "Loading installation"
  | setOperationalMode _ => some "Setting operational mode"
  | clearOperationalMode => some "no longer controlled by Dashboard Server"
  | generateSupportFile _ => some "Completed successfully"
  | popup _ => some "showing popup"
  | addToLog _ => some "Added log message"
  | shutdown => some "Shutting down"
  | _ => none

/-- How long the controller gets to answer this command, in milliseconds. -/
def replyTimeout : DashboardCommand → Nat
  | load _ | loadInstallation _ => loadTimeout
  | generateFlightReport _ => flightReportTimeout
  | generateSupportFile _ => supportFileTimeout
  | stop | pause | play | resume | powerOn | powerOff | brakeRelease | unlockProtectiveStop
  | restartSafety | setOperationalMode _ | clearOperationalMode | shutdown => actionTimeout
  | _ => queryTimeout

/-- Whether the manual marks this command "Only Remote Control". -/
def requiresRemoteControl : DashboardCommand → Bool
  | stop | pause | play | resume | powerOn | powerOff | brakeRelease | unlockProtectiveStop
  | closeSafetyPopup | restartSafety | load _ | loadInstallation _ => true
  | _ => false

/-- Type the controller's reply, for the commands whose reply carries a value. -/
def parseReply (cmd : DashboardCommand) (response : String) : Option DashboardValue :=
  match cmd with
  | robotMode => some (.robotMode (RobotMode.parse response))
  | safetyMode => some (.safetyMode (SafetyMode.parse response))
  | safetyStatus => some (.safetyStatus (SafetyStatus.parse response))
  | programState =>
      let (state, program) := ProgramState.parse response
      some (.programState state program)
  | getOperationalMode => some (.operationalMode (OperationalMode.parse response))
  | isProgramRunning | isProgramSaved | isInRemoteControl => some (.flag (parseFlag response))
  | getLoadedProgram => some (.text (payloadOf response))
  | getRobotModel | getSerialNumber | polyscopeVersion | version =>
      some (.text (Text.trim response))
  | _ => none

/-- The reply `send_command` builds from the line the controller answered with. -/
def toReply (cmd : DashboardCommand) (line : String) : DashboardReply :=
  let response := Text.trim line
  let value := cmd.parseReply response
  match cmd.expect with
  | none => (DashboardReply.ok response).withValue value
  | some expected => ⟨Text.contains response expected, response, value⟩

end DashboardCommand

end UrRedisDriver
