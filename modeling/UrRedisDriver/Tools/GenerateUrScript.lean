import UrRedisDriver.Lib.Text

/-!
# The program that is written to the robot

A rendered template defines `script()`. It is wrapped so that the controller first opens a
socket back to the driver, reads one line and echoes it, then runs `script()` and reports
`ok` or `error`. The echo carries no information of its own: whatever line the driver
sends is what comes back.
-/

namespace UrRedisDriver

/-- The program around a rendered template. -/
def generateUrScript (original hostAddress : String) (socketPort : Nat) : String :=
  let indentedScript := "\n".intercalate ((Text.lines original).map ("  " ++ ·))
  "\ndef run_script():\n" ++ indentedScript ++ "\n\n  def handshake():\n"
    ++ s!"    socket_open(\"{hostAddress}\", {socketPort}, \"ur_driver_socket\")"
    ++ "\n    line_from_server = socket_read_line(\"ur_driver_socket\", timeout=1.0)\n"
    ++ "    if(str_empty(line_from_server)):\n      return False\n    else:\n"
    ++ "      socket_send_line(line_from_server, \"ur_driver_socket\")\n      return True\n"
    ++ "    end\n  end\n\n  if(handshake()):\n    result = script()\n    if(result):\n"
    ++ "      socket_send_line(\"ok\", \"ur_driver_socket\")\n    else:\n"
    ++ "      socket_send_line(\"error\", \"ur_driver_socket\")\n    end\n  else:\n"
    ++ s!"    popup(\"handshake failure with host {hostAddress}, not moving.\")"
    ++ "\n  end\n\n  socket_close(\"ur_driver_socket\")\nend\n\nrun_script()\n"

end UrRedisDriver
