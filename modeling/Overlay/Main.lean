import Overlay.Command
import Overlay.CommandLine.Parse
import Overlay.Host.Native

/-!
# The program
-/

set_option autoImplicit false

namespace Overlay

/-- What the program is called with. -/
def usageText : String :=
  "Upload overlays to the board and run them\n\n" ++
  "Usage: ovlink [OPTIONS] <COMMAND>\n\n" ++
  "Commands:\n" ++
  "  send      Upload an image to the device\n" ++
  "  serve     Act as the device: receive images on stdin/stdout and run them\n" ++
  "  run       Run an image from an image store on the emulated device\n" ++
  "  pack      Prepend an overlay header to a raw binary\n" ++
  "  checksum  Print the CRC-32 of a file\n" ++
  "  layout    Print the configured memory layout\n"

/-- The wording of a usage error. -/
def UsageError.message : UsageError → String
  | .help | .nothingAsked => usageText
  | .version => "ovlink 0.1.0\n"
  | .missingCommand => "error: a command is required\n"
  | .unknownCommand => "error: unrecognized command\n"
  | .unknownArgument => "error: unexpected argument found\n"
  | .surplusValue => "error: unexpected value for a flag\n"
  | .badValue => "error: a value is required but none was supplied\n"
  | .badNumber text => s!"error: invalid value: {text}\n"
  | .conflict => "error: arguments cannot be used together or more than once\n"
  | .missingArgument => "error: required arguments were not provided\n"

/-- Whether the user has asked for what a usage error shows. -/
def UsageError.isAnswer : UsageError → Bool
  | .help | .version => true
  | _ => false

/-- Run the command that the arguments ask for; the result is the exit code. -/
def runProgram (arguments : List String) : IO UInt32 := do
  let environment : Environment := {
    home := (← IO.getEnv "HOME").map Path.ofText
    configHome := (← IO.getEnv "XDG_CONFIG_HOME").map Path.ofText
    configFile := ← IO.getEnv "OVLINK_CONFIG" }
  match CommandLine.parse environment.configFile arguments with
  | .error error =>
      if error.isAnswer then
        IO.print error.message
        return 0
      else
        IO.eprint error.message
        return 2
  | .ok line =>
      match ← (Command.execute Native.host environment line).run with
      | .ok () => return 0
      | .error failure =>
          IO.eprintln s!"Error: {failure.message}"
          return 1

end Overlay

/-- Run the program. -/
def main (arguments : List String) : IO UInt32 := Overlay.runProgram arguments
