import Overlay.CommandLine.Level

/-!
# Reading whole command lines

The arguments of the command are read and checked before those in front of it.
An option of both levels counts as it is given to the command, unless what is in
front of the command weighs more.
-/

set_option autoImplicit false

namespace Overlay

namespace Level

/-- The command that a level of arguments describes. -/
def command (level : Level) : CommandName → Except UsageError Command
  | .send => do
      level.exclude .port .emulator
      return .send {
        image := .ofText (← level.text .image)
        port := level.text? .port
        emulator := level.has .emulator
        retries := level.word? .retries
        json := level.has .json
        noProgress := level.has .noProgress }
  | .serve => do
      if level.has .boot && !level.has .store then throw .missingArgument
      return .serve {
        once := level.has .once
        staged := level.has .staged
        store := (level.text? .store).map Path.ofText
        boot := level.text? .boot }
  | .run => return .run (← level.text .image) (.ofText (← level.text .store))
  | .pack => do
      return .pack {
        raw := .ofText (← level.text .raw)
        out := .ofText (← level.text .out)
        entry := (level.word? .entry).getD 0
        bssStart := (level.word? .bssStart).getD 0
        bssEnd := (level.word? .bssEnd).getD 0 }
  | .checksum => return .checksum (.ofText (← level.text .file))
  | .layout => return .layout (level.has .json)

/-- What holds of a parameter of both levels. -/
def shared? (outer inner : Level) (parameter : Parameter) : Option Given :=
  match outer.find? parameter, inner.find? parameter with
  | some (.commandLine, given), some (.environment, _) => some given
  | _, some (_, given) => some given
  | some (_, given), none => some given
  | none, none => none

end Level

namespace CommandLine

/-- Read and check the arguments of a command. -/
def readCommand (configFile : Option String) (name : CommandName) (words : List String) :
    Except UsageError (Level × Command) := do
  let (level, _) ← Level.read (.ofCommand name) false {} words
  let level ← level.finish configFile
  level.exclude .quiet .verbose
  return (level, ← level.command name)

/-- The command line that words make up, given the configuration file that the
environment names. -/
def parse (configFile : Option String) (words : List String) :
    Except UsageError CommandLine := do
  let (outer, named) ← Level.read .outer false {} words
  match named with
  | none =>
      let outer ← outer.finish configFile
      throw (if outer.given.isEmpty then .nothingAsked else .missingCommand)
  | some (name, rest) =>
      let (inner, command) ← readCommand configFile name rest
      let outer ← outer.finish configFile
      outer.exclude .quiet .verbose
      return {
        config :=
          match outer.shared? inner .config with
          | some (.text path) => some (.ofText path)
          | _ => none
        verbosity :=
          match outer.shared? inner .verbose with
          | some (.times count) => count
          | _ => 0
        quiet := (outer.shared? inner .quiet).isSome
        command }

end CommandLine

end Overlay
