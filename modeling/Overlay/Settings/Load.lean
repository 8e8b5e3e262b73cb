import Overlay.Environment
import Overlay.Files
import Overlay.Settings.Decode
import Overlay.Toml.Document

/-!
# Settings from a file

A user may name a configuration file, and then it has to be there.  The file in
the user's configuration directory is read when none is named; it may be
missing.
-/

set_option autoImplicit false

namespace Overlay.Settings

/-- The fault of a text that describes no settings. -/
def unintelligible : Fault := .config "TOML parse error"

/-- The settings that a text describes. -/
def parse (text : String) : Except Fault Settings :=
  match (Toml.Document.parse? text).bind ofTable? with
  | some settings => .ok settings
  | none => .error unintelligible

/-- The file to read, and whether the user has named it. -/
def source? (environment : Environment) : Option Path → Option (Path × Bool)
  | some path => some (path, true)
  | none => environment.defaultConfig.map fun path => (path, false)

/-- The settings of a file, from what reading it came to. -/
def ofFile (path : Path) (named : Bool) : Except IoError Bytes → Except Fault Settings
  | .ok bytes =>
      match text? bytes with
      | some text =>
          (parse text).mapError fun fault => .config s!"{path.text}: {fault.message}"
      | none => .error (.unreadable path.text .notText)
  | .error error =>
      if error.kind = .notFound && !named then .ok {}
      else .error (.unreadable path.text error)

/-- The settings that hold, given how files are read. -/
def load {m : Type → Type} [Monad m] (read : Path → m (Except IoError Bytes))
    (environment : Environment) (path? : Option Path) : m (Except Fault Settings) := do
  match source? environment path? with
  | some (path, named) => return ofFile path named (← read path)
  | none => return .ok {}

end Overlay.Settings
