import Overlay.Path

/-!
# The environment of a run

The variables that say where a user's own files are, and the paths that follow
from them.
-/

set_option autoImplicit false

namespace Overlay

/-- What the surroundings of a run provide. -/
structure Environment where
  /-- The value of `HOME`. -/
  home : Option Path := none
  /-- The value of `XDG_CONFIG_HOME`. -/
  configHome : Option Path := none
  /-- The value of `OVLINK_CONFIG`. -/
  configFile : Option String := none
  /-- The home directory that the account has. -/
  accountHome : Option Path := none

namespace Environment

/-- The home directory: the one set, unless it is empty, or else that of the account. -/
def homeDirectory (environment : Environment) : Option Path :=
  match environment.home with
  | some home => if home.bytes.isEmpty then environment.accountHome else some home
  | none => environment.accountHome

/-- The directory of configuration files.  A setting that is not absolute is ignored. -/
def configDirectory (environment : Environment) : Option Path :=
  let byDefault := environment.homeDirectory.map fun home => home.join (.ofText ".config")
  match environment.configHome with
  | some directory => if directory.isAbsolute then some directory else byDefault
  | none => byDefault

/-- The configuration file that is read when none is named. -/
def defaultConfig (environment : Environment) : Option Path :=
  environment.configDirectory.map fun directory =>
    (directory.join (.ofText "ovlink")).join (.ofText "config.toml")

/-- A tilde that a text begins with stands for the home directory. -/
def expandTilde (environment : Environment) (path : Path) : Path :=
  match (text? path.bytes).map String.toList, environment.homeDirectory with
  | some ['~'], some home => home
  | some ('~' :: '/' :: rest), some home => home.join (.ofText (String.ofList rest))
  | _, _ => path

end Environment

end Overlay
