import Overlay.Path

/-!
# Command lines

What a user may ask for, and why a command line is not answered by running a
command.
-/

set_option autoImplicit false

namespace Overlay

/-- How an image is to be sent. -/
structure SendOptions where
  image : Path
  /-- The endpoint, if it is not to come from the settings. -/
  port : Option String
  /-- Talk to the built-in emulator. -/
  emulator : Bool
  /-- The number of retries, if it is not to come from the settings. -/
  retries : Option UInt32
  json : Bool
  noProgress : Bool
  deriving DecidableEq

/-- How a device is to be emulated. -/
structure ServeOptions where
  once : Bool
  staged : Bool
  store : Option Path
  /-- The image of the store to run first. -/
  boot : Option String
  deriving DecidableEq

/-- How a raw image is to be packed. -/
structure PackOptions where
  raw : Path
  out : Path
  entry : UInt32
  bssStart : UInt32
  bssEnd : UInt32
  deriving DecidableEq

/-- What a user asks for. -/
inductive Command where
  | send (options : SendOptions)
  | serve (options : ServeOptions)
  | run (image : String) (store : Path)
  | pack (options : PackOptions)
  | checksum (file : Path)
  | layout (json : Bool)
  deriving DecidableEq

/-- Whether a command runs images on the emulated device. -/
def Command.emulatesDevice : Command → Bool
  | .serve _ => true
  | .run _ _ => true
  | _ => false

/-- A whole command line. -/
structure CommandLine where
  config : Option Path
  verbosity : Nat
  quiet : Bool
  command : Command
  deriving DecidableEq

/-- Why no command is run. -/
inductive UsageError where
  /-- Help was asked for. -/
  | help
  /-- The version was asked for. -/
  | version
  /-- Nothing was asked for, so help is shown. -/
  | nothingAsked
  | missingCommand
  | unknownCommand
  | unknownArgument
  /-- A flag was given a value. -/
  | surplusValue
  /-- A value is missing, or empty where it may not be. -/
  | badValue
  /-- A value that should be a number is none, or is out of range. -/
  | badNumber (text : String)
  /-- Arguments exclude each other, or one of them was given twice. -/
  | conflict
  | missingArgument
  deriving DecidableEq

end Overlay
