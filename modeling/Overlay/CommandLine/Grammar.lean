import Overlay.CommandLine
import Overlay.CommandLine.Numeral

/-!
# The grammar of command lines

A command line has two levels: what comes before the name of a command, and the
arguments of the command.  Each level has its options and its places.  The
options for the configuration file and for the amount of log output belong to
both.
-/

set_option autoImplicit false

namespace Overlay

/-- Everything that can be given on a command line. -/
inductive Parameter where
  | help
  | version
  | config
  | verbose
  | quiet
  | image
  | port
  | emulator
  | retries
  | json
  | noProgress
  | once
  | staged
  | store
  | boot
  | raw
  | out
  | entry
  | bssStart
  | bssEnd
  | file
  deriving DecidableEq, Repr

/-- What giving a parameter means, or how its value is read. -/
inductive Reading where
  | showHelp
  | showVersion
  /-- Given or not. -/
  | flag
  /-- Given any number of times. -/
  | counted
  /-- A path, which may not be empty. -/
  | path
  | text
  | count
  | offset
  deriving DecidableEq, Repr

/-- What was given for a parameter. -/
inductive Given where
  | flag
  | times (count : Nat)
  | text (value : String)
  | word (value : UInt32)
  deriving DecidableEq, Repr

/-- Whether a parameter needs a value. -/
def Reading.takesValue : Reading → Bool
  | .path | .text | .count | .offset => true
  | _ => false

/-- Read a value. -/
def Reading.value (reading : Reading) (text : String) : Except UsageError Given :=
  match reading with
  | .path => if text.isEmpty then .error .badValue else .ok (.text text)
  | .count => ((Numeral.count text).map .word).mapError .badNumber
  | .offset => ((Numeral.offset text).map .word).mapError .badNumber
  | _ => .ok (.text text)

namespace Parameter

/-- How a parameter is read. -/
def reading : Parameter → Reading
  | .help => .showHelp
  | .version => .showVersion
  | .verbose => .counted
  | .config | .store | .raw | .out | .file => .path
  | .port | .boot => .text
  | .retries => .count
  | .entry | .bssStart | .bssEnd => .offset
  | .image => .path
  | .quiet | .emulator | .json | .noProgress | .once | .staged => .flag

/-- The word of an option. -/
def long : Parameter → String
  | .help => "help"
  | .version => "version"
  | .config => "config"
  | .verbose => "verbose"
  | .quiet => "quiet"
  | .image => "image"
  | .port => "port"
  | .emulator => "local"
  | .retries => "retries"
  | .json => "json"
  | .noProgress => "no-progress"
  | .once => "once"
  | .staged => "staged"
  | .store => "store"
  | .boot => "boot"
  | .raw => "raw"
  | .out => "out"
  | .entry => "entry"
  | .bssStart => "bss-start"
  | .bssEnd => "bss-end"
  | .file => "file"

/-- The letter of an option, if it has one. -/
def short? : Parameter → Option Char
  | .help => some 'h'
  | .version => some 'V'
  | .verbose => some 'v'
  | .quiet => some 'q'
  | .port => some 'p'
  | .retries => some 'r'
  | _ => none

end Parameter

/-- The names of the commands. -/
inductive CommandName where
  | send
  | serve
  | run
  | pack
  | checksum
  | layout
  deriving DecidableEq, Repr

namespace CommandName

/-- The word of a command. -/
def text : CommandName → String
  | .send => "send"
  | .serve => "serve"
  | .run => "run"
  | .pack => "pack"
  | .checksum => "checksum"
  | .layout => "layout"

/-- Every command. -/
def all : List CommandName := [.send, .serve, .run, .pack, .checksum, .layout]

/-- The command of a given name. -/
def ofText? (word : String) : Option CommandName := all.find? fun name => name.text == word

end CommandName

/-- One level of a command line. -/
structure Grammar where
  options : List Parameter
  /-- What the words that are no options stand for, in order. -/
  places : List (Parameter × Reading)
  /-- Whether a command may be named. -/
  namesCommand : Bool

namespace Grammar

/-- The options of both levels. -/
def shared : List Parameter := [.help, .config, .verbose, .quiet]

/-- What comes before the name of a command. -/
def outer : Grammar where
  options := .version :: shared
  places := []
  namesCommand := true

/-- The arguments of a command. -/
def ofCommand (name : CommandName) : Grammar :=
  let (options, places) : List Parameter × List (Parameter × Reading) :=
    match name with
    | .send => ([.port, .emulator, .retries, .json, .noProgress], [(.image, .path)])
    | .serve => ([.once, .staged, .store, .boot], [])
    | .run => ([.store], [(.image, .text)])
    | .pack => ([.entry, .bssStart, .bssEnd], [(.raw, .path), (.out, .path)])
    | .checksum => ([], [(.file, .path)])
    | .layout => ([.json], [])
  { options := shared ++ options, places, namesCommand := false }

/-- The option with a given word. -/
def ofLong? (grammar : Grammar) (word : String) : Option Parameter :=
  grammar.options.find? fun option => option.long == word

/-- The option with a given letter. -/
def ofShort? (grammar : Grammar) (letter : Char) : Option Parameter :=
  grammar.options.find? fun option => option.short? == some letter

end Grammar

end Overlay
