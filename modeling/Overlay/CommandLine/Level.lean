import Overlay.CommandLine.Grammar

/-!
# Reading one level of a command line

Words are taken one after another.  The value of an option, or of a place, waits
until the next argument is taken, and only then is it read; so a faulty word that
comes later may be noticed first, if it is not understood at all.
-/

set_option autoImplicit false

namespace Overlay

/-- Where an argument comes from; later sources weigh more. -/
inductive ArgumentSource where
  | environment
  | commandLine
  deriving DecidableEq, Repr

/-- A level that is being read. -/
structure Level where
  /-- What has been given so far. -/
  given : List (Parameter × ArgumentSource × Given) := []
  /-- An argument whose value has not been read, or not even been given. -/
  pending : Option (Parameter × Reading × Option String) := none
  /-- How many places are taken. -/
  placed : Nat := 0

namespace Level

/-- What was given for a parameter, and by whom. -/
def find? (level : Level) (parameter : Parameter) : Option (ArgumentSource × Given) :=
  level.given.lookup parameter

/-- Whether something was given for a parameter. -/
def has (level : Level) (parameter : Parameter) : Bool := (level.find? parameter).isSome

/-- Whether an option waits for the next word to be its value. -/
def awaitsValue (level : Level) : Bool :=
  match level.pending with
  | some (_, _, none) => true
  | _ => false

/-- Note what was given. -/
def note (level : Level) (parameter : Parameter) (source : ArgumentSource) (given : Given) :
    Level :=
  { level with given :=
      (parameter, source, given) :: level.given.filter fun other => other.1 != parameter }

/-- Read the value of a parameter that was not given before. -/
def set (level : Level) (parameter : Parameter) (reading : Reading) (source : ArgumentSource)
    (text : String) : Except UsageError Level := do
  if level.has parameter then throw .conflict
  return level.note parameter source (← reading.value text)

/-- Read the value that waits. -/
def settle (level : Level) : Except UsageError Level :=
  match level.pending with
  | none => .ok level
  | some (_, _, none) => .error .badValue
  | some (parameter, reading, some text) =>
      { level with pending := none }.set parameter reading .commandLine text

/-- Take a parameter without a value. -/
def raise (level : Level) (parameter : Parameter) : Except UsageError Level := do
  let level ← level.settle
  match parameter.reading with
  | .showHelp => throw .help
  | .showVersion => throw .version
  | .counted =>
      let before :=
        match level.find? parameter with
        | some (_, .times count) => count
        | _ => 0
      return level.note parameter .commandLine (.times (min (before + 1) 255))
  | _ =>
      if level.has parameter then throw .conflict
      return level.note parameter .commandLine .flag

/-- Take an option with a value, which may be attached to it. -/
def option (level : Level) (parameter : Parameter) (attached : Option String) :
    Except UsageError Level := do
  let level ← level.settle
  match attached with
  | some text => level.set parameter parameter.reading .commandLine text
  | none => return { level with pending := some (parameter, parameter.reading, none) }

/-- Take an option by its word. -/
def long (grammar : Grammar) (level : Level) (word : String) (attached : Option String) :
    Except UsageError Level :=
  match grammar.ofLong? word with
  | none => .error .unknownArgument
  | some parameter =>
      if parameter.reading.takesValue then level.option parameter attached
      else if attached.isSome then .error .surplusValue
      else level.raise parameter

/-- Take options by their letters.  What follows the letter of an option with a value is
its value, after an equals sign or directly. -/
def letters (grammar : Grammar) (level : Level) : List Char → Except UsageError Level
  | [] => .ok level
  | letter :: rest =>
      match grammar.ofShort? letter with
      | none => .error .unknownArgument
      | some parameter =>
          if parameter.reading.takesValue then
            match rest with
            | [] => level.option parameter none
            | '=' :: value => level.option parameter (some (String.ofList value))
            | value => level.option parameter (some (String.ofList value))
          else do letters grammar (← level.raise parameter) rest

/-- Take a word for the next place. -/
def place (grammar : Grammar) (trailing : Bool) (level : Level) (word : String) :
    Except UsageError Level := do
  match grammar.places[level.placed]? with
  | some (parameter, reading) =>
      let level ← level.settle
      return { level with
        pending := some (parameter, reading, some word)
        placed := level.placed + 1 }
  | none =>
      if !grammar.namesCommand then throw .unknownArgument
      else if trailing && ((CommandName.ofText? word).isSome || word == "help") then
        throw .unknownArgument
      else throw .unknownCommand

/-- Split a word at its first equals sign. -/
def splitValue (word : List Char) : String × Option String :=
  let name := word.takeWhile (· != '=')
  let value :=
    match word.dropWhile (· != '=') with
    | [] => none
    | _ :: value => some (String.ofList value)
  (String.ofList name, value)

/-- Take a word that names no command and does not end the options. -/
def word (grammar : Grammar) (level : Level) (word : String) : Except UsageError Level :=
  match word.toList with
  | '-' :: '-' :: rest =>
      let (name, value) := splitValue rest
      level.long grammar name value
  | '-' :: letter :: rest => level.letters grammar (letter :: rest)
  | _ =>
      match level.pending with
      | some (parameter, reading, none) =>
          .ok { level with pending := some (parameter, reading, some word) }
      | _ => level.place grammar false word

/-- What a request for help about words is answered with. -/
def helpAbout : List String → UsageError
  | [] => .help
  | [word] =>
      if (CommandName.ofText? word).isSome || word == "help" then .help else .unknownCommand
  | _ => .unknownCommand

/-- Take all words, up to the name of a command where one may be named.  After two
dashes by themselves every word is for a place. -/
def read (grammar : Grammar) :
    Bool → Level → List String → Except UsageError (Level × Option (CommandName × List String))
  | _, level, [] => .ok (level, none)
  | true, level, word :: rest => do read grammar true (← level.place grammar true word) rest
  | false, level, word :: rest => do
      if grammar.namesCommand && !level.awaitsValue then
        if word = "help" then throw (helpAbout rest)
        if let some name := CommandName.ofText? word then return (level, some (name, rest))
      if word = "--" then read grammar true level rest
      else read grammar false (← level.word grammar word) rest

/-- The end of a level: the value that waits is read, and the environment may name the
configuration file. -/
def finish (level : Level) (configFile : Option String) : Except UsageError Level := do
  let level ← level.settle
  match configFile with
  | some text =>
      if level.has .config then return level
      else level.set .config .path .environment text
  | none => return level

/-- Refuse parameters that exclude each other. -/
def exclude (level : Level) (a b : Parameter) : Except UsageError Unit :=
  if level.has a && level.has b then .error .conflict else .ok ()

/-! ## What was given -/

/-- The text given for a parameter. -/
def text? (level : Level) (parameter : Parameter) : Option String :=
  match level.find? parameter with
  | some (_, .text value) => some value
  | _ => none

/-- The text given for a parameter that must be there. -/
def text (level : Level) (parameter : Parameter) : Except UsageError String :=
  match level.text? parameter with
  | some value => .ok value
  | none => .error .missingArgument

/-- The number given for a parameter. -/
def word? (level : Level) (parameter : Parameter) : Option UInt32 :=
  match level.find? parameter with
  | some (_, .word value) => some value
  | _ => none

end Level

end Overlay
