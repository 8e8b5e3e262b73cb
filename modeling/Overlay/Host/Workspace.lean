import Overlay.CommandLine.Numeral
import Overlay.Files
import Overlay.Host
import Overlay.Link.File
import Overlay.Link.Pipe
import Overlay.Link.Script

/-!
# Workspaces

A workspace is a host that is a value: a tree of files, what is still to be read
from standard input, and what was printed.  There is nobody on its network.
-/

set_option autoImplicit false

namespace Overlay

/-- A host as a value. -/
structure Workspace where
  files : Files
  input : Bytes := []
  output : Bytes := []

namespace Workspace

/-- What happens in a workspace; nothing comes of a conversation that does not end. -/
abbrev Action := StateT Workspace Option

/-- Give the workspace the outcome of writing a file. -/
def adopt : Except IoError Files → Action (Except IoError Unit)
  | .ok files => do
      modify fun workspace => { workspace with files }
      return .ok ()
  | .error error => return .error error

/-- Print bytes. -/
def emit (bytes : Bytes) : Action Unit :=
  modify fun workspace => { workspace with output := workspace.output ++ bytes }

/-- Why a connection to an address fails. -/
def refusal (address : String) : IoError :=
  let port := (address.toList.reverse.takeWhile (· != ':')).reverse
  match Numeral.unsigned 10 65535 port with
  | .ok _ => ⟨.connectionRefused, "Connection refused (os error 111)"⟩
  | .error _ => ⟨.invalidInput, "invalid port value"⟩

variable {σ ρ σ' ρ' : Type}

/-- Let a party talk over the standard streams.  Input is there from the start. -/
def overStandard (fuel : Nat) (party : Party σ ρ) (start : σ) : Action ρ := do
  let input := (← get).input
  let arrivals : List Script.Event := if input.isEmpty then [] else [⟨0, .data input⟩]
  let (result, link) ← liftM (party.runScript fuel start { arrivals, silent := false })
  modify fun workspace => { workspace with input := [] }
  emit (link.accepted.reverse.flatMap (·.2))
  return result

/-- Let a party talk to a file of the workspace. -/
def overSerial (fuel : Nat) (path : Path) (party : Party σ ρ) (start : σ) :
    Action (Except IoError ρ) := do
  match (← get).files.find path with
  | .error error => return .error error
  | .ok (_, .directory) => return .error .isADirectory
  | .ok (_, .sink) =>
      let (result, _) ← liftM (party.runFile fuel start { after := [] })
      return .ok result
  | .ok (place, .file bytes) =>
      let (result, link) ← liftM (party.runFile fuel start { after := bytes })
      modify fun workspace =>
        { workspace with files := workspace.files.put place (.file link.contents) }
      return .ok result

/-- How much a pipe between two parties holds. -/
def pipeCapacity : Nat := 65536

/-- Let a party talk to another one. -/
def joined (fuel : Nat) (first : Party σ ρ) (start : σ) (second : Party σ' ρ') (start' : σ') :
    Action ρ := do
  let pipe : Pipe := { capacity := pipeCapacity }
  let joint : Joint σ ρ σ' ρ' :=
    { first := .ready start, second := .ready start', forth := pipe, back := pipe }
  let (result, _) ← liftM (Joint.run first second fuel joint)
  return result

/-- The workspace as a host whose conversations have at most `fuel` moves. -/
def host (fuel : Nat) : Host Action where
  read path := return (← get).files.read path
  write path bytes := do adopt ((← get).files.write path bytes)
  list path := return (← get).files.list path
  print text := emit (utf8 text)
  overStandard := overStandard fuel
  overSerial := overSerial fuel
  overNetwork address _ _ := return .error (refusal address)
  joined := joined fuel

end Workspace

end Overlay
