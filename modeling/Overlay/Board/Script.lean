import Overlay.Board

/-!
# A board that follows a script

A board for which it is written down what each run of an overlay does.  It keeps
a record of the runs and counts how often its devices were brought to rest.
-/

set_option autoImplicit false

namespace Overlay

namespace ScriptedBoard

/-- What one run of an overlay does. -/
structure Action where
  /-- The writes to memory that come first. -/
  writes : List (UInt32 × Bytes) := []
  /-- Whether the run then only looks at the first word. -/
  inspects : Bool := false
  /-- Whether the run then fails. -/
  failure : Option String := none
  /-- What the run returns otherwise. -/
  status : Int32 := 0

/-- One run: what it was started with, and the first word of the overlay. -/
structure Call where
  context : Context
  word : Option UInt32

end ScriptedBoard

/-- The state of a board that follows a script. -/
structure ScriptedBoard where
  /-- What the runs do; the last entry goes on for good. -/
  actions : List ScriptedBoard.Action
  /-- How many runs there were. -/
  count : Nat := 0
  /-- The runs so far, latest first. -/
  calls : List ScriptedBoard.Call := []
  /-- How often the devices were brought to rest. -/
  rests : Nat := 0

namespace ScriptedBoard

/-- What the next run does. -/
def action (board : ScriptedBoard) : Action :=
  match board.actions[board.count]? with
  | some action => action
  | none => board.actions.getLast?.getD {}

/-- Write in turn, as far as it goes. -/
def writeAll (memory : DeviceMemory) : List (UInt32 × Bytes) → Except Fault Unit × DeviceMemory
  | [] => (.ok (), memory)
  | (address, data) :: rest =>
      match memory.write address data with
      | .ok memory => writeAll memory rest
      | .error fault => (.error fault, memory)

/-- What an action does once its writes are through. -/
def Action.finish (action : Action) (context : Context) (memory : DeviceMemory) :
    Except Fault Int32 :=
  if action.inspects then (memory.readWord context.entry).map fun _ => 0
  else
    match action.failure with
    | some text => .error (.executor text)
    | none => .ok action.status

/-- The board that follows a script. -/
def board : Board ScriptedBoard where
  execute context device :=
    let state := device.board
    let call : Call := { context, word := (device.memory.readWord context.entry).toOption }
    let (written, memory) := writeAll device.memory state.action.writes
    let result := written.bind fun () => state.action.finish context memory
    (result,
      { memory, board := { state with count := state.count + 1, calls := call :: state.calls } })
  neutralise state := { state with rests := state.rests + 1 }

end ScriptedBoard

end Overlay
