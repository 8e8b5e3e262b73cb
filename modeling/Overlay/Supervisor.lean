import Overlay.Loader
import Overlay.Receiver

/-!
# The supervisor of a device

The supervisor receives an image, runs it through the loader and goes back to
waiting.  Images are received either straight into the code region, which a
failed transfer leaves invalid, or into a staging buffer, so that the code
region only ever sees verified images.
-/

set_option autoImplicit false

namespace Overlay

namespace Supervisor

/-- Where received bytes land. -/
inductive Mode where
  | direct
  | staged
  deriving DecidableEq

/-- The name of a mode. -/
def Mode.name : Mode → String
  | .direct => "Direct"
  | .staged => "Staged"

/-- What one run of serving came to. -/
structure Stats where
  sessions : Nat := 0
  launched : Nat := 0
  failed : Nat := 0
  deriving DecidableEq

end Supervisor

/-- A supervisor with its device. -/
structure Supervisor (σ : Type) where
  layout : Layout
  window : Window
  loader : Loader σ
  receiver : Receiver.Config
  mode : Supervisor.Mode
  device : Device σ
  staging : Buffer
  /-- Whether the code region holds a verified image. -/
  valid : Bool := false

namespace Supervisor

variable {σ : Type}

/-- A supervisor of zeroed memory.  It never accepts more than the code region holds. -/
def create (layout : Layout) (receiver : Receiver.Config) (loader : Loader σ) (mode : Mode)
    (board : σ) : Except Fault (Supervisor σ) := do
  let window ← layout.window.mapError Fault.layout
  let capacity := min receiver.maxImageSize window.capacity
  let staging : Buffer :=
    match mode with
    | .staged => Array.replicate capacity.toNat 0
    | .direct => #[]
  return {
    layout, window, loader
    receiver := { receiver with maxImageSize := capacity }
    mode
    device := { memory := .zeroed layout.memory, board }
    staging }

/-! ## One session -/

/-- The buffer that the next session receives into: the staging buffer, or the
bytes of the code region, if memory holds all of it. -/
def destination (supervisor : Supervisor σ) : Except Fault Buffer :=
  match supervisor.mode with
  | .staged => .ok supervisor.staging
  | .direct =>
      let code := supervisor.window.code
      (supervisor.device.memory.read code.base code.size.toNat).map List.toArray

/-- The supervisor while a session is under way: received straight into place, an
image is not valid before it has run. -/
def engaged (supervisor : Supervisor σ) : Supervisor σ :=
  match supervisor.mode with
  | .direct => { supervisor with valid := false }
  | .staged => supervisor

/-- Put the received bytes where they belong. -/
def land (supervisor : Supervisor σ) (received : Buffer) : Supervisor σ :=
  match supervisor.mode with
  | .staged => { supervisor with staging := received }
  | .direct =>
      match supervisor.device.memory.write supervisor.window.code.base received.toList with
      | .ok memory => { supervisor with device := { supervisor.device with memory } }
      | .error _ => supervisor

/-- Run the image that has been received. -/
def launch (supervisor : Supervisor σ) (length : Nat) : Except Fault Exit × Device σ :=
  match supervisor.mode with
  | .direct => supervisor.loader.runInPlace supervisor.window supervisor.device length
  | .staged =>
      supervisor.loader.loadBytes supervisor.window supervisor.device
        (Buffer.slice supervisor.staging 0 length)

/-- Note how a load ended. -/
def settle (supervisor : Supervisor σ) : Except Fault Exit × Device σ →
    Except Fault Exit × Supervisor σ
  | (.ok exit, device) => (.ok exit, { supervisor with device, valid := exit.isReturned })
  | (.error fault, device) => (.error fault, { supervisor with device })

/-- The end of a session: keep what was received, and run it if it was verified. -/
def conclude (supervisor : Supervisor σ) (result : Except Fault Received) (received : Buffer) :
    Except Fault Exit × Supervisor σ :=
  let supervisor := supervisor.land received
  match result with
  | .error fault => (.error fault, supervisor)
  | .ok image => supervisor.settle (supervisor.launch image.length)

/-- Load an image that was not received but read from a store. -/
def runStored (supervisor : Supervisor σ) (bytes : Bytes) : Except Fault Exit × Supervisor σ :=
  supervisor.settle (supervisor.loader.loadBytes supervisor.window supervisor.device bytes)

/-- Load an image by its name, if the source of images has it. -/
def runNamed (supervisor : Supervisor σ) (source : String → Except Fault Bytes) (name : String) :
    Except Fault Exit × Supervisor σ :=
  match source name with
  | .error fault => (.error fault, supervisor)
  | .ok bytes => supervisor.runStored bytes

/-- The receiver of a session that begins.  Without a buffer to receive into it has
failed before it has said anything. -/
def receive (supervisor : Supervisor σ) (now : Nat) : Receiver.State :=
  match supervisor.destination with
  | .ok destination => Receiver.start supervisor.receiver destination now
  | .error fault => (Receiver.start supervisor.receiver #[] now).fail fault

/-- What a supervisor does in one session. -/
def sessionParty (supervisor : Supervisor σ) :
    Party Receiver.State (Except Fault Exit × Supervisor σ) :=
  fun receiver now =>
    (Receiver.party supervisor.receiver receiver now).embed (fun _ receiver => receiver)
      (fun (result, received) => supervisor.engaged.conclude result received)

/-! ## Serving -/

/-- How serving goes on after a session. -/
inductive Verdict where
  | again (stats : Stats)
  | stop (result : Except Fault Stats)

/-- Count a session and decide how to go on.  A host that has left ends the serving
and its session is not counted; a link that fails ends it with the fault. -/
def Stats.judge (stats : Stats) (once : Bool) (result : Except Fault Exit) : Verdict :=
  match result with
  | .ok exit =>
      let stats := { stats with
        sessions := stats.sessions + 1
        launched := if exit.isReturned then stats.launched + 1 else stats.launched }
      if once then .stop (.ok stats) else .again stats
  | .error fault =>
      if fault.isDisconnect then .stop (.ok stats)
      else if once then .stop (.error fault)
      else
        match fault with
        | .io _ => .stop (.error fault)
        | _ => .again { stats with sessions := stats.sessions + 1, failed := stats.failed + 1 }

/-- A supervisor that serves sessions one after another. -/
inductive Serving (σ : Type) where
  | session (stats : Stats) (supervisor : Supervisor σ) (receiver : Receiver.State)
  | over (supervisor : Supervisor σ) (result : Except Fault Stats)

/-- Begin the next session. -/
def Serving.next (stats : Stats) (supervisor : Supervisor σ) (now : Nat) : Serving σ :=
  .session stats supervisor.engaged (supervisor.receive now)

/-- The end of a session, and how serving goes on. -/
def Serving.conclude (once : Bool) (stats : Stats) (supervisor : Supervisor σ)
    (result : Except Fault Received) (received : Buffer) (now : Nat) : Serving σ :=
  let (result, supervisor) := supervisor.conclude result received
  match stats.judge once result with
  | .again stats => Serving.next stats supervisor now
  | .stop result => .over supervisor result

/-- What a supervisor does while it serves: what the receiver does, and at its end a step
that takes no time and leaves the link alone. -/
def servingParty (once : Bool) : Party (Serving σ) (Except Fault Stats × Supervisor σ)
  | .over supervisor result, _ => .done (result, supervisor)
  | .session stats supervisor receiver, now =>
      (Receiver.party supervisor.receiver receiver now).follow
        (fun _ receiver => .session stats supervisor receiver)
        (fun (result, received) =>
          .pause 0 fun now => Serving.conclude once stats supervisor result received now)

end Supervisor

end Overlay
