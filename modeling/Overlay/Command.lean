import Overlay.CommandLine
import Overlay.Endpoint
import Overlay.Host
import Overlay.Settings.Load
import Overlay.Store
import Overlay.Summary
import Overlay.Supervisor

/-!
# Running commands

What each command does, over any host.  A command that fails gives its reasons,
the nearest one last.
-/

set_option autoImplicit false

namespace Overlay

/-- Why a command failed: what was being done, then its causes. -/
structure Failure where
  reasons : List String
  deriving DecidableEq

/-- The wording of a failure. -/
def Failure.message (failure : Failure) : String := ": ".intercalate failure.reasons

/-- A failure seen from what was being done. -/
def Failure.within (doing : String) (failure : Failure) : Failure := ⟨doing :: failure.reasons⟩

/-- A fault with the cause that its wording already shows. -/
def Fault.failure (fault : Fault) : Failure :=
  match fault with
  | .layout error => ⟨[fault.message, error.message]⟩
  | .unreadable _ error => ⟨[fault.message, error.text]⟩
  | _ => ⟨[fault.message]⟩

/-- The failure of something that was being done with a file or a link. -/
def IoError.failure (doing : String) (error : IoError) : Failure := ⟨[doing, error.text]⟩

namespace Command

variable {m : Type → Type} [Monad m]

/-- What a command does: in the end it may fail. -/
abbrev Run (m : Type → Type) := ExceptT Failure m

/-- Go on with a result, or fail. -/
def succeed {ε α : Type} (failure : ε → Failure) (result : Except ε α) : Run m α :=
  ExceptT.mk (pure (result.mapError failure))

/-! ## The emulated device -/

/-- A supervisor of the emulated device. -/
def emulate (settings : Settings) (mode : Supervisor.Mode) : Except Failure (Supervisor Unit) := do
  let layout ← settings.layout.plan.mapError fun error =>
    (Fault.layout error).failure.within "Invalid memory layout"
  let window ← layout.window.mapError fun error => ⟨[error.message]⟩
  let loader : Loader Unit :=
    { board := Board.inspecting, requireHeader := settings.device.requireHeader }
  (Supervisor.create layout (settings.receiver window) loader mode ()).mapError Fault.failure

/-- How a device receives, given whether the user asks for a holding buffer. -/
def receiveMode (settings : Settings) (staged : Bool) : Supervisor.Mode :=
  if staged || settings.device.staged then .staged else .direct

/-- Run an image of a store. -/
def runStored (host : Host m) (supervisor : Supervisor Unit) (store : Store) (name : String) :
    Run m (Exit × Supervisor Unit) := do
  let path ← succeed Fault.failure (store.path name)
  let answer ← host.read path
  let (result, supervisor) := supervisor.runNamed (store.resolve fun _ => answer) name
  let exit ← succeed Fault.failure result
  return (exit, supervisor)

/-! ## The commands -/

/-- The endpoint to send to. -/
def endpoint (settings : Settings) (options : SendOptions) : Except Failure Endpoint :=
  if options.emulator then .ok .emulator
  else
    match options.port <|> settings.link.port with
    | some text => (Endpoint.parse text).mapError fun error => ⟨[error.message]⟩
    | none =>
        .error ⟨["No port given; use --port, --local or set link.port in the config"]⟩

/-- Let a party talk to the device at an endpoint.  The emulator serves one session; if
its settings describe no device, its end of the link is closed from the start. -/
def converse {σ ρ : Type} (host : Host m) (settings : Settings) (party : Party σ ρ) (start : σ) :
    Endpoint → Run m ρ
  | .serial path => do
      succeed (IoError.failure s!"Failed to open serial port {path.text}")
        (← host.overSerial path party start)
  | .tcp address => do
      succeed (IoError.failure s!"Failed to connect to {address}")
        (← host.overNetwork address party start)
  | .emulator =>
      match emulate settings (receiveMode settings false) with
      | .ok supervisor =>
          ExceptT.lift (host.joined party start (Supervisor.servingParty true)
            (Supervisor.Serving.next {} supervisor 0))
      | .error _ =>
          let departed : Party Unit Unit := fun () _ => .done ()
          ExceptT.lift (host.joined party start departed ())

/-- Send an image. -/
def sendImage (host : Host m) (settings : Settings) (options : SendOptions) : Run m Unit := do
  let endpoint ← succeed id (endpoint settings options)
  let image ← succeed Fault.failure (Store.image options.image (← host.read options.image))
  unless options.json do
    host.print s!"Sending {options.image.text} ({image.length} bytes) to {endpoint.text}\n"
  let config : Uploader.Config :=
    { sender := settings.sender, retries := options.retries.getD settings.link.retries }
  let (result, _) ←
    converse host settings (Uploader.party config image) (Uploader.start config image {} 0) endpoint
  let report ← succeed
    (fun fault => fault.failure.within s!"Upload of {options.image.text} failed") result
  host.print (if options.json then report.json.pretty ++ "\n" else report.summary)

/-- Look at the store that the user names, and run the image to boot from it. -/
def prepare (host : Host m) (environment : Environment) (options : ServeOptions)
    (supervisor : Supervisor Unit) : Run m (Supervisor Unit) := do
  match options.store with
  | none => return supervisor
  | some path =>
      let store := Store.atPath environment path
      let _ ← succeed (IoError.failure s!"Failed to list image store {store.root.text}")
        (← host.list store.root)
      match options.boot with
      | none => return supervisor
      | some name => return (← runStored host supervisor store name).2

/-- Be the device, on the standard streams. -/
def serveDevice (host : Host m) (environment : Environment) (settings : Settings)
    (options : ServeOptions) : Run m Unit := do
  let supervisor ← succeed id (emulate settings (receiveMode settings options.staged))
  let supervisor ← prepare host environment options supervisor
  let (result, _) ← ExceptT.lift (host.overStandard (Supervisor.servingParty options.once)
    (Supervisor.Serving.next {} supervisor 0))
  succeed Fault.failure (result.map fun _ => ())

/-- Run an image of a store on the emulated device. -/
def runImage (host : Host m) (environment : Environment) (settings : Settings) (image : String)
    (store : Path) : Run m Unit := do
  let supervisor ← succeed id (emulate settings .staged)
  let (exit, _) ← runStored host supervisor (Store.atPath environment store) image
  if exit.isReturned then host.print s!"Ran {image}: {exit.text}\n"
  else throw ⟨[s!"{image}: {exit.text}"]⟩

/-- Put a header in front of a raw image. -/
def packImage (host : Host m) (options : PackOptions) : Run m Unit := do
  let raw ← succeed (IoError.failure s!"Failed to read {options.raw.text}")
    (← host.read options.raw)
  let packed ← succeed (fun rejection => ⟨[rejection.message]⟩)
    (Image.pack raw options.entry ⟨options.bssStart, options.bssEnd⟩)
  succeed (IoError.failure s!"Failed to write {options.out.text}")
    (← host.write options.out packed)
  let sum := hexWord (Overlay.checksum packed).toNat
  host.print s!"Packed {options.out.text} ({packed.length} bytes, crc {sum})\n"

/-- Print the checksum of a file. -/
def sumFile (host : Host m) (file : Path) : Run m Unit := do
  let data ← succeed (IoError.failure s!"Failed to read {file.text}") (← host.read file)
  host.print s!"{hexWord (Overlay.checksum data).toNat}  {file.text}\n"

/-- Show the memory layout. -/
def showLayout (host : Host m) (settings : Settings) (json : Bool) : Run m Unit := do
  let layout ← succeed (fun error => (Fault.layout error).failure) settings.layout.plan
  if json then host.print (layout.json.pretty ++ "\n")
  else
    host.print layout.summary
    let window ← succeed (fun error => ⟨[error.message]⟩) layout.window
    host.print window.summary

/-- Do what a command line asks for. -/
def execute (host : Host m) (environment : Environment) (line : CommandLine) : Run m Unit := do
  let loaded ← ExceptT.lift (Settings.load host.read environment line.config)
  let settings ← succeed Fault.failure loaded
  match line.command with
  | .send options => sendImage host settings options
  | .serve options => serveDevice host environment settings options
  | .run image store => runImage host environment settings image store
  | .pack options => packImage host options
  | .checksum file => sumFile host file
  | .layout json => showLayout host settings json

end Command

end Overlay
