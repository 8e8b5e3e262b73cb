import Overlay.Link.Party
import Overlay.Session

/-!
# The receiving end

The receiver says that it is ready, again and again, until a sender starts to
talk.  From then on it feeds its session with whatever arrives and writes back
the replies.  Bytes behind the end of the image are dropped.
-/

set_option autoImplicit false

namespace Overlay

/-- A verified image in the destination. -/
structure Received where
  length : Nat
  checksum : UInt32
  deriving DecidableEq

namespace Receiver

/-- The most bytes that one read takes. -/
def readSize : Nat := 512

/-- What a receiver is set to. -/
structure Config where
  /-- The largest image that is accepted. -/
  maxImageSize : UInt32 := 196608
  /-- How often readiness is repeated, in milliseconds. -/
  readyInterval : Nat := 500
  /-- How long to wait for a sender; without it, for good. -/
  readyTimeout : Option Nat := none
  /-- How long bytes may stay away once a transfer has begun. -/
  phaseTimeout : Nat := 2000
  deriving DecidableEq

/-- What a receiver is doing. -/
inductive Stage where
  /-- Saying that it is ready. -/
  | announcing
  /-- Waiting for the first bytes of a sender. -/
  | listening
  /-- Waiting for more bytes. -/
  | reading
  /-- Writing a reply, with input left for later. -/
  | replying (reply : Reply) (rest : Bytes)
  /-- The transfer is over. -/
  | finished (result : Except Fault Received)

/-- A receiver at work. -/
structure State where
  session : Session
  destination : Buffer
  /-- When it began. -/
  started : Nat
  stage : Stage

/-- What the end of a session means to the receiver. -/
def conclude : Session.Outcome → Except Fault Received
  | .verified size checksum => .ok ⟨size.toNat, checksum⟩
  | .mismatch _ expected actual => .error (.checksumMismatch expected actual)
  | .rejected declared capacity => .error (.sizeRejected declared capacity)

namespace State

/-- The transfer has failed. -/
def fail (state : State) (fault : Fault) : State :=
  { state with stage := .finished (.error fault) }

/-- Go on to what the session needs next. -/
def settle (state : State) : State :=
  match state.session.stage.outcome with
  | some outcome => { state with stage := .finished (conclude outcome) }
  | none =>
      match state.session.stage.phase with
      | .ready => { state with stage := .announcing }
      | _ => { state with stage := .reading }

/-- Feed input to the session, up to the first reply. -/
def absorb (state : State) (input : Bytes) : State :=
  if input.isEmpty || state.session.stage.finished then state.settle
  else
    let step := state.session.consume input state.destination
    let next := { state with session := step.session, destination := step.destination }
    match step.reply with
    | some reply => { next with stage := .replying reply (input.drop step.consumed) }
    | none => next.settle

/-- Whether a receiver that is still waiting for a sender has waited long enough. -/
def waitedOut (config : Config) (state : State) (now : Nat) : Bool :=
  match config.readyTimeout with
  | some limit => limit ≤ now - state.started
  | none => false

end State

/-- A receiver that begins to wait for an image. -/
def start (config : Config) (destination : Buffer) (now : Nat) : State where
  session :=
    { capacity := min config.maxImageSize (UInt32.ofNat (min destination.size 0xFFFFFFFF)) }
  destination := destination
  started := now
  stage := .announcing

/-- What a receiver does next. -/
def party (config : Config) : Party State (Except Fault Received × Buffer) :=
  fun state _ =>
    match state.stage with
    | .finished result => .done (result, state.destination)
    | .announcing =>
        .write Reply.ready.encode config.phaseTimeout fun _ answer =>
          match answer with
          | .ok () => { state with stage := .listening }
          | .error lapse => state.fail (lapse.fault Reply.ready.phase)
    | .listening =>
        .read readSize config.readyInterval fun now answer =>
          match answer with
          | .ok data => state.absorb data
          | .error .expired =>
              if state.waitedOut config now then state.fail (.timeout .ready)
              else { state with stage := .announcing }
          | .error lapse => state.fail (lapse.fault .ready)
    | .reading =>
        .read readSize config.phaseTimeout fun _ answer =>
          match answer with
          | .ok data => state.absorb data
          | .error lapse => state.fail (lapse.fault state.session.stage.phase)
    | .replying reply rest =>
        .write reply.encode config.phaseTimeout fun _ answer =>
          match answer with
          | .ok () => state.absorb rest
          | .error lapse => state.fail (lapse.fault reply.phase)

end Receiver

end Overlay
