import Overlay.Checksum
import Overlay.Link.Party
import Overlay.Progress

/-!
# The sending end

The sender waits until the receiver is ready, names the size and the checksum
of its image, streams the image in blocks without waiting in between, and
compares the receiver's checksum with its own.  Bytes that are no marker, or not
the marker that is waited for, are passed over.
-/

set_option autoImplicit false

namespace Overlay

namespace Sender

/-- What a sender is set to. -/
structure Config where
  /-- How long to wait for a receiver, in milliseconds. -/
  readyTimeout : Nat := 10000
  /-- How long each later wait may take. -/
  phaseTimeout : Nat := 2000
  /-- How many bytes one write of the image has. -/
  blockSize : Nat := 1024
  deriving DecidableEq

/-- What a completed transfer was like. -/
structure Report where
  bytes : Nat
  blocks : Nat
  sentChecksum : UInt32
  receivedChecksum : UInt32
  /-- Milliseconds since the receiver was ready. -/
  elapsed : Nat
  deriving DecidableEq

/-- What a sender is doing. -/
inductive Stage where
  /-- Waiting for readiness until the deadline. -/
  | awaitReady (deadline : Nat)
  | sendSize
  | awaitSizeAck
  /-- Reading the capacity behind a refusal. -/
  | readCapacity (word : WordBuffer)
  | sendChecksum
  /-- Writing the rest of the image, after `blocks` blocks. -/
  | streaming (rest : Bytes) (blocks : Nat)
  | awaitVerify (blocks : Nat)
  /-- Reading the receiver's checksum. -/
  | readVerify (blocks : Nat) (word : WordBuffer)
  /-- The transfer is over. -/
  | finished (result : Except Fault Report)

/-- A sender at work. -/
structure State where
  /-- When the receiver was ready. -/
  started : Nat
  progress : Progress
  stage : Stage

namespace State

/-- The transfer has failed. -/
def fail (state : State) (fault : Fault) : State :=
  { state with stage := .finished (.error fault) }

/-- Go on to another stage. -/
def proceed (state : State) (stage : Stage) : State := { state with stage }

/-- Stream the rest of the image, or wait for verification when nothing is left. -/
def stream (state : State) (rest : Bytes) (blocks : Nat) : State :=
  if rest.isEmpty then state.proceed (.awaitVerify blocks)
  else state.proceed (.streaming rest blocks)

/-- The receiver's checksum is known. -/
def verify (state : State) (image : Bytes) (blocks : Nat) (received : UInt32) (now : Nat) :
    State :=
  let sent := checksum image
  if received = sent then
    { state with
      progress := state.progress.finish
      stage := .finished (.ok
        { bytes := image.length, blocks, sentChecksum := sent, receivedChecksum := received,
          elapsed := now - state.started }) }
  else
    { state with progress := state.progress.abandon }.fail (.checksumMismatch sent received)

end State

/-- A sender that begins to wait for a receiver. -/
def start (config : Config) (image : Bytes) (progress : Progress) (now : Nat) : State where
  started := now
  progress := progress
  stage :=
    if 4294967296 ≤ image.length then .finished (.error (.imageTooLarge image.length))
    else .awaitReady (now + config.readyTimeout)

/-- Read one byte and look whether it is a marker. -/
def readMarker (timeout : Nat) (phase : Phase) (state : State)
    (found : Nat → Marker → State) : Move State (Except Fault Report × Progress) :=
  .read 1 timeout fun now answer =>
    match answer with
    | .error lapse => state.fail (lapse.fault phase)
    | .ok data =>
        match data.head?.bind Marker.ofByte? with
        | some marker => found now marker
        | none => state

/-- Read more of a word. -/
def readWord (timeout : Nat) (phase : Phase) (state : State) (word : WordBuffer)
    (more : WordBuffer → State) (found : Nat → UInt32 → State) :
    Move State (Except Fault Report × Progress) :=
  .read word.room timeout fun now answer =>
    match answer with
    | .error lapse => state.fail (lapse.fault phase)
    | .ok data =>
        match (word.fill data).value? with
        | some value => found now value
        | none => more (word.fill data)

/-- Write a sequence and go on. -/
def writeAll (data : Bytes) (timeout : Nat) (phase : Phase) (state : State) (next : State) :
    Move State (Except Fault Report × Progress) :=
  .write data timeout fun _ answer =>
    match answer with
    | .ok () => next
    | .error lapse => state.fail (lapse.fault phase)

/-- What a sender of an image does next. -/
def party (config : Config) (image : Bytes) :
    Party State (Except Fault Report × Progress) :=
  fun state now =>
    let timeout := config.phaseTimeout
    match state.stage with
    | .finished result => .done (result, state.progress)
    | .awaitReady deadline =>
        .read 1 (deadline - now) fun now answer =>
          match answer with
          | .error .expired => state.fail (.noPeer config.readyTimeout)
          | .error lapse => state.fail (lapse.fault .ready)
          | .ok data =>
              match data.head?.bind Marker.ofByte? with
              | some .ready => { state with started := now, stage := .sendSize }
              | _ => state
    | .sendSize =>
        writeAll (Word.encode (UInt32.ofNat image.length)) timeout .size state
          (state.proceed .awaitSizeAck)
    | .awaitSizeAck =>
        readMarker timeout .size state fun _ marker =>
          match marker with
          | .sizeAck => state.proceed .sendChecksum
          | .sizeReject => state.proceed (.readCapacity .empty)
          | _ => state
    | .readCapacity word =>
        readWord timeout .size state word (fun word => state.proceed (.readCapacity word))
          fun _ capacity => state.fail (.sizeRejected (UInt32.ofNat image.length) capacity)
    | .sendChecksum =>
        writeAll (Word.encode (checksum image)) timeout .checksum state
          ({ state with progress := state.progress.start (UInt64.ofNat image.length) }.stream
            image 0)
    | .streaming rest blocks =>
        let size := max config.blockSize 1
        let block := rest.take size
        .write block timeout fun _ answer =>
          match answer with
          | .ok () =>
              { state with progress := state.progress.advance (UInt64.ofNat block.length) }.stream
                (rest.drop size) (blocks + 1)
          | .error lapse =>
              { state with progress := state.progress.abandon }.fail (lapse.fault .streaming)
    | .awaitVerify blocks =>
        readMarker timeout .verify state fun _ marker =>
          match marker with
          | .verifyAck => state.proceed (.readVerify blocks .empty)
          | _ => state
    | .readVerify blocks word =>
        readWord timeout .verify state word (fun word => state.proceed (.readVerify blocks word))
          fun now received => state.verify image blocks received now

end Sender

end Overlay
