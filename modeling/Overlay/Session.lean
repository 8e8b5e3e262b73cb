import Overlay.Checksum
import Overlay.Wire

/-!
# A transfer session, driven by bytes

The receiver's side of one transfer without any input or output of its own.
Bytes are fed in as they arrive; a step says how many were used and which reply
is due.  Only the declared size decides where the image ends: how the bytes
were cut on the wire means nothing.
-/

set_option autoImplicit false

namespace Overlay

namespace Session

/-- How far a transfer has come. -/
inductive Stage where
  /-- Nothing has arrived. -/
  | idle
  /-- The size word is arriving. -/
  | awaitSize (word : WordBuffer)
  /-- The size is accepted and the checksum word is arriving. -/
  | awaitChecksum (size : UInt32) (word : WordBuffer)
  /-- Image bytes are arriving. -/
  | streaming (size expected : UInt32) (received : Nat) (check : Crc32)
  /-- Every image byte is stored. -/
  | complete (size expected actual : UInt32)
  /-- The declared size was too large. -/
  | rejected (declared capacity : UInt32)
  deriving DecidableEq

/-- The phase that a stage belongs to. -/
def Stage.phase : Stage → Phase
  | .idle => .ready
  | .awaitSize _ => .size
  | .awaitChecksum _ _ => .checksum
  | .streaming _ _ _ _ => .streaming
  | .complete _ _ _ => .verify
  | .rejected _ _ => .size

/-- How a finished session ended. -/
inductive Outcome where
  | verified (size checksum : UInt32)
  | mismatch (size expected actual : UInt32)
  | rejected (declared capacity : UInt32)
  deriving DecidableEq

/-- The way a stage ended the session, if it did. -/
def Stage.outcome : Stage → Option Outcome
  | .complete size expected actual =>
      if expected = actual then some (.verified size actual)
      else some (.mismatch size expected actual)
  | .rejected declared capacity => some (.rejected declared capacity)
  | _ => none

/-- How many image bytes a stage has stored. -/
def Stage.received : Stage → Nat
  | .streaming _ _ received _ => received
  | .complete size _ _ => size.toNat
  | _ => 0

/-- Whether a stage takes no more input. -/
def Stage.finished : Stage → Bool
  | .complete _ _ _ => true
  | .rejected _ _ => true
  | _ => false

end Session

/-- One transfer: the largest image it accepts and how far it has come. -/
structure Session where
  capacity : UInt32
  stage : Session.Stage := .idle
  deriving DecidableEq

namespace Session

/-- What feeding input did. -/
structure Step where
  session : Session
  destination : Buffer
  /-- How many bytes of the input were used. -/
  consumed : Nat
  /-- How many of those were image bytes. -/
  stored : Nat
  /-- The reply that is due before any more input. -/
  reply : Option Reply

/-- The largest image that fits both the session and the destination. -/
def limit (session : Session) (destination : Buffer) : UInt32 :=
  min session.capacity (UInt32.ofNat (min destination.size 0xFFFFFFFF))

/-- Image bytes: store what the image still needs, and check it when it is whole. -/
def takeImage (session : Session) (size expected : UInt32) (received : Nat) (check : Crc32)
    (used : Nat) (input : Bytes) (destination : Buffer) : Step :=
  let chunk := input.take (size.toNat - received)
  let destination := Buffer.store destination received chunk
  let check := check.update chunk
  let received := received + chunk.length
  if received < size.toNat then
    { session := { session with stage := .streaming size expected received check },
      destination, consumed := used + chunk.length, stored := chunk.length, reply := none }
  else
    { session := { session with stage := .complete size expected check.value },
      destination, consumed := used + chunk.length, stored := chunk.length,
      reply := some (.verify check.value) }

/-- The checksum word, and image bytes behind it. -/
def takeChecksum (session : Session) (size : UInt32) (word : WordBuffer)
    (input : Bytes) (destination : Buffer) : Step :=
  let used := word.uses input
  let word := word.fill input
  match word.value? with
  | none =>
      { session := { session with stage := .awaitChecksum size word },
        destination, consumed := used, stored := 0, reply := none }
  | some expected =>
      takeImage session size expected 0 Crc32.initial used (input.drop used) destination

/-- The size word, answered with acceptance or refusal. -/
def takeSize (session : Session) (word : WordBuffer) (input : Bytes)
    (destination : Buffer) : Step :=
  let used := word.uses input
  let word := word.fill input
  match word.value? with
  | none =>
      { session := { session with stage := .awaitSize word },
        destination, consumed := used, stored := 0, reply := none }
  | some size =>
      let capacity := session.limit destination
      if capacity < size then
        { session := { session with stage := .rejected size capacity },
          destination, consumed := used, stored := 0, reply := some (.sizeReject capacity) }
      else
        { session := { session with stage := .awaitChecksum size .empty },
          destination, consumed := used, stored := 0, reply := some .sizeAck }

/-- Feed bytes that arrived.  A step ends at a reply, at the end of the input or
at the end of the session; input behind that is left alone. -/
def consume (session : Session) (input : Bytes) (destination : Buffer) : Step :=
  match session.stage with
  | .idle =>
      if input.isEmpty then
        { session, destination, consumed := 0, stored := 0, reply := none }
      else
        takeSize session .empty input destination
  | .awaitSize word => takeSize session word input destination
  | .awaitChecksum size word => takeChecksum session size word input destination
  | .streaming size expected received check =>
      takeImage session size expected received check 0 input destination
  | .complete _ _ _ | .rejected _ _ =>
      { session, destination, consumed := 0, stored := 0, reply := none }

/-- Feed bytes into a destination that may have become shorter than the accepted
size; `none` where an image byte would have no place. -/
def consume? (session : Session) (input : Bytes) (destination : Buffer) : Option Step :=
  let step := session.consume input destination
  if 0 < step.stored ∧ destination.size < step.session.stage.received then none else some step

end Session

end Overlay
