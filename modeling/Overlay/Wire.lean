import Overlay.Word

/-!
# The upload protocol on the wire

The receiver speaks in single marker bytes, two of which are followed by a
word.  The sender speaks in words and raw image bytes.

    receiver   ready
    sender     size word
    receiver   size accepted             or   size refused, capacity word
    sender     checksum word
    sender     image bytes
    receiver   image checked, checksum word

No marker byte ever occurs in UTF-8 text, so the console output of a running
overlay cannot be taken for a marker.
-/

set_option autoImplicit false

namespace Overlay

/-! ## Markers -/

/-- The bytes that open a message of the receiver. -/
inductive Marker where
  | ready
  | sizeAck
  | verifyAck
  | sizeReject
  deriving DecidableEq, Repr

namespace Marker

/-- The byte of a marker. -/
def byte : Marker → UInt8
  | .ready => 0xC0
  | .sizeAck => 0xC1
  | .verifyAck => 0xF5
  | .sizeReject => 0xF6

/-- The marker that a byte stands for. -/
def ofByte? (value : UInt8) : Option Marker :=
  if value = 0xC0 then some .ready
  else if value = 0xC1 then some .sizeAck
  else if value = 0xF5 then some .verifyAck
  else if value = 0xF6 then some .sizeReject
  else none

@[simp] theorem ofByte?_byte (marker : Marker) : ofByte? marker.byte = some marker := by
  cases marker <;> rfl

end Marker

/-! ## Phases -/

/-- The part of a transfer that an event belongs to. -/
inductive Phase where
  | ready
  | size
  | checksum
  | streaming
  | verify
  deriving DecidableEq, Repr

/-- The name of a phase in messages. -/
def Phase.text : Phase → String
  | .ready => "ready"
  | .size => "size exchange"
  | .checksum => "checksum exchange"
  | .streaming => "streaming"
  | .verify => "verification"

/-! ## Replies -/

/-- A message of the receiver. -/
inductive Reply where
  | ready
  | sizeAck
  | sizeReject (capacity : UInt32)
  | verify (checksum : UInt32)
  deriving DecidableEq, Repr

namespace Reply

/-- The phase that a reply closes. -/
def phase : Reply → Phase
  | .ready => .ready
  | .sizeAck => .size
  | .sizeReject _ => .size
  | .verify _ => .verify

/-- The bytes of a reply. -/
def encode : Reply → Bytes
  | .ready => [Marker.ready.byte]
  | .sizeAck => [Marker.sizeAck.byte]
  | .sizeReject capacity => Marker.sizeReject.byte :: Word.encode capacity
  | .verify checksum => Marker.verifyAck.byte :: Word.encode checksum

end Reply

end Overlay
