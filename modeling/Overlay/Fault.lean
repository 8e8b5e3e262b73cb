import Overlay.Memory.Layout
import Overlay.Wire

/-!
# What can go wrong

A fault is the cause of a failure anywhere between the host and the device.
Its wording is one function, and so is the question whether running the whole
transfer again may help.
-/

set_option autoImplicit false

namespace Overlay

/-- The kind of an input or output failure. -/
inductive IoKind where
  | notFound
  | permissionDenied
  | connectionRefused
  | connectionReset
  | connectionAborted
  | brokenPipe
  | alreadyExists
  | notADirectory
  | isADirectory
  | invalidInput
  | invalidData
  | invalidFilename
  | timedOut
  | writeZero
  | unexpectedEof
  | other
  deriving DecidableEq, Repr

namespace IoKind

/-- The name of a kind. -/
def name : IoKind → String
  | .notFound => "NotFound"
  | .permissionDenied => "PermissionDenied"
  | .connectionRefused => "ConnectionRefused"
  | .connectionReset => "ConnectionReset"
  | .connectionAborted => "ConnectionAborted"
  | .brokenPipe => "BrokenPipe"
  | .alreadyExists => "AlreadyExists"
  | .notADirectory => "NotADirectory"
  | .isADirectory => "IsADirectory"
  | .invalidInput => "InvalidInput"
  | .invalidData => "InvalidData"
  | .invalidFilename => "InvalidFilename"
  | .timedOut => "TimedOut"
  | .writeZero => "WriteZero"
  | .unexpectedEof => "UnexpectedEof"
  | .other => "Other"

/-- Every kind. -/
def all : List IoKind :=
  [.notFound, .permissionDenied, .connectionRefused, .connectionReset, .connectionAborted,
    .brokenPipe, .alreadyExists, .notADirectory, .isADirectory, .invalidInput, .invalidData,
    .invalidFilename, .timedOut, .writeZero, .unexpectedEof, .other]

/-- The kind with a given name. -/
def ofName? (text : String) : Option IoKind :=
  all.find? fun kind => kind.name == text

end IoKind

/-- A failure of input or output, with the wording of the system. -/
structure IoError where
  kind : IoKind
  text : String
  deriving DecidableEq, Repr

namespace IoError

/-- A write to a link whose other end is gone. -/
def brokenPipe : IoError := ⟨.brokenPipe, "broken pipe"⟩

/-- A write of which nothing was accepted. -/
def writeZero : IoError := ⟨.writeZero, "write zero"⟩

end IoError

/-- The cause of a failure. -/
inductive Fault where
  | timeout (phase : Phase)
  | noPeer (waited : Nat)
  | disconnected (phase : Phase)
  | sizeRejected (declared capacity : UInt32)
  | checksumMismatch (expected actual : UInt32)
  | layout (error : LayoutError)
  | imageTooLarge (length : Nat)
  | invalidImageName (name reason : String)
  | outOfBounds (address : UInt32) (length : Nat)
  | config (text : String)
  | unreadable (path : String) (error : IoError)
  | executor (text : String)
  | io (error : IoError)
  deriving DecidableEq

namespace Fault

/-- The wording of a fault. -/
def message : Fault → String
  | .timeout phase => s!"Timed out waiting for the peer during {phase.text}"
  | .noPeer waited => s!"No receiver signalled READY within {waited} ms"
  | .disconnected phase => s!"Transport closed during {phase.text}"
  | .sizeRejected declared capacity =>
      s!"Receiver rejected image of {declared.toNat} bytes (capacity {capacity.toNat} bytes)"
  | .checksumMismatch expected actual =>
      s!"Checksum mismatch: expected {hexWord expected.toNat}, got {hexWord actual.toNat}"
  | .layout error => s!"Invalid memory layout: {error.message}"
  | .imageTooLarge length =>
      s!"Image of {length} bytes cannot be described by a 32-bit length"
  | .invalidImageName name reason => s!"Invalid image name '{name}': {reason}"
  | .outOfBounds address length =>
      s!"Memory access {hexWord address.toNat}+{length} outside device memory"
  | .config text => s!"Configuration error: {text}"
  | .unreadable path error => s!"Failed to read {path}: {error.text}"
  | .executor text => s!"Executor failed: {text}"
  | .io error => error.text

/-- Whether running the whole transfer again may succeed. -/
def isRecoverable : Fault → Bool
  | .timeout _ => true
  | .disconnected _ => true
  | .checksumMismatch _ _ => true
  | _ => false

/-- Whether the other end of the link has gone away. -/
def isDisconnect : Fault → Bool
  | .disconnected _ => true
  | .io error =>
      match error.kind with
      | .brokenPipe => true
      | .connectionReset => true
      | .unexpectedEof => true
      | _ => false
  | _ => false

end Fault

end Overlay
