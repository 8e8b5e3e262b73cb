import Overlay.Text

/-!
# Paths

A path is bytes whose components are separated by slashes; they need not be text.  Joining keeps
the bytes as they were written, so a message shows a path the way it was given.  The normal form
of a path drops empty components and single dots and lets a double dot take back the component
before it, without a look at any file.
-/

set_option autoImplicit false

namespace Overlay

/-- A path as it was written. -/
structure Path where
  bytes : Bytes
  deriving DecidableEq, Repr

namespace Path

/-- The path that a text is. -/
def ofText (text : String) : Path := ⟨utf8 text⟩

/-- A path as it is shown. -/
def text (path : Path) : String := shownText path.bytes

/-- What separates the components of a path. -/
def slash : UInt8 := 0x2F

/-- The component that leads nowhere. -/
def here : Bytes := [0x2E]

/-- The component that leads back. -/
def parent : Bytes := [0x2E, 0x2E]

/-- The stretches of a path between its slashes, empty ones included. -/
def pieces (path : Path) : List Bytes := path.bytes.splitOn slash

/-- Whether a stretch leads anywhere: neither empty nor a single dot. -/
def isStep (piece : Bytes) : Bool := piece != [] && piece != here

/-- The components of a path: the stretches that lead somewhere. -/
def components (path : Path) : List Bytes := path.pieces.filter isStep

/-- Whether a path starts at the root. -/
def isAbsolute (path : Path) : Bool := path.bytes.head? == some slash

/-- Whether a path ends in a slash. -/
def endsInSlash (path : Path) : Bool := path.bytes.getLast? == some slash

/-- Go on from a path; an absolute path starts anew. -/
def join (base next : Path) : Path :=
  if next.isAbsolute then next
  else if base.bytes.isEmpty || base.endsInSlash then ⟨base.bytes ++ next.bytes⟩
  else ⟨base.bytes ++ slash :: next.bytes⟩

/-! ## Normal forms -/

/-- A path with nothing left to resolve. -/
structure Normal where
  absolute : Bool
  names : List Bytes
  deriving DecidableEq, Repr

/-- One component more: a double dot takes back the one before, if there is one. -/
def Normal.step (names : List Bytes) (component : Bytes) : List Bytes :=
  if component = parent then names.dropLast else names ++ [component]

/-- The normal form of a path. -/
def normal (path : Path) : Normal where
  absolute := path.isAbsolute
  names := path.components.foldl Normal.step []

/-- Whether one normal form lies at or below another; all do below the relative one without
names. -/
def Normal.startsWith (path base : Normal) : Bool :=
  (path.absolute == base.absolute || !base.absolute && base.names.isEmpty) &&
    base.names.isPrefixOf path.names

end Path

end Overlay
