import Overlay.Environment
import Overlay.Fault

/-!
# Image stores

A store keeps images as files under one root directory.  A name may lead to any
place below the root and to none outside it, and that is decided on the name
alone.
-/

set_option autoImplicit false

namespace Overlay

/-- Images kept as files under a root directory. -/
structure Store where
  root : Path
  deriving DecidableEq

namespace Store

/-- The store at a path, in which a leading tilde stands for the home directory. -/
def atPath (environment : Environment) (path : Path) : Store :=
  ⟨environment.expandTilde path⟩

/-- Why a name is refused. -/
inductive Refusal where
  | emptyName
  | absolutePath
  | traversal
  | escapes
  deriving DecidableEq

/-- The wording of a refusal. -/
def Refusal.text : Refusal → String
  | .emptyName => "empty name"
  | .absolutePath => "absolute paths not allowed"
  | .traversal => "path traversal not allowed"
  | .escapes => "escapes the image store"

/-- The path of an image, unless its name is refused. -/
def locate (store : Store) (name : String) : Except Refusal Path :=
  let relative := Path.ofText name
  if name.isEmpty then .error .emptyName
  else if relative.isAbsolute then .error .absolutePath
  else if relative.components.contains Path.parent then .error .traversal
  else
    let full := store.root.join relative
    if full.normal.startsWith store.root.normal then .ok full else .error .escapes

/-- The path of an image, or the fault that its name is. -/
def path (store : Store) (name : String) : Except Fault Path :=
  (store.locate name).mapError fun refusal => .invalidImageName name refusal.text

/-- The contents of a file, or the fault that reading it came to. -/
def contents (path : Path) (read : Except IoError Bytes) : Except Fault Bytes :=
  read.mapError (.unreadable path.text)

/-- The bytes of an image, given how files are read. -/
def resolve (store : Store) (read : Path → Except IoError Bytes) (name : String) :
    Except Fault Bytes := do
  let path ← store.path name
  contents path (read path)

/-- The longest image that a word can count. -/
def longestImage : Nat := 4294967295

/-- The bytes of an image file, which have to be countable in a word. -/
def image (path : Path) (read : Except IoError Bytes) : Except Fault Bytes := do
  let bytes ← contents path read
  if longestImage < bytes.length then throw (.imageTooLarge bytes.length) else return bytes

end Store

end Overlay
