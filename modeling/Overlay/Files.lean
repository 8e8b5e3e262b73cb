import Overlay.Fault
import Overlay.Path

/-!
# Trees of files

A tree holds files and directories by their place, which is the list of names
that leads to them from the root.  A path is followed one component at a time,
each from a directory, beginning at the root or in the working directory.
-/

set_option autoImplicit false

namespace Overlay

namespace IoError

def notFound : IoError := ⟨.notFound, "No such file or directory (os error 2)"⟩

def notADirectory : IoError := ⟨.notADirectory, "Not a directory (os error 20)"⟩

def isADirectory : IoError := ⟨.isADirectory, "Is a directory (os error 21)"⟩

def nameTooLong : IoError := ⟨.invalidFilename, "File name too long (os error 36)"⟩

def nulInPath : IoError := ⟨.invalidInput, "file name contained an unexpected NUL byte"⟩

def notText : IoError := ⟨.invalidData, "stream did not contain valid UTF-8"⟩

end IoError

/-- What a tree holds at a place. -/
inductive Entry where
  | file (bytes : Bytes)
  | directory
  /-- A file that is always empty and forgets what is written to it. -/
  | sink
  deriving DecidableEq

/-- The names that lead to a place from the root. -/
abbrev Place := List Bytes

/-- A tree of files with the directory that relative paths begin in. -/
structure Files where
  entries : List (Place × Entry) := []
  working : Place := []

namespace Files

/-- What is at a place.  The root is always a directory. -/
def at? (files : Files) (place : Place) : Option Entry :=
  if place.isEmpty then some .directory else files.entries.lookup place

/-- Put an entry at a place. -/
def put (files : Files) (place : Place) (entry : Entry) : Files :=
  { files with entries := (place, entry) :: files.entries.filter fun other => other.1 != place }

/-- Put a directory at a place and at every place above it that holds nothing. -/
def putDirectory (files : Files) (place : Place) : Files :=
  (List.range place.length).foldl
    (fun files depth =>
      let above := place.take (depth + 1)
      if (files.at? above).isSome then files else files.put above .directory)
    files

/-- Put a file at a place, with the directories above it. -/
def putFile (files : Files) (place : Place) (bytes : Bytes) : Files :=
  (files.putDirectory place.dropLast).put place (.file bytes)

/-! ## Following a path -/

/-- The longest name of one file, in bytes. -/
def longestName : Nat := 255

/-- The longest path, in bytes. -/
def longestPath : Nat := 4095

/-- Whether a place holds a directory. -/
def checkDirectory (files : Files) (place : Place) : Except IoError Unit :=
  match files.at? place with
  | some .directory => .ok ()
  | some _ => .error .notADirectory
  | none => .error .notFound

/-- Follow one component from a place, which has to be a directory. -/
def follow (files : Files) (place : Place) (component : Bytes) : Except IoError Place := do
  files.checkDirectory place
  if component = Path.here then return place
  else if component = Path.parent then return place.dropLast
  else if longestName < component.length then throw .nameTooLong
  else return place ++ [component]

/-- Follow components one after another. -/
def walk (files : Files) (place : Place) (components : List Bytes) : Except IoError Place :=
  components.foldlM files.follow place

/-- Where a path begins. -/
def beginning (files : Files) (path : Path) : Place :=
  if path.isAbsolute then [] else files.working

/-- What no path may be, whatever the tree holds. -/
def checkPath (path : Path) : Except IoError Unit :=
  if path.bytes.contains 0 then .error .nulInPath
  else if path.bytes.isEmpty then .error .notFound
  else if longestPath < path.bytes.length then .error .nameTooLong
  else .ok ()

/-- The components of a path with single dots kept; a slash at the end asks for a
directory, as a single dot does. -/
def steps (path : Path) : List Bytes :=
  path.pieces.filter (fun piece => piece != []) ++ (if path.endsInSlash then [Path.here] else [])

/-- The place that a path leads to, with what is there. -/
def find (files : Files) (path : Path) : Except IoError (Place × Entry) := do
  checkPath path
  let place ← files.walk (files.beginning path) (steps path)
  match files.at? place with
  | some entry => return (place, entry)
  | none => throw .notFound

/-! ## Reading, listing and writing -/

/-- The contents of a file. -/
def read (files : Files) (path : Path) : Except IoError Bytes := do
  match ← files.find path with
  | (_, .file bytes) => return bytes
  | (_, .sink) => return []
  | (_, .directory) => throw .isADirectory

/-- The name of an entry that lies directly in a directory. -/
def nameIn? (directory place : Place) : Option Bytes :=
  if place.dropLast = directory then place.getLast? else none

/-- The names of the files directly in a directory, in order, as far as they are text. -/
def list (files : Files) (path : Path) : Except IoError (List String) := do
  match ← files.find path with
  | (directory, .directory) =>
      let names := files.entries.filterMap fun (place, entry) =>
        match entry with
        | .file _ => (nameIn? directory place).bind text?
        | _ => none
      return names.mergeSort fun a b => decide (a ≤ b)
  | _ => throw .notADirectory

/-- The files that an earlier tree did not have, or held something else in. -/
def changesSince (files earlier : Files) : List (Place × Bytes) :=
  files.entries.filterMap fun (place, entry) =>
    match entry with
    | .file bytes => if earlier.at? place = some entry then none else some (place, bytes)
    | _ => none

/-- Split a path to be written into the way to its directory and its last component. -/
def target (path : Path) : List Bytes × Option Bytes :=
  let steps := path.pieces.filter fun piece => piece != []
  match steps.getLast? with
  | none => (steps, none)
  | some last =>
      if last = Path.here || last = Path.parent then (steps, none) else (steps.dropLast, some last)

/-- Write a whole file, which need not exist before; its directory has to. -/
def write (files : Files) (path : Path) (bytes : Bytes) : Except IoError Files := do
  checkPath path
  let (way, last) := target path
  let directory ← files.walk (files.beginning path) way
  files.checkDirectory directory
  match last with
  | none => throw .isADirectory
  | some name =>
      if path.endsInSlash then throw .isADirectory
      let place ← files.follow directory name
      match files.at? place with
      | some .directory => throw .isADirectory
      | some .sink => return files
      | _ => return files.put place (.file bytes)

end Files

end Overlay
