import Overlay.Toml.Value

/-!
# Whole texts

A text is a row of lines.  A header names the table that the keys after it
belong to; keys before the first header belong to the root.
-/

set_option autoImplicit false

namespace Overlay.Toml

/-- A text that is being read: what it has described so far, and the table that keys go to. -/
structure Document where
  root : Table := []
  current : List String := []

namespace Document

open Reader

/-- Set a key in the current table. -/
def set? (document : Document) (path : List String) (key : String) (item : Item) :
    Option Document :=
  (Table.within? false (fun origin table => table.set? origin path key item) .header
    document.root document.current).map fun root => { document with root }

/-- Go on in the table that a header names. -/
def open? (document : Document) (path : List String) (key : String) : Option Document :=
  (document.root.openTable? path key).map fun root => ⟨root, path ++ [key]⟩

/-- Go on in a new table among those that a header in double brackets names. -/
def append? (document : Document) (path : List String) (key : String) : Option Document :=
  (document.root.appendTable? path key).map fun root => ⟨root, path ++ [key]⟩

/-- A line that is a header. -/
def header (document : Document) : Reader Document := do
  match ← attempt (literal "[[") with
  | some () =>
      let (path, key) ← key
      literal "]]"
      trailing
      liftM (document.append? path key)
  | none =>
      char '['
      let (path, key) ← key
      char ']'
      trailing
      liftM (document.open? path key)

/-- A line that sets a key. -/
def setting (document : Document) : Reader Document := do
  let ((path, key), item) ← entry (value depthLimit)
  trailing
  liftM (document.set? path key item)

/-- The lines of a text, by steps. -/
def lines : Nat → Document → Reader Document
  | 0, _ => failure
  | steps + 1, document => do
      blanks
      match ← peek with
      | none => return document
      | some '#' => comment; lineEndOrEnd; lines steps document
      | some '\n' | some '\r' => lineEnd; lines steps document
      | some '[' => lines steps (← header document)
      | some _ => lines steps (← setting document)

/-- The table that a text describes.  A byte order mark in front is skipped. -/
def parse? (text : String) : Option Table :=
  let input :=
    match text.toList with
    | '\ufeff' :: rest => rest
    | input => input
  (bounded (fun steps => lines steps {}) input).map fun (document, _) => document.root

end Document

end Overlay.Toml
