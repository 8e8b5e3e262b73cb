import Overlay.Toml.Number
import Overlay.Toml.Text

/-!
# Keys and values

A key is a row of names with dots between them.  A value is text, a number, a
truth value, an array or a table between braces.  Arrays and tables nest to a
limited depth.
-/

set_option autoImplicit false

namespace Overlay.Toml.Reader

/-- What a name without quotes may hold. -/
def isBare (c : Char) : Bool :=
  isDecimal c || ('a' ≤ c && c ≤ 'z') || ('A' ≤ c && c ≤ 'Z') || c == '-' || c == '_'

/-- One name of a key. -/
def name : Reader String := do
  let text ←
    match ← peek with
    | some '"' => basic
    | some '\'' => verbatim
    | _ => run1 isBare
  return String.ofList text

/-- A name with the blanks around it. -/
def spacedName : Reader String := do
  blanks
  let text ← name
  blanks
  return text

/-- How many names a key may have, and how deep values may nest. -/
def depthLimit : Nat := 79

/-- A key of at most a given number of names. -/
def names : Nat → Reader (List String)
  | 0 => failure
  | limit + 1 => do
      let first ← spacedName
      match ← peek with
      | some '.' => char '.'; return first :: (← names limit)
      | _ => return [first]

/-- A key: the names before the last one, and the last. -/
def key : Reader (List String × String) := do
  let path ← names depthLimit
  match path.getLast? with
  | some last => return (path.dropLast, last)
  | none => failure

/-! ## Arrays and tables between braces -/

/-- The values of an array up to its bracket, by steps.  A comma may follow the last. -/
def elements (value : Reader Item) : Nat → Reader (List Item)
  | 0 => failure
  | steps + 1 => do
      gap
      match ← peek with
      | some ']' => char ']'; return []
      | _ =>
          let first ← value
          gap
          match ← one fun c => c == ',' || c == ']' with
          | ',' => return first :: (← elements value steps)
          | _ => return [first]

/-- A key with its value. -/
def entry (value : Reader Item) : Reader ((List String × String) × Item) := do
  let key ← key
  char '='
  blanks
  return (key, ← value)

/-- Set a key of a table between braces, or refuse it. -/
def setEntry (table : Table) : (List String × String) × Item → Reader Table
  | ((path, key), item) =>
      match Table.set? .inline table path key item with
      | some table => return table
      | none => failure

/-- The entries of a table up to its brace, by steps. -/
def entries (value : Reader Item) : Nat → Table → Reader Table
  | 0, _ => failure
  | steps + 1, table => do
      let table ← setEntry table (← entry value)
      blanks
      match ← one fun c => c == ',' || c == '}' with
      | ',' => entries value steps table
      | _ => return table

/-- A table after its opening brace. -/
def braced (value : Reader Item) : Reader Table := do
  blanks
  match ← peek with
  | some '}' => char '}'; return []
  | _ => bounded fun steps => entries value steps []

/-! ## Values -/

/-- A truth value. -/
def boolean : Reader Bool :=
  (do literal "true"; return true) <|> (do literal "false"; return false)

/-- A value in which arrays and tables nest to at most a given depth. -/
def value : Nat → Reader Item
  | 0 => plain
  | depth + 1 => do
      match ← peek with
      | some '[' => char '['; return .array (← bounded (elements (value depth)))
      | some '\x7b' => char '\x7b'; return .table .inline (← braced (value depth))
      | _ => plain
where
  /-- A value that holds no other. -/
  plain : Reader Item := do
    match ← peek with
    | some '"' | some '\'' => return .text (String.ofList (← quoted))
    | some 't' | some 'f' => return .boolean (← boolean)
    | _ => numeric

end Overlay.Toml.Reader
