/-!
# Values as JSON

The printed form of reports and regions: one field or element a line, two spaces
deeper than what holds it.
-/

set_option autoImplicit false

namespace Overlay

/-- A value that can be printed as JSON. -/
inductive JsonValue where
  | number (value : Nat)
  | text (value : String)
  | list (values : List JsonValue)
  | record (fields : List (String × JsonValue))

namespace JsonValue

/-- A hexadecimal digit, lower case. -/
def hexDigit (value : Nat) : Char := (Nat.digitChar (value % 16))

/-- A character between quotation marks. -/
def escape (c : Char) : List Char :=
  match c with
  | '"' => ['\\', '"']
  | '\\' => ['\\', '\\']
  | '\x08' => ['\\', 'b']
  | '\t' => ['\\', 't']
  | '\n' => ['\\', 'n']
  | '\x0c' => ['\\', 'f']
  | '\r' => ['\\', 'r']
  | c =>
      if c.toNat < 0x20 then
        ['\\', 'u', '0', '0', hexDigit (c.toNat / 16), hexDigit c.toNat]
      else [c]

/-- A text with quotation marks around it. -/
def quote (text : String) : String :=
  "\"" ++ String.ofList (text.toList.flatMap escape) ++ "\""

/-- A new line that begins at a depth. -/
def newLine (depth : Nat) : String := "\n" ++ String.ofList (List.replicate (2 * depth) ' ')

mutual

/-- The text of a value whose first line begins at a depth. -/
def render (depth : Nat) : JsonValue → String
  | .number value => toString value
  | .text value => quote value
  | .list [] => "[]"
  | .list (first :: rest) =>
      "[" ++ newLine (depth + 1) ++ render (depth + 1) first ++ renderRest (depth + 1) rest
        ++ newLine depth ++ "]"
  | .record [] => "\x7b\x7d"
  | .record ((name, first) :: rest) =>
      "\x7b" ++ newLine (depth + 1) ++ quote name ++ ": " ++ render (depth + 1) first
        ++ renderFields (depth + 1) rest ++ newLine depth ++ "\x7d"

/-- The elements after the first. -/
def renderRest (depth : Nat) : List JsonValue → String
  | [] => ""
  | value :: rest => "," ++ newLine depth ++ render depth value ++ renderRest depth rest

/-- The fields after the first. -/
def renderFields (depth : Nat) : List (String × JsonValue) → String
  | [] => ""
  | (name, value) :: rest =>
      "," ++ newLine depth ++ quote name ++ ": " ++ render depth value
        ++ renderFields depth rest

end

/-- The text of a value. -/
def pretty (value : JsonValue) : String := render 0 value

end JsonValue

end Overlay
