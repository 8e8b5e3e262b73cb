/-!
# Reading a configuration text

A reader takes characters off the front of a text, or refuses it.  This module
holds the readers of single characters, blanks, line ends and comments.
-/

set_option autoImplicit false

namespace Overlay.Toml

/-- A reader: it refuses a text or leaves the rest of it. -/
abbrev Reader := StateT (List Char) Option

namespace Reader

variable {α : Type}

/-- The next character, left in place. -/
def peek : Reader (Option Char) := fun rest => some (rest.head?, rest)

/-- The next character if it is in a class. -/
def one (accepts : Char → Bool) : Reader Char
  | c :: rest => if accepts c then some (c, rest) else none
  | [] => none

/-- A given character. -/
def char (c : Char) : Reader Unit := do
  let _ ← one (· == c)

/-- Given characters in a row. -/
def literal (text : String) : Reader Unit := fun input =>
  if text.toList.isPrefixOf input then some ((), input.drop text.length) else none

/-- The longest stretch of characters in a class. -/
def run (accepts : Char → Bool) : Reader (List Char) := fun input =>
  some (input.takeWhile accepts, input.dropWhile accepts)

/-- The longest stretch of characters in a class, which may not be empty. -/
def run1 (accepts : Char → Bool) : Reader (List Char) := do
  let first ← one accepts
  return first :: (← run accepts)

/-- A given number of characters in a class. -/
def exactly (count : Nat) (accepts : Char → Bool) : Reader (List Char) := fun input =>
  let taken := input.take count
  if taken.length = count ∧ taken.all accepts then some (taken, input.drop count) else none

/-- What a reader finds, or nothing if it refuses. -/
def attempt (reader : Reader α) : Reader (Option α) := fun input =>
  match reader input with
  | some (found, rest) => some (some found, rest)
  | none => some (none, input)

/-- Refuse unless a condition holds. -/
def require (condition : Bool) : Reader Unit := if condition then pure () else failure

/-- Let a reader that names its steps use as many as there are characters. -/
def bounded (reader : Nat → Reader α) : Reader α := fun input =>
  reader (input.length + 1) input

/-! ## Classes of characters -/

/-- Whether a character is beyond the seven-bit ones. -/
def isWide (c : Char) : Bool := 0x80 ≤ c.toNat

/-- Spaces and tabs. -/
def isBlank (c : Char) : Bool := c == ' ' || c == '\t'

/-- What a comment may hold. -/
def isComment (c : Char) : Bool :=
  c == '\t' || (0x20 ≤ c.toNat && c.toNat ≤ 0x7E) || isWide c

/-- Decimal digits. -/
def isDecimal (c : Char) : Bool := '0' ≤ c && c ≤ '9'

/-- The value of a digit, in any base up to sixteen. -/
def digitValue (c : Char) : Nat :=
  if isDecimal c then c.toNat - '0'.toNat
  else if 'a' ≤ c ∧ c ≤ 'f' then c.toNat - 'a'.toNat + 10
  else c.toNat - 'A'.toNat + 10

/-- Digits of base sixteen. -/
def isHexadecimal (c : Char) : Bool :=
  isDecimal c || ('a' ≤ c && c ≤ 'f') || ('A' ≤ c && c ≤ 'F')

/-- The number that digits spell in a base. -/
def number (base : Nat) (digits : List Char) : Nat :=
  digits.foldl (fun value c => value * base + digitValue c) 0

/-! ## Blanks, line ends and comments -/

/-- Spaces and tabs, if there are any. -/
def blanks : Reader Unit := do
  let _ ← run isBlank

/-- One line end: a line feed, with or without a carriage return before it. -/
def lineEnd : Reader Unit
  | '\n' :: rest => some ((), rest)
  | '\r' :: '\n' :: rest => some ((), rest)
  | _ => none

/-- A comment up to the end of its line. -/
def comment : Reader Unit := do
  char '#'
  let _ ← run isComment

/-- The end of a line, or of the text. -/
def lineEndOrEnd : Reader Unit
  | [] => some ((), [])
  | input => lineEnd input

/-- What may stand after an expression on its line. -/
def trailing : Reader Unit := do
  blanks
  let _ ← attempt comment
  lineEndOrEnd

/-- Blanks, comments and line ends in any number, by steps. -/
def gapSteps : Nat → Reader Unit
  | 0 => pure ()
  | steps + 1 => do
      match ← peek with
      | some '#' => comment; gapSteps steps
      | some '\n' | some '\r' => lineEnd; gapSteps steps
      | some c => if isBlank c then blanks; gapSteps steps else pure ()
      | none => pure ()

/-- Blanks, comments and line ends in any number. -/
def gap : Reader Unit := bounded gapSteps

end Reader

end Overlay.Toml
