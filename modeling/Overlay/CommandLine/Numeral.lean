/-!
# Numerals

Whole numbers as they are written on a command line.  A numeral is read from left
to right and refused at the first character that is no digit or goes beyond the
range.
-/

set_option autoImplicit false

namespace Overlay

/-- Why a text is no numeral. -/
inductive NumeralError where
  | empty
  | invalidDigit
  | tooLarge
  | tooSmall
  deriving DecidableEq, Repr

/-- The wording of a numeral error. -/
def NumeralError.message : NumeralError → String
  | .empty => "cannot parse integer from empty string"
  | .invalidDigit => "invalid digit found in string"
  | .tooLarge => "number too large to fit in target type"
  | .tooSmall => "number too small to fit in target type"

namespace Numeral

/-- The value of a digit below a base, which is at most sixteen. -/
def digit? (base : Nat) (c : Char) : Option Nat :=
  let value :=
    if '0' ≤ c ∧ c ≤ '9' then c.toNat - '0'.toNat
    else if 'a' ≤ c ∧ c ≤ 'f' then c.toNat - 'a'.toNat + 10
    else if 'A' ≤ c ∧ c ≤ 'F' then c.toNat - 'A'.toNat + 10
    else base
  if value < base then some value else none

/-- The number that digits spell after a value already read, up to a limit. -/
def magnitude (base limit : Nat) (excess : NumeralError) :
    Nat → List Char → Except NumeralError Nat
  | value, [] => .ok value
  | value, c :: rest =>
      match digit? base c with
      | none => .error .invalidDigit
      | some digit =>
          let value := value * base + digit
          if limit < value then .error excess else magnitude base limit excess value rest

/-- A number from zero to a limit, with or without a plus sign. -/
def unsigned (base limit : Nat) (text : List Char) : Except NumeralError Nat :=
  match text with
  | [] => .error .empty
  | ['+'] => .error .invalidDigit
  | '+' :: rest => magnitude base limit .tooLarge 0 rest
  | text => magnitude base limit .tooLarge 0 text

/-- A number of thirty-two bits. -/
def word (base : Nat) (text : List Char) : Except NumeralError UInt32 :=
  (unsigned base 4294967295 text).map UInt32.ofNat

/-- A number of sixty-four bits with a sign. -/
def signed (text : List Char) : Except NumeralError Int :=
  let positive (text : List Char) : Except NumeralError Int :=
    (magnitude 10 9223372036854775807 .tooLarge 0 text).map fun value => (value : Int)
  match text with
  | [] => .error .empty
  | ['+'] => .error .invalidDigit
  | ['-'] => .error .invalidDigit
  | '+' :: rest => positive rest
  | '-' :: rest =>
      (magnitude 10 9223372036854775808 .tooSmall 0 rest).map fun value => -(value : Int)
  | text => positive text

/-- An address or offset: decimal, or hexadecimal after `0x`. -/
def offset (text : String) : Except String UInt32 :=
  let parsed :=
    match text.toList with
    | '0' :: 'x' :: rest => word 16 rest
    | '0' :: 'X' :: rest => word 16 rest
    | text => word 10 text
  parsed.mapError fun error => s!"invalid number '{text}': {error.message}"

/-- A count: decimal, from zero to the largest number of thirty-two bits. -/
def count (text : String) : Except String UInt32 :=
  match signed text.toList with
  | .error error => .error error.message
  | .ok value =>
      if 0 ≤ value ∧ value < 4294967296 then .ok (UInt32.ofNat value.toNat)
      else .error s!"{value} is not in 0..=4294967295"

end Numeral

end Overlay
