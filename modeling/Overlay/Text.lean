import Overlay.Bytes

/-!
# Text as bytes

Text is written in UTF-8.  Bytes that are to be shown need not be text: where the bytes of a
character break off, one replacement character is shown for what has come of it, and the byte that
does not fit is read anew.
-/

set_option autoImplicit false

namespace Overlay

/-- The bytes of a text. -/
def utf8 (text : String) : Bytes := text.toUTF8.data.toList

/-- The text that bytes are, if they are one. -/
def text? (bytes : Bytes) : Option String := String.fromUTF8? ⟨bytes.toArray⟩

namespace Utf8

/-- A character of which some bytes have come: the number that they make up, how many bytes are
missing behind the next one, and the bounds of the next one. -/
structure Begun where
  value : Nat
  behind : Nat := 0
  least : Nat := 0x80
  greatest : Nat := 0xBF
  deriving DecidableEq

/-- What is shown in place of bytes that are no character. -/
def replacement : Char := '\uFFFD'

/-- The character that a byte begins, if more than one byte belongs to it.  The bounds of the second
byte leave out numbers that have a shorter spelling, surrogates, and what lies above the last
character. -/
def begin? (byte : Nat) : Option Begun :=
  if byte < 0xC2 then none
  else if byte < 0xE0 then some { value := byte - 0xC0 }
  else if byte < 0xF0 then
    some {
      value := byte - 0xE0
      behind := 1
      least := if byte = 0xE0 then 0xA0 else 0x80
      greatest := if byte = 0xED then 0x9F else 0xBF }
  else if byte < 0xF5 then
    some {
      value := byte - 0xF0
      behind := 2
      least := if byte = 0xF0 then 0x90 else 0x80
      greatest := if byte = 0xF4 then 0x8F else 0xBF }
  else none

/-- Read the first byte of a character: what is to be shown, and what has begun. -/
def first (byte : UInt8) : List Char × Option Begun :=
  if byte.toNat < 0x80 then ([Char.ofNat byte.toNat], none)
  else
    match begin? byte.toNat with
    | some begun => ([], some begun)
    | none => ([replacement], none)

/-- Read the next byte of a character that has begun.  A byte out of bounds begins another one. -/
def Begun.next (begun : Begun) (byte : UInt8) : List Char × Option Begun :=
  if begun.least ≤ byte.toNat ∧ byte.toNat ≤ begun.greatest then
    let value := begun.value * 64 + byte.toNat % 64
    match begun.behind with
    | 0 => ([Char.ofNat value], none)
    | behind + 1 => ([], some { value, behind })
  else
    let (chars, other) := first byte
    (replacement :: chars, other)

/-- Show the characters that bytes spell, after a character that may have begun. -/
def shown : Option Begun → Bytes → List Char
  | none, [] => []
  | some _, [] => [replacement]
  | none, byte :: rest => (first byte).1 ++ shown (first byte).2 rest
  | some begun, byte :: rest => (begun.next byte).1 ++ shown (begun.next byte).2 rest

end Utf8

/-- The text that is shown for bytes. -/
def shownText (bytes : Bytes) : String := String.ofList (Utf8.shown none bytes)

end Overlay
