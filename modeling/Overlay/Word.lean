import Overlay.Bytes

/-!
# Little-endian words

A word is thirty-two bits, sent as four bytes with the low byte first.  A word
buffer collects those four bytes from input that may be cut anywhere.
-/

set_option autoImplicit false

namespace Overlay

namespace Word

/-- The four bytes of a word, low byte first. -/
def encode (value : UInt32) : Bytes :=
  [UInt8.ofNat (value.toNat % 256),
   UInt8.ofNat (value.toNat / 256 % 256),
   UInt8.ofNat (value.toNat / 65536 % 256),
   UInt8.ofNat (value.toNat / 16777216)]

/-- The word with the given bytes, low byte first. -/
def join (first second third fourth : UInt8) : UInt32 :=
  UInt32.ofNat
    (first.toNat + 256 * second.toNat + 65536 * third.toNat + 16777216 * fourth.toNat)

/-- Read a word from exactly four bytes. -/
def ofBytes? : Bytes → Option UInt32
  | [first, second, third, fourth] => some (join first second third fourth)
  | _ => none

/-- Read a word from the front of a sequence; the rest is left over. -/
def take? : Bytes → Option (UInt32 × Bytes)
  | first :: second :: third :: fourth :: rest => some (join first second third fourth, rest)
  | _ => none

/-- The sum of two words, unless it needs more than thirty-two bits. -/
def add? (left right : UInt32) : Option UInt32 :=
  if left.toNat + right.toNat < 4294967296 then some (left + right) else none

@[simp] theorem length_encode (value : UInt32) : (encode value).length = 4 := rfl

@[simp] theorem ofBytes?_encode (value : UInt32) : ofBytes? (encode value) = some value := by
  have bound : value.toNat < 4294967296 := value.toNat_lt
  simp only [encode, ofBytes?, join, Option.some.injEq]
  apply UInt32.toNat_inj.mp
  simp only [UInt8.toNat_ofNat', UInt32.toNat_ofNat']
  omega

end Word

/-! ## Collecting a word -/

/-- The bytes of a word that have arrived so far. -/
structure WordBuffer where
  bytes : Bytes
  bounded : bytes.length ≤ 4
  deriving DecidableEq

namespace WordBuffer

/-- No byte has arrived. -/
def empty : WordBuffer := ⟨[], by decide⟩

instance : Inhabited WordBuffer := ⟨empty⟩

/-- How many bytes are still missing. -/
def room (word : WordBuffer) : Nat := 4 - word.bytes.length

/-- How many bytes of `input` the word takes. -/
def uses (word : WordBuffer) (input : Bytes) : Nat := min word.room input.length

/-- Take bytes from the front of `input` until the word is full. -/
def fill (word : WordBuffer) (input : Bytes) : WordBuffer where
  bytes := word.bytes ++ input.take word.room
  bounded := by
    have := word.bounded
    simp only [room, List.length_append, List.length_take]
    omega

/-- The word, once its four bytes are there. -/
def value? (word : WordBuffer) : Option UInt32 := Word.ofBytes? word.bytes

end WordBuffer

end Overlay
