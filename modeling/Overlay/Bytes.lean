/-!
# Byte sequences, buffers and the spelling of numbers

Data that travels or rests as a whole is a list of bytes.  Storage that is
overwritten in place is a buffer.  Storing never changes the size of a buffer,
and a buffer reads back what was stored inside it.
-/

set_option autoImplicit false

namespace Overlay

/-- A sequence of bytes, first byte first. -/
abbrev Bytes := List UInt8

/-- Storage of a fixed size. -/
abbrev Buffer := Array UInt8

namespace Buffer

/-- Store `data` from index `start` on; what would fall past the end is dropped. -/
def store (buffer : Buffer) (start : Nat) : Bytes → Buffer
  | [] => buffer
  | byte :: rest => store (buffer.setIfInBounds start byte) (start + 1) rest

/-- The `count` bytes from index `start` on, fewer where the buffer ends. -/
def slice (buffer : Buffer) (start count : Nat) : Bytes :=
  (buffer.extract start (start + count)).toList

@[simp] theorem store_nil (buffer : Buffer) (start : Nat) :
    store buffer start [] = buffer := rfl

@[simp] theorem size_store (buffer : Buffer) (start : Nat) (data : Bytes) :
    (store buffer start data).size = buffer.size := by
  induction data generalizing buffer start with
  | nil => rfl
  | cons byte rest ih => simp [store, ih]

end Buffer

/-! ## Hexadecimal text -/

/-- The hexadecimal digits of a number, lower case, no leading zeros. -/
def hexDigits (value : Nat) : String :=
  String.ofList (Nat.toDigits 16 value)

/-- A number as `0x` and its hexadecimal digits. -/
def hex (value : Nat) : String :=
  "0x" ++ hexDigits value

/-- A number as `0x` and at least eight hexadecimal digits. -/
def hexWord (value : Nat) : String :=
  let digits := Nat.toDigits 16 value
  "0x" ++ String.ofList (List.replicate (8 - digits.length) '0' ++ digits)

end Overlay
