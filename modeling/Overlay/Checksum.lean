import Overlay.Bytes

/-!
# Cyclic redundancy check

The check of thirty-two bits that Ethernet and zlib use: the reflected
polynomial `0xEDB88320`, a register that starts with all ones, and a complement
at the end.  A register is fed byte by byte, so that feeding a sequence in
pieces is feeding it whole.
-/

set_option autoImplicit false

namespace Overlay

/-- A running check. -/
structure Crc32 where
  register : UInt32
  deriving DecidableEq

namespace Crc32

/-- The generator polynomial, lowest power in the highest bit. -/
def polynomial : UInt32 := 0xEDB88320

/-- The register before any byte. -/
def initial : Crc32 := ⟨0xFFFFFFFF⟩

instance : Inhabited Crc32 := ⟨initial⟩

/-- Shift one bit out of the register, reducing by the polynomial. -/
def shiftBit (register : UInt32) : UInt32 :=
  if register &&& 1 = 1 then (register >>> 1) ^^^ polynomial else register >>> 1

/-- Shift eight bits out of the register. -/
def shiftByte (register : UInt32) : UInt32 :=
  shiftBit (shiftBit (shiftBit (shiftBit
    (shiftBit (shiftBit (shiftBit (shiftBit register)))))))

/-- Feed one byte. -/
def push (check : Crc32) (byte : UInt8) : Crc32 :=
  ⟨shiftByte (check.register ^^^ byte.toUInt32)⟩

/-- Feed a sequence of bytes. -/
def update (check : Crc32) (data : Bytes) : Crc32 :=
  data.foldl push check

/-- The check of everything fed so far. -/
def value (check : Crc32) : UInt32 :=
  check.register ^^^ 0xFFFFFFFF

/-- A running check as text. -/
def render (check : Crc32) : String :=
  s!"Crc32 \x7b current: {check.value.toNat} \x7d"

@[simp] theorem update_append (check : Crc32) (first second : Bytes) :
    check.update (first ++ second) = (check.update first).update second :=
  List.foldl_append

end Crc32

/-- The check of a complete sequence. -/
def checksum (data : Bytes) : UInt32 :=
  (Crc32.initial.update data).value

end Overlay
