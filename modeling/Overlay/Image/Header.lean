import Overlay.Checksum
import Overlay.Word

/-!
# The header of an overlay image

    offset  bytes  field
         0      4  magic
         4      4  entry, counted from the base of the code region
         8      4  start of the cleared range, counted likewise
        12      4  end of the cleared range, counted likewise
        16      4  checksum of the bytes before it

The header is loaded with the rest of the image, so that every offset counts
from its first byte.
-/

set_option autoImplicit false

namespace Overlay

/-- A stretch of addresses or offsets, from `start` up to `limit`. -/
structure Span where
  start : UInt32
  limit : UInt32
  deriving DecidableEq

/-- The stretch that holds nothing. -/
def Span.empty : Span := ⟨0, 0⟩

/-- How many addresses a stretch holds. -/
def Span.length (span : Span) : Nat := span.limit.toNat - span.start.toNat

/-- Why an image is not run. -/
inductive Rejection where
  | badMagic
  | badHeaderChecksum (stored computed : UInt32)
  | invalidBss (start limit : UInt32)
  | entryOutsideCode (entry : UInt32)
  | entryOutsideImage (entry : UInt32) (length : Nat)
  | bssOutsideCode (start limit : UInt32)
  | magicLost
  deriving DecidableEq

/-- The wording of a rejection. -/
def Rejection.message : Rejection → String
  | .badMagic => "image does not start with the overlay magic"
  | .badHeaderChecksum stored computed =>
      s!"header checksum mismatch: stored {hexWord stored.toNat}, computed {hexWord computed.toNat}"
  | .invalidBss start limit =>
      s!"BSS range {hex start.toNat}..{hex limit.toNat} is inverted"
  | .entryOutsideCode entry => s!"entry point {hexWord entry.toNat} outside the code region"
  | .entryOutsideImage entry length =>
      s!"entry offset {hex entry.toNat} outside the {length} loaded bytes"
  | .bssOutsideCode start limit =>
      s!"BSS {hexWord start.toNat}..{hexWord limit.toNat} outside the code region"
  | .magicLost => "overlay magic missing from memory after copy"

/-- What a header says about its image. -/
structure ImageHeader where
  entry : UInt32
  /-- The range that is cleared before the image runs. -/
  bss : Span
  deriving DecidableEq

namespace ImageHeader

/-- The bytes that open every header: the letters `OVL1`. -/
def magic : Bytes := [0x4F, 0x56, 0x4C, 0x31]

/-- How many bytes a header has. -/
def length : Nat := 20

/-- The bytes of a header before its checksum. -/
def body (header : ImageHeader) : Bytes :=
  magic ++ Word.encode header.entry ++ Word.encode header.bss.start
    ++ Word.encode header.bss.limit

/-- The bytes of a header. -/
def encode (header : ImageHeader) : Bytes :=
  header.body ++ Word.encode (checksum header.body)

/-- The fields at the front of a sequence that starts with the magic, and the
stored checksum behind them. -/
def fields? (data : Bytes) : Option (ImageHeader × UInt32) := do
  guard (data.take 4 = magic)
  let (entry, data) ← Word.take? (data.drop 4)
  let (start, data) ← Word.take? data
  let (limit, data) ← Word.take? data
  let (stored, _) ← Word.take? data
  return ({ entry, bss := ⟨start, limit⟩ }, stored)

/-- Read a header from the front of a sequence.  Without the magic, or with fewer
bytes than a header has, there is none. -/
def decode (data : Bytes) : Except Rejection (Option ImageHeader) :=
  match fields? data with
  | none => .ok none
  | some (header, stored) =>
      let computed := checksum (data.take 16)
      if stored ≠ computed then .error (.badHeaderChecksum stored computed)
      else if header.bss.limit < header.bss.start then
        .error (.invalidBss header.bss.start header.bss.limit)
      else .ok (some header)

@[simp] theorem length_encode (header : ImageHeader) : header.encode.length = length := rfl

end ImageHeader

end Overlay
