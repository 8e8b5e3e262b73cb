import Overlay.Image.Header

/-!
# Overlay images

An image is a sequence of bytes with what the loader needs to know about it.
Where a header is present it says so; without one the image starts at its first
byte and has nothing to clear.
-/

set_option autoImplicit false

namespace Overlay

/-- An image: its bytes, where it starts and what is cleared for it. -/
structure Image where
  bytes : Bytes
  entry : UInt32 := 0
  bss : Span := .empty
  header : Option ImageHeader := none
  deriving DecidableEq

namespace Image

/-- An image without a header. -/
def raw (bytes : Bytes) : Image := { bytes }

/-- An image without a header, with the entry and the cleared range given. -/
def withLayout (bytes : Bytes) (entry : UInt32) (bss : Span) : Image := { bytes, entry, bss }

/-- Read an image: by its header if the magic is there, as a raw one otherwise. -/
def parse (bytes : Bytes) : Except Rejection Image := do
  match ← ImageHeader.decode bytes with
  | some header => return { bytes, entry := header.entry, bss := header.bss, header := some header }
  | none => return raw bytes

/-- An offset into the bytes behind the header, counted from the header. -/
def shifted (offset : UInt32) : Except Rejection UInt32 :=
  match Word.add? offset 20 with
  | some value => .ok value
  | none => .error (.entryOutsideCode offset)

/-- Put a header in front of raw bytes; `entry` and `bss` count from the first
raw byte. -/
def pack (raw : Bytes) (entry : UInt32) (bss : Span) : Except Rejection Bytes := do
  if bss.limit < bss.start then
    throw (.invalidBss bss.start bss.limit)
  let entry ← shifted entry
  let start ← shifted bss.start
  let limit ← shifted bss.limit
  return ImageHeader.encode { entry, bss := ⟨start, limit⟩ } ++ raw

end Image

end Overlay
