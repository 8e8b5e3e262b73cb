import Overlay.Board
import Overlay.Image

/-!
# Loading and launching overlays

The loader puts an image into the code window, clears the range it asks for,
hands over control and takes it back.  Every condition is checked before the
first byte is written.  Once control has been handed over, the shared devices
are brought back to rest exactly once, however the overlay ended.
-/

set_option autoImplicit false

namespace Overlay

/-! ## How a load ends -/

/-- How a load ended. -/
inductive Exit where
  /-- The overlay ran and returned. -/
  | returned (status : Int32)
  /-- The image is larger than the code region. -/
  | oversized (length : Nat) (capacity : UInt32)
  /-- The image was not run. -/
  | rejected (reason : Rejection)
  deriving DecidableEq

namespace Exit

/-- The wording of an exit. -/
def text : Exit → String
  | .returned status => s!"returned with status {status.toInt}"
  | .oversized length capacity =>
      s!"image of {length} bytes exceeds code region of {capacity.toNat} bytes"
  | .rejected reason => s!"rejected: {reason.message}"

/-- Whether the overlay ran and returned. -/
def isReturned : Exit → Bool
  | .returned _ => true
  | _ => false

end Exit

/-! ## The loader -/

/-- A loader: the board it runs overlays on, and whether images need a header. -/
structure Loader (σ : Type) where
  board : Board σ
  requireHeader : Bool := false

namespace Loader

variable {σ : Type}

/-- The entry lies in the code region. -/
def checkEntryAddress (code : Region) (image : Image) : Except Exit Unit :=
  if (Word.add? code.base image.entry).any fun entry => code.contains entry then .ok ()
  else .error (.rejected (.entryOutsideCode (code.base + image.entry)))

/-- The entry lies on the bytes of the image, behind the header if there is one. -/
def checkEntryOffset (image : Image) : Except Exit Unit :=
  let first := if image.header.isSome then ImageHeader.length else 0
  if image.entry.toNat < first ∨ image.bytes.length ≤ image.entry.toNat then
    .error (.rejected (.entryOutsideImage image.entry image.bytes.length))
  else .ok ()

/-- The range to clear lies in the code region; its addresses.  Their number is a word, so the
region always has an answer. -/
def checkBss (code : Region) (image : Image) : Except Exit Span :=
  match Word.add? code.base image.bss.start, Word.add? code.base image.bss.limit with
  | some start, some limit =>
      if start ≤ limit ∧ code.containsRange? start (limit - start).toUInt64 = some true then
        .ok ⟨start, limit⟩
      else .error outside
  | _, _ => .error outside
where
  outside : Exit :=
    .rejected (.bssOutsideCode (code.base + image.bss.start) (code.base + image.bss.limit))

/-- All conditions for running an image; the addresses of the range to clear. -/
def check (loader : Loader σ) (window : Window) (image : Image) : Except Exit Span := do
  if window.code.size.toNat < image.bytes.length then
    throw (.oversized image.bytes.length window.code.size)
  if loader.requireHeader ∧ image.header.isNone then
    throw (.rejected .badMagic)
  checkEntryAddress window.code image
  checkEntryOffset image
  checkBss window.code image

/-- The heap that an overlay is told about. -/
def heapSpan (heap : Region) : Span :=
  ⟨heap.base, UInt32.ofNat (min heap.limit 0xFFFFFFFF)⟩

/-- What an image is started with. -/
def context (window : Window) (image : Image) (bss : Span) : Context where
  entry := window.code.base + image.entry
  stackPointer := window.stackTop
  bss := bss
  heap := window.heap.map heapSpan

/-- Hand over control, and bring the shared devices back to rest afterwards. -/
def jump (loader : Loader σ) (device : Device σ) (context : Context) :
    Except Fault Exit × Device σ :=
  let (result, device) := loader.board.execute context device
  (result.map .returned, { device with board := loader.board.neutralise device.board })

/-- Whether the magic still stands where an image with a header was put. -/
def magicKept (memory : DeviceMemory) (window : Window) (image : Image) : Except Fault Bool := do
  if image.header.isNone then
    return true
  let found ← memory.read window.code.base 4
  return found = ImageHeader.magic

/-- Clear the range and run the image that stands in the code region. -/
def launch (loader : Loader σ) (window : Window) (device : Device σ) (image : Image)
    (bss : Span) : Except Fault Exit × Device σ :=
  match device.memory.fill bss.start bss.length 0 with
  | .error fault => (.error fault, device)
  | .ok memory =>
      let device := { device with memory }
      match magicKept memory window image with
      | .error fault => (.error fault, device)
      | .ok false => (.ok (.rejected .magicLost), device)
      | .ok true => loader.jump device (context window image bss)

/-- Copy an image to the code region and run it. -/
def loadAndRun (loader : Loader σ) (window : Window) (device : Device σ) (image : Image) :
    Except Fault Exit × Device σ :=
  match loader.check window image with
  | .error exit => (.ok exit, device)
  | .ok bss =>
      match device.memory.write window.code.base image.bytes with
      | .error fault => (.error fault, device)
      | .ok memory => loader.launch window { device with memory } image bss

/-- Read an image from bytes, copy it to the code region and run it. -/
def loadBytes (loader : Loader σ) (window : Window) (device : Device σ) (bytes : Bytes) :
    Except Fault Exit × Device σ :=
  match Image.parse bytes with
  | .error reason => (.ok (.rejected reason), device)
  | .ok image => loader.loadAndRun window device image

/-- Run the image whose `length` bytes already stand in the code region. -/
def runInPlace (loader : Loader σ) (window : Window) (device : Device σ) (length : Nat) :
    Except Fault Exit × Device σ :=
  if window.capacity.toNat < length then
    (.ok (.oversized length window.capacity), device)
  else
    match device.memory.read window.code.base length with
    | .error fault => (.error fault, device)
    | .ok bytes =>
        match Image.parse bytes with
        | .error reason => (.ok (.rejected reason), device)
        | .ok image =>
            match loader.check window image with
            | .error exit => (.ok exit, device)
            | .ok bss => loader.launch window device image bss

end Loader

end Overlay
