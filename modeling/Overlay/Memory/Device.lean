import Overlay.Fault

/-!
# Device memory

Memory that is read, written and revised in place by absolute address.  An access
is refused as a whole when any byte of it lies outside.
-/

set_option autoImplicit false

namespace Overlay

/-- The memory of a device: its first address and its bytes. -/
structure DeviceMemory where
  base : UInt32
  bytes : Buffer
  deriving DecidableEq

/-- A change of bytes in their place: as many come out as went in. -/
structure Revision where
  change : Bytes → Bytes
  length_change : ∀ data, (change data).length = data.length

namespace DeviceMemory

/-- Memory of a given extent, all zero. -/
def zeroed (space : AddressSpace) : DeviceMemory :=
  ⟨space.base, Array.replicate space.size.toNat 0⟩

/-- How many bytes there are. -/
def size (memory : DeviceMemory) : Nat := memory.bytes.size

/-- Where the access of `count` bytes at `address` starts, if all of it is inside. -/
def offset (memory : DeviceMemory) (address : UInt32) (count : Nat) : Except Fault Nat :=
  if memory.base.toNat ≤ address.toNat
      ∧ address.toNat - memory.base.toNat + count ≤ memory.bytes.size then
    .ok (address.toNat - memory.base.toNat)
  else .error (.outOfBounds address count)

/-- Read `count` bytes. -/
def read (memory : DeviceMemory) (address : UInt32) (count : Nat) : Except Fault Bytes := do
  let start ← memory.offset address count
  return Buffer.slice memory.bytes start count

/-- Write a sequence of bytes. -/
def write (memory : DeviceMemory) (address : UInt32) (data : Bytes) :
    Except Fault DeviceMemory := do
  let start ← memory.offset address data.length
  return { memory with bytes := Buffer.store memory.bytes start data }

/-- Write one value `count` times. -/
def fill (memory : DeviceMemory) (address : UInt32) (count : Nat) (value : UInt8) :
    Except Fault DeviceMemory := do
  let start ← memory.offset address count
  return { memory with bytes := Buffer.store memory.bytes start (List.replicate count value) }

/-- Change `count` bytes in their place. -/
def revise (memory : DeviceMemory) (address : UInt32) (count : Nat) (revision : Revision) :
    Except Fault DeviceMemory := do
  let start ← memory.offset address count
  let data := Buffer.slice memory.bytes start count
  return { memory with bytes := Buffer.store memory.bytes start (revision.change data) }

/-- Change the bytes of a region in their place. -/
def reviseRegion (memory : DeviceMemory) (region : Region) (revision : Revision) :
    Except Fault DeviceMemory :=
  memory.revise region.base region.size.toNat revision

/-- Read a word. -/
def readWord (memory : DeviceMemory) (address : UInt32) : Except Fault UInt32 := do
  let data ← memory.read address 4
  match Word.ofBytes? data with
  | some value => return value
  | none => throw (.outOfBounds address 4)

/-- Every byte, lowest address first. -/
def contents (memory : DeviceMemory) : Bytes := memory.bytes.toList

/-- Memory as text: its base and its size. -/
def render (memory : DeviceMemory) : String :=
  s!"DeviceMemory \x7b base: {hexWord memory.base.toNat}, size: {memory.size} \x7d"

end DeviceMemory

end Overlay
