import Overlay.Bytes

/-!
# Regions of device memory

A region is a named stretch of the address space of thirty-two bits.  Ends are
natural numbers, because a region may end at the very top, at two to the power
of thirty-two.
-/

set_option autoImplicit false

namespace Overlay

/-- What a region is used for. -/
inductive RegionKind where
  /-- The window that overlays are loaded into. -/
  | code
  /-- The stack of an overlay, growing down. -/
  | stack
  /-- The heap of an overlay, growing up. -/
  | heap
  /-- Left unused on purpose. -/
  | gap
  /-- Owned by the supervisor or the hardware. -/
  | reserved
  deriving DecidableEq, Repr

/-- What may happen in a region. -/
structure RegionFlags where
  executable : Bool := false
  writable : Bool := false
  growsUp : Bool := false
  growsDown : Bool := false
  guarding : Bool := false
  deriving DecidableEq

namespace RegionKind

/-- The name of a kind in layouts and messages. -/
def text : RegionKind → String
  | .code => "code"
  | .stack => "stack"
  | .heap => "heap"
  | .gap => "gap"
  | .reserved => "reserved"

/-- Every kind, in the order of declaration. -/
def all : List RegionKind := [.code, .stack, .heap, .gap, .reserved]

/-- The kind with a given name. -/
def ofText? (name : String) : Option RegionKind :=
  all.find? fun kind => kind.text == name

/-- What a kind of region is good for. -/
def flags : RegionKind → RegionFlags
  | .code => { executable := true, writable := true }
  | .stack => { writable := true, growsDown := true }
  | .heap => { writable := true, growsUp := true }
  | .gap => { guarding := true }
  | .reserved => {}

end RegionKind

/-- Flags as a bit set: executable is bit 0, and guarding is bit 4. -/
def RegionFlags.bits (flags : RegionFlags) : Nat :=
  flags.executable.toNat + 2 * flags.writable.toNat + 4 * flags.growsUp.toNat
    + 8 * flags.growsDown.toNat + 16 * flags.guarding.toNat

/-- All memory that a device has. -/
structure AddressSpace where
  base : UInt32
  size : UInt32
  deriving DecidableEq

/-- One past the last address. -/
def AddressSpace.limit (space : AddressSpace) : Nat :=
  space.base.toNat + space.size.toNat

/-- A region that has its place: the addresses from `base` up to `base + size`. -/
structure Region where
  name : String
  kind : RegionKind
  base : UInt32
  size : UInt32
  deriving DecidableEq

namespace Region

/-- One past the last address. -/
def limit (region : Region) : Nat :=
  region.base.toNat + region.size.toNat

/-- Whether an address lies inside. -/
def contains (region : Region) (address : UInt32) : Bool :=
  region.base.toNat ≤ address.toNat && address.toNat < region.limit

/-- Whether `count` addresses from `address` on all lie inside.  The end of a range that does
not begin before the region is summed up in sixty-four bits, and there is no answer where it
takes more of them. -/
def containsRange? (region : Region) (address : UInt32) (count : UInt64) : Option Bool :=
  if address.toNat < region.base.toNat then some false
  else if address.toNat + count.toNat < 18446744073709551616 then
    some (address.toNat + count.toNat ≤ region.limit)
  else none

/-- Whether a region shares an address with the stretch from `base` to `limit`. -/
def overlaps (region : Region) (base limit : Nat) : Bool :=
  region.base.toNat < limit && base < region.limit

end Region

end Overlay
