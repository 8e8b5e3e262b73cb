import Overlay.Fault
import Overlay.Receiver
import Overlay.Sender

/-!
# Settings

What a user may set for the host, the device and the memory layout.  Every
setting has a value from the start, which together describe a board of 512 KiB,
so a user sets only what differs.
-/

set_option autoImplicit false

namespace Overlay

/-- Settings of the host's side of the link. -/
structure LinkSettings where
  /-- The endpoint of the device. -/
  port : Option String := none
  readyTimeout : Nat := 10000
  phaseTimeout : Nat := 2000
  blockSize : Nat := 1024
  retries : UInt32 := 3
  deriving DecidableEq

/-- Settings of the device. -/
structure DeviceSettings where
  /-- The largest image; without it, what the code region holds. -/
  maxImageSize : Option UInt32 := none
  readyInterval : Nat := 500
  readyTimeout : Option Nat := none
  phaseTimeout : Nat := 2000
  requireHeader : Bool := false
  staged : Bool := false
  deriving DecidableEq

/-- Settings of the memory layout. -/
structure LayoutSettings where
  base : UInt32 := 0
  size : UInt32 := 0x80000
  safetyGap : UInt32 := 0x1000
  regions : List RegionRequest := [
    { name := "supervisor", kind := .reserved, size := 0x18000 },
    { name := "code", kind := .code, size := 0x30000 },
    { name := "heap", kind := .heap, size := 0x20000 },
    { name := "guard", kind := .gap, size := 0x1000 },
    { name := "stack", kind := .stack, size := 0x8000 }]
  deriving DecidableEq

/-- Everything that may be set. -/
structure Settings where
  link : LinkSettings := {}
  device : DeviceSettings := {}
  layout : LayoutSettings := {}
  deriving DecidableEq

namespace LayoutSettings

/-- The memory of the device. -/
def memory (settings : LayoutSettings) : AddressSpace := ⟨settings.base, settings.size⟩

/-- The planned layout. -/
def plan (settings : LayoutSettings) : Except LayoutError Layout :=
  Layout.plan settings.memory settings.safetyGap settings.regions

end LayoutSettings

namespace Settings

/-- The configuration of a sender.  A block has at least one byte. -/
def sender (settings : Settings) : Sender.Config where
  readyTimeout := settings.link.readyTimeout
  phaseTimeout := settings.link.phaseTimeout
  blockSize := max settings.link.blockSize 1

/-- The configuration of a receiver, which never accepts more than the code region holds. -/
def receiver (settings : Settings) (window : Window) : Receiver.Config where
  maxImageSize := min (settings.device.maxImageSize.getD window.capacity) window.capacity
  readyInterval := settings.device.readyInterval
  readyTimeout := settings.device.readyTimeout
  phaseTimeout := settings.device.phaseTimeout

end Settings

end Overlay
