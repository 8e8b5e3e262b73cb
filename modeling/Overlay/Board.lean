import Overlay.Image.Header
import Overlay.Memory.Device

/-!
# Boards

A board is what an overlay runs on.  It executes the overlay that stands in
memory, and it can bring the devices that overlays share back to rest.
-/

set_option autoImplicit false

namespace Overlay

/-- What an overlay is started with. -/
structure Context where
  entry : UInt32
  stackPointer : UInt32
  /-- The range that has been cleared. -/
  bss : Span
  /-- The heap that the overlay may use, if the layout has one. -/
  heap : Option Span
  deriving DecidableEq

/-- A device: its memory and the state of everything around it. -/
structure Device (σ : Type) where
  memory : DeviceMemory
  board : σ

/-- How a board runs an overlay and brings its shared devices back to rest. -/
structure Board (σ : Type) where
  execute : Context → Device σ → Except Fault Int32 × Device σ
  neutralise : σ → σ

/-- A board that only looks at the first word of the overlay and returns zero. -/
def Board.inspecting : Board Unit where
  execute context device :=
    match device.memory.readWord context.entry with
    | .ok _ => (.ok 0, device)
    | .error fault => (.error fault, device)
  neutralise board := board

end Overlay
