/-!
# Progress of a transfer

A position that is counted even when nothing is drawn.  It is a counter of
sixty-four bits.
-/

set_option autoImplicit false

namespace Overlay

/-- How far a transfer has come, and how far it goes if that is known. -/
structure Progress where
  position : UInt64 := 0
  total : Option UInt64 := none
  deriving DecidableEq

namespace Progress

/-- Begin a transfer of `total` bytes. -/
def start (_ : Progress) (total : UInt64) : Progress := { position := 0, total := some total }

/-- Count bytes that went over. -/
def advance (progress : Progress) (count : UInt64) : Progress :=
  { progress with position := progress.position + count }

/-- The transfer is complete: the position is the total, if a total is known. -/
def finish (progress : Progress) : Progress :=
  { progress with position := progress.total.getD progress.position }

/-- The transfer is given up where it stands. -/
def abandon (progress : Progress) : Progress := progress

end Progress

end Overlay
