import Overlay.JsonValue
import Overlay.Memory.Layout
import Overlay.Uploader

/-!
# Summaries for a reader

How a finished upload and a planned layout are shown, as lines of text or as
JSON.
-/

set_option autoImplicit false

namespace Overlay

/-- A text filled up with spaces behind it. -/
def padAfter (width : Nat) (text : String) : String :=
  text ++ String.ofList (List.replicate (width - text.length) ' ')

/-- A text filled up with spaces in front of it. -/
def padBefore (width : Nat) (text : String) : String :=
  String.ofList (List.replicate (width - text.length) ' ') ++ text

/-! ## One decimal place -/

/-- A quotient to the nearest whole number; a half goes to the even neighbour. -/
def roundHalfEven (numerator denominator : Nat) : Nat :=
  let quotient := numerator / denominator
  let twice := 2 * (numerator % denominator)
  if denominator < twice || (twice = denominator && quotient % 2 = 1) then quotient + 1
  else quotient

/-- A double that is not negative, with one decimal place. -/
def tenths (value : Float) : String :=
  let bits := value.toBits.toNat
  let exponent := bits / Nat.pow 2 52 % 2048
  let fraction := bits % Nat.pow 2 52
  if exponent = 2047 then (if fraction = 0 then "inf" else "NaN")
  else
    let significand := if exponent = 0 then fraction else Nat.pow 2 52 + fraction
    let scale := max exponent 1
    let count :=
      roundHalfEven (10 * significand * Nat.pow 2 (scale - 1075)) (Nat.pow 2 (1075 - scale))
    s!"{count / 10}.{count % 10}"

/-! ## Uploads -/

/-- A finished upload as JSON. -/
def TransferReport.json (report : TransferReport) : JsonValue :=
  .record [
    ("bytes", .number report.bytes),
    ("blocks", .number report.blocks),
    ("sent_checksum", .number report.sentChecksum.toNat),
    ("received_checksum", .number report.receivedChecksum.toNat),
    ("attempts", .number report.attempts),
    ("elapsed_ms", .number report.elapsedMillis)]

/-- A finished upload as a line of text. -/
def TransferReport.summary (report : TransferReport) : String :=
  s!"Verified {report.bytes} bytes in {report.blocks} block(s), " ++
  s!"crc {hexWord report.sentChecksum.toNat}, {report.attempts} attempt(s), " ++
  s!"{tenths (report.rate / 1024.0)} KiB/s\n"

/-! ## Layouts -/

/-- A region as JSON. -/
def Region.json (region : Region) : JsonValue :=
  .record [
    ("name", .text region.name),
    ("kind", .text region.kind.text),
    ("base", .number region.base.toNat),
    ("size", .number region.size.toNat)]

/-- A region as a line of text. -/
def Region.summary (region : Region) : String :=
  s!"  {padAfter 12 region.name} {padAfter 9 region.kind.text} " ++
  s!"{hexWord region.base.toNat}..{hexWord region.limit} " ++
  s!"{padBefore 8 (toString region.size.toNat)} bytes\n"

/-- The regions of a layout as JSON. -/
def Layout.json (layout : Layout) : JsonValue := .list (layout.regions.map Region.json)

/-- The memory and the regions of a layout as lines of text. -/
def Layout.summary (layout : Layout) : String :=
  s!"Memory {hexWord layout.memory.base.toNat}..{hexWord layout.memory.limit}, " ++
  s!"safety gap {hex layout.safetyGap.toNat}\n" ++
  String.join (layout.regions.map Region.summary)

/-- The window of a layout as a line of text. -/
def Window.summary (window : Window) : String :=
  s!"Overlay capacity {window.capacity.toNat} bytes, stack top {hexWord window.stackTop.toNat}\n"

end Overlay
