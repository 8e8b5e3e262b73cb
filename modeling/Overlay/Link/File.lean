import Overlay.Link.Party

/-!
# A file as a link

A file can stand in for the device file of a serial port.  Reads and writes move
one common position through it; nothing ever waits, and at its end the link has
ended.
-/

set_option autoImplicit false

namespace Overlay

/-- A file that is used as a link. -/
structure FileLink where
  before : Bytes := []
  /-- What lies behind the position. -/
  after : Bytes
  clock : Nat := 0

namespace FileLink

/-- Everything in the file. -/
def contents (link : FileLink) : Bytes := link.before ++ link.after

/-- Read at most `limit` bytes. -/
def read (link : FileLink) (limit : Nat) : Except Lapse Bytes × FileLink :=
  let data := link.after.take limit
  if data.isEmpty then (.error .ended, link)
  else (.ok data, { link with before := link.before ++ data, after := link.after.drop limit })

/-- Write over what is there, and beyond the end. -/
def write (link : FileLink) (data : Bytes) : FileLink :=
  { link with before := link.before ++ data, after := link.after.drop data.length }

end FileLink

namespace Party

variable {σ ρ : Type}

/-- Let a party talk to a file, for at most `fuel` moves. -/
def runFile (party : Party σ ρ) : Nat → σ → FileLink → Option (ρ × FileLink)
  | 0, _, _ => none
  | fuel + 1, state, link =>
      match party state link.clock with
      | .done result => some (result, link)
      | .pause duration resume =>
          let link := { link with clock := link.clock + duration }
          runFile party fuel (resume link.clock) link
      | .read limit _ resume =>
          let (answer, link) := link.read limit
          runFile party fuel (resume link.clock answer) link
      | .write data _ resume =>
          runFile party fuel (resume link.clock (.ok ())) (link.write data)

end Party

end Overlay
