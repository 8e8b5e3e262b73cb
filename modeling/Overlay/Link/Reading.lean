import Overlay.Link.Party

/-!
# Single reads and writes

The smallest conversations on a link: read some bytes, one byte or a word, or
write a sequence.  A word may arrive in pieces; the time for each piece starts
anew.
-/

set_option autoImplicit false

namespace Overlay

/-- A single exchange: under way, or over with a result. -/
inductive Exchange (σ α : Type) where
  | under (state : σ)
  | over (result : Except Fault α)

namespace Exchange

/-- Read at most `limit` bytes. -/
def readSome (limit timeout : Nat) (phase : Phase) :
    Party (Exchange Unit Bytes) (Except Fault Bytes)
  | .over result, _ => .done result
  | .under (), _ =>
      .read limit timeout fun _ answer => .over (answer.mapError (Lapse.fault phase))

/-- Read a word piece by piece. -/
def readWord (timeout : Nat) (phase : Phase) :
    Party (Exchange WordBuffer UInt32) (Except Fault UInt32)
  | .over result, _ => .done result
  | .under word, _ =>
      .read word.room timeout fun _ answer =>
        match answer with
        | .error lapse => .over (.error (lapse.fault phase))
        | .ok data =>
            let word := word.fill data
            match word.value? with
            | some value => .over (.ok value)
            | none => .under word

/-- Write a sequence. -/
def write (data : Bytes) (timeout : Nat) (phase : Phase) :
    Party (Exchange Unit Unit) (Except Fault Unit)
  | .over result, _ => .done result
  | .under (), _ =>
      .write data timeout fun _ answer => .over (answer.mapError (Lapse.fault phase))

end Exchange

end Overlay
