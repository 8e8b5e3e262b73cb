import Overlay.Link.Party

/-!
# A link that follows a script

Everything that the other end will do is written down in advance: what arrives
and when, how much is accepted and what happens then.  The clock of the link
moves only when a party waits.  An answer that is due at the very moment a wait
ends is still in time.
-/

set_option autoImplicit false

namespace Overlay

namespace Script

/-- What happens on the way in. -/
inductive Arrival where
  | data (bytes : Bytes)
  | ended
  | failed (error : IoError)

/-- An arrival with its time. -/
structure Event where
  time : Nat
  arrival : Arrival

/-- What becomes of writes once the limit is reached. -/
inductive Refusal where
  /-- Nothing is accepted. -/
  | zero
  /-- Writes wait until the given time, or for good. -/
  | stall (until? : Option Nat)
  | failed (error : IoError)

/-- What a flush does. -/
inductive Flushing where
  | passes
  | stalls
  | failed (error : IoError)

end Script

/-- A link that follows a script. -/
structure ScriptedLink where
  clock : Nat := 0
  /-- What is still to arrive, in this order. -/
  arrivals : List Script.Event := []
  /-- Whether reads wait for good after the last arrival; otherwise the link has ended. -/
  silent : Bool := true
  /-- How many bytes are accepted before writes are refused. -/
  room : Option Nat := none
  refusal : Script.Refusal := .stall none
  flushing : Script.Flushing := .passes
  /-- What was accepted so far and when, latest first. -/
  accepted : List (Nat × Bytes) := []

namespace ScriptedLink

/-- Wait for the first arrival and read at most `limit` bytes of it. -/
def read (link : ScriptedLink) (limit timeout : Nat) : Except Lapse Bytes × ScriptedLink :=
  let deadline := link.clock + timeout
  match link.arrivals with
  | [] =>
      if link.silent then (.error .expired, { link with clock := deadline })
      else (.error .ended, link)
  | event :: rest =>
      let due := max link.clock event.time
      if deadline < due then (.error .expired, { link with clock := deadline })
      else
        match event.arrival with
        | .ended => (.error .ended, { link with clock := due, arrivals := rest })
        | .failed error =>
            (.error (.failed error), { link with clock := due, arrivals := rest })
        | .data bytes =>
            let taken := bytes.take limit
            let left := bytes.drop limit
            let arrivals :=
              if left.isEmpty then rest else { event with arrival := .data left } :: rest
            let link := { link with clock := due, arrivals }
            if taken.isEmpty then (.error .ended, link) else (.ok taken, link)

/-- Note bytes as accepted at the time of the clock. -/
def accept (link : ScriptedLink) (data : Bytes) : ScriptedLink :=
  if data.isEmpty then link
  else { link with accepted := (link.clock, data) :: link.accepted }

/-- Flush before the deadline. -/
def flush (link : ScriptedLink) (deadline : Nat) : Except Lapse Unit × ScriptedLink :=
  match link.flushing with
  | .passes => (.ok (), link)
  | .stalls => (.error .expired, { link with clock := deadline })
  | .failed error => (.error (.failed error), link)

/-- Write what the room does not hold, before the deadline. -/
def writeBeyond (link : ScriptedLink) (data : Bytes) (deadline : Nat) :
    Except Lapse Unit × ScriptedLink :=
  match link.refusal with
  | .zero => (.error (.failed .writeZero), link)
  | .failed error => (.error (.failed error), link)
  | .stall none => (.error .expired, { link with clock := deadline })
  | .stall (some time) =>
      let due := max link.clock time
      if deadline < due then (.error .expired, { link with clock := deadline })
      else
        let link := { link with clock := due, room := none }
        (link.accept data).flush deadline

/-- Write and flush. -/
def write (link : ScriptedLink) (data : Bytes) (timeout : Nat) :
    Except Lapse Unit × ScriptedLink :=
  let deadline := link.clock + timeout
  match link.room with
  | none => (link.accept data).flush deadline
  | some room =>
      let link := { link.accept (data.take room) with room := some (room - data.length) }
      let rest := data.drop room
      if rest.isEmpty then link.flush deadline else link.writeBeyond rest deadline

/-- Let time pass. -/
def pause (link : ScriptedLink) (duration : Nat) : ScriptedLink :=
  { link with clock := link.clock + duration }

/-- How many bytes are still to arrive. -/
def unread (link : ScriptedLink) : Nat :=
  link.arrivals.foldr
    (fun event rest =>
      match event.arrival with
      | .data bytes => bytes.length + rest
      | _ => rest)
    0

/-- Join bytes that were accepted at one time; the record runs backwards. -/
def joinRecord (joined : List (Nat × Bytes)) : List (Nat × Bytes) → List (Nat × Bytes)
  | [] => joined
  | (time, data) :: earlier =>
      match joined with
      | (next, later) :: rest =>
          if time = next then joinRecord ((time, data ++ later) :: rest) earlier
          else joinRecord ((time, data) :: joined) earlier
      | [] => joinRecord [(time, data)] earlier

/-- What was accepted, by time. -/
def record (link : ScriptedLink) : List (Nat × Bytes) := joinRecord [] link.accepted

end ScriptedLink

namespace Party

variable {σ ρ : Type}

/-- Let a party talk over a scripted link, for at most `fuel` moves. -/
def runScript (party : Party σ ρ) : Nat → σ → ScriptedLink → Option (ρ × ScriptedLink)
  | 0, _, _ => none
  | fuel + 1, state, link =>
      match party state link.clock with
      | .done result => some (result, link)
      | .pause duration resume =>
          let link := link.pause duration
          runScript party fuel (resume link.clock) link
      | .read limit timeout resume =>
          let (answer, link) := link.read limit timeout
          runScript party fuel (resume link.clock answer) link
      | .write data timeout resume =>
          let (answer, link) := link.write data timeout
          runScript party fuel (resume link.clock answer) link

end Party

end Overlay
