import Overlay.Link.Party

/-!
# Two parties joined by pipes

Two parties talk over a pair of pipes of limited size.  Each moves as far as it
can before the other has its turn, and time passes only when neither can move.
A party that is done closes both pipes: what is in them can still be read, and
then they have ended.
-/

set_option autoImplicit false

namespace Overlay

/-- One direction of a joined link. -/
structure Pipe where
  /-- How many bytes fit. -/
  capacity : Nat
  contents : Bytes := []
  closed : Bool := false
  /-- How many bytes have gone in. -/
  passed : Nat := 0
  /-- Bytes that are altered on the way, by their place in the stream. -/
  noise : List (Nat × UInt8) := []

namespace Pipe

/-- A byte as it comes out, given its place in the stream. -/
def distort (pipe : Pipe) (place : Nat) (byte : UInt8) : UInt8 :=
  pipe.noise.foldl (fun byte (offset, mask) => if offset = place then byte ^^^ mask else byte) byte

/-- Put in as much as fits; what is left comes back. -/
def push (pipe : Pipe) (data : Bytes) : Bytes × Pipe :=
  let room := pipe.capacity - pipe.contents.length
  let taken := (data.take room).mapIdx fun index byte => pipe.distort (pipe.passed + index) byte
  (data.drop room,
    { pipe with contents := pipe.contents ++ taken, passed := pipe.passed + taken.length })

/-- Take out at most `limit` bytes. -/
def pull (pipe : Pipe) (limit : Nat) : Bytes × Pipe :=
  (pipe.contents.take limit, { pipe with contents := pipe.contents.drop limit })

/-- Let nothing more in. -/
def close (pipe : Pipe) : Pipe := { pipe with closed := true }

end Pipe

/-- What a party on a joined link is at. -/
inductive Activity (σ ρ : Type) where
  | ready (state : σ)
  | reading (limit deadline : Nat) (resume : Nat → Except Lapse Bytes → σ)
  | writing (rest : Bytes) (deadline : Nat) (resume : Nat → Except Lapse Unit → σ)
  | pausing (deadline : Nat) (resume : Nat → σ)
  | over (result : ρ)

namespace Activity

variable {σ ρ : Type}

/-- When a party stops waiting by itself. -/
def deadline : Activity σ ρ → Option Nat
  | .reading _ deadline _ => some deadline
  | .writing _ deadline _ => some deadline
  | .pausing deadline _ => some deadline
  | _ => none

/-- One step of a party at a given time, with the pipe it reads from and the pipe
it writes to; `none` if it must wait. -/
def step (party : Party σ ρ) (now : Nat) (activity : Activity σ ρ) (incoming outgoing : Pipe) :
    Option (Activity σ ρ × Pipe × Pipe) :=
  match activity with
  | .over _ => none
  | .ready state =>
      match party state now with
      | .done result => some (.over result, incoming.close, outgoing.close)
      | .pause duration resume => some (.pausing (now + duration) resume, incoming, outgoing)
      | .read limit timeout resume =>
          some (.reading limit (now + timeout) resume, incoming, outgoing)
      | .write data timeout resume =>
          some (.writing data (now + timeout) resume, incoming, outgoing)
  | .pausing deadline resume =>
      if deadline ≤ now then some (.ready (resume now), incoming, outgoing) else none
  | .reading limit deadline resume =>
      if !incoming.contents.isEmpty then
        let (data, incoming) := incoming.pull limit
        some (.ready (resume now (.ok data)), incoming, outgoing)
      else if incoming.closed then
        some (.ready (resume now (.error .ended)), incoming, outgoing)
      else if deadline ≤ now then
        some (.ready (resume now (.error .expired)), incoming, outgoing)
      else none
  | .writing rest deadline resume =>
      if rest.isEmpty then some (.ready (resume now (.ok ())), incoming, outgoing)
      else if outgoing.closed then
        some (.ready (resume now (.error (.failed .brokenPipe))), incoming, outgoing)
      else if outgoing.contents.length < outgoing.capacity then
        let (rest, outgoing) := outgoing.push rest
        some (.writing rest deadline resume, incoming, outgoing)
      else if deadline ≤ now then
        some (.ready (resume now (.error .expired)), incoming, outgoing)
      else none

end Activity

/-- Whose turn it is. -/
inductive Turn where
  | first
  | second
  deriving DecidableEq

/-- Two parties and the pipes between them. -/
structure Joint (σ ρ σ' ρ' : Type) where
  clock : Nat := 0
  first : Activity σ ρ
  second : Activity σ' ρ'
  /-- From the first party to the second. -/
  forth : Pipe
  /-- From the second party to the first. -/
  back : Pipe
  turn : Turn := .first
  /-- How many turns in a row have brought nothing. -/
  idle : Nat := 0

namespace Joint

variable {σ ρ σ' ρ' : Type}

/-- Give the turn to the other party after a turn that brought nothing. -/
def yield (joint : Joint σ ρ σ' ρ') (turn : Turn) : Joint σ ρ σ' ρ' :=
  { joint with turn, idle := joint.idle + 1 }

/-- The next time at which a party stops waiting. -/
def nextDeadline (joint : Joint σ ρ σ' ρ') : Option Nat :=
  match joint.first.deadline, joint.second.deadline with
  | some first, some second => some (min first second)
  | some first, none => some first
  | none, second => second

/-- One step of the party whose turn it is.  When neither can move the clock goes on
to the next deadline; without one the conversation is over. -/
def step (first : Party σ ρ) (second : Party σ' ρ') (joint : Joint σ ρ σ' ρ') :
    Option (Joint σ ρ σ' ρ') :=
  if 2 ≤ joint.idle then
    joint.nextDeadline.map fun time =>
      { joint with clock := max joint.clock time, turn := .first, idle := 0 }
  else
    match joint.turn with
    | .first =>
        match joint.first.step first joint.clock joint.back joint.forth with
        | some (activity, back, forth) =>
            some { joint with first := activity, back, forth, idle := 0 }
        | none => some (joint.yield .second)
    | .second =>
        match joint.second.step second joint.clock joint.forth joint.back with
        | some (activity, forth, back) =>
            some { joint with second := activity, back, forth, idle := 0 }
        | none => some (joint.yield .first)

/-- Let both parties talk for at most `fuel` steps, until both are done. -/
def run (first : Party σ ρ) (second : Party σ' ρ') :
    Nat → Joint σ ρ σ' ρ' → Option (ρ × ρ')
  | 0, _ => none
  | fuel + 1, joint =>
      match joint.first, joint.second with
      | .over result, .over result' => some (result, result')
      | _, _ => (joint.step first second).bind (run first second fuel)

end Joint

end Overlay
