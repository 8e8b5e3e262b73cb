import Overlay.Sender

/-!
# Uploads with retries

An upload runs the whole transfer again when it failed in a way that another
try may mend, as often as it is allowed to.
-/

set_option autoImplicit false

namespace Overlay

/-- What a completed upload was like. -/
structure TransferReport where
  bytes : Nat
  blocks : Nat
  sentChecksum : UInt32
  receivedChecksum : UInt32
  attempts : Nat
  /-- Nanoseconds over the whole upload, failed attempts included. -/
  elapsed : Nat
  deriving DecidableEq

namespace TransferReport

/-- Whole milliseconds over the whole upload. -/
def elapsedMillis (report : TransferReport) : Nat := report.elapsed / 1000000

/-- The elapsed time in seconds. -/
def seconds (report : TransferReport) : Float :=
  Float.ofNat (report.elapsed / 1000000000)
    + Float.ofNat (report.elapsed % 1000000000) / 1000000000.0

/-- Bytes per second over the whole upload. -/
def rate (report : TransferReport) : Float :=
  if report.seconds > 0.0 then report.bytes.toUInt64.toFloat / report.seconds else 0.0

end TransferReport

namespace Uploader

/-- What an uploader is set to. -/
structure Config where
  sender : Sender.Config := {}
  /-- How many more attempts may follow the first. -/
  retries : UInt32 := 3
  deriving DecidableEq

/-- The largest number of attempts, which is a number of thirty-two bits as well. -/
def Config.maxAttempts (config : Config) : Nat :=
  min (config.retries.toNat + 1) 4294967295

/-- An upload at work: the attempt it is in. -/
structure State where
  /-- When the upload began. -/
  started : Nat
  attempt : Nat
  session : Sender.State

/-- An upload that begins its first attempt. -/
def start (config : Config) (image : Bytes) (progress : Progress) (now : Nat) : State where
  started := now
  attempt := 1
  session := Sender.start config.sender image progress now

/-- Begin the next attempt if the last one failed in a way that this may mend. -/
def settle (config : Config) (image : Bytes) (state : State) (now : Nat) : State :=
  match state.session.stage with
  | .finished (.error fault) =>
      if fault.isRecoverable && decide (state.attempt < config.maxAttempts) then
        { state with
          attempt := state.attempt + 1
          session := Sender.start config.sender image state.session.progress now }
      else state
  | _ => state

/-- The report of an upload, from the report of its last attempt. -/
def report (state : State) (now : Nat) (last : Sender.Report) : TransferReport where
  bytes := last.bytes
  blocks := last.blocks
  sentChecksum := last.sentChecksum
  receivedChecksum := last.receivedChecksum
  attempts := state.attempt
  elapsed := (now - state.started) * 1000000

/-- What an upload of an image does next. -/
def party (config : Config) (image : Bytes) :
    Party State (Except Fault TransferReport × Progress) :=
  fun state now =>
    (Sender.party config.sender image state.session now).embed
      (fun now session => settle config image { state with session } now)
      (fun (result, progress) => (result.map (report state now), progress))

/-! ## Several uploads in a row -/

/-- The result of one upload of several, with its time and the position it left. -/
structure Entry where
  time : Nat
  result : Except Fault TransferReport
  position : UInt64

/-- Several uploads over one link: those that are over, latest first, and the one at work. -/
structure Batch where
  entries : List Entry := []
  current : Option (Bytes × State)
  waiting : List Bytes

/-- Note the result of an upload that is over. -/
def entry (state : State) (now : Nat) (result : Except Fault Sender.Report) : Entry where
  time := now
  result := result.map (report state now)
  position := state.session.progress.position

/-- Begin the next upload of those that wait, with its progress at nothing. -/
def Batch.next (config : Config) (entries : List Entry) : List Bytes → Nat → Batch
  | [], _ => { entries, current := none, waiting := [] }
  | image :: rest, now =>
      let state := start config image {} now
      match state.session.stage with
      | .finished result => Batch.next config (entry state now result :: entries) rest now
      | _ => { entries, current := some (image, state), waiting := rest }

/-- Go on to the next upload if the one at work is over. -/
def Batch.settle (config : Config) (batch : Batch) (image : Bytes) (state : State) (now : Nat) :
    Batch :=
  match state.session.stage with
  | .finished result =>
      Batch.next config (entry state now result :: batch.entries) batch.waiting now
  | _ => { batch with current := some (image, state) }

/-- What several uploads do next. -/
def batchParty (config : Config) : Party Batch (List Entry) :=
  fun batch now =>
    match batch.current with
    | none => .done batch.entries.reverse
    | some (image, state) =>
        (party config image state now).embed
          (fun now state => batch.settle config image state now)
          (fun _ => batch.entries.reverse)

end Uploader

end Overlay
