import Overlay.Files
import Overlay.Host
import Overlay.Link.Pipe
import Std.Async.DNS
import Std.Async.TCP

/-!
# The host that the program runs on

Files and links of the running system.  Reads go on in the background, so that a
party can stop waiting for them.
-/

set_option autoImplicit false

namespace Overlay.Native

/-- The number and the wording that the system gives a failure. -/
def codeOf : IO.Error → UInt32 × String
  | .alreadyExists _ code text => (code, text)
  | .otherError code text => (code, text)
  | .resourceBusy code text => (code, text)
  | .resourceVanished code text => (code, text)
  | .unsupportedOperation code text => (code, text)
  | .hardwareFault code text => (code, text)
  | .unsatisfiedConstraints code text => (code, text)
  | .illegalOperation code text => (code, text)
  | .protocolError code text => (code, text)
  | .timeExpired code text => (code, text)
  | .interrupted _ code text => (code, text)
  | .noFileOrDirectory _ code text => (code, text)
  | .invalidArgument _ code text => (code, text)
  | .permissionDenied _ code text => (code, text)
  | .resourceExhausted _ code text => (code, text)
  | .inappropriateType _ code text => (code, text)
  | .noSuchThing _ code text => (code, text)
  | .unexpectedEof => (0, "unexpected end of file")
  | .userError text => (0, text)

/-- The number of a failure without the sign that some parts of the system give it. -/
def magnitude (code : UInt32) : UInt32 := if code < 0x80000000 then code else 0 - code

/-- A failure of the system as a failure of input or output. -/
def failure (error : IO.Error) : IoError :=
  let (code, text) := codeOf error
  match magnitude code with
  | 0 => ⟨.other, text⟩
  | 2 => .notFound
  | 13 => ⟨.permissionDenied, "Permission denied (os error 13)"⟩
  | 20 => .notADirectory
  | 21 => .isADirectory
  | 32 => ⟨.brokenPipe, "Broken pipe (os error 32)"⟩
  | 36 => .nameTooLong
  | 104 => ⟨.connectionReset, "Connection reset by peer (os error 104)"⟩
  | 111 => ⟨.connectionRefused, "Connection refused (os error 111)"⟩
  | code => ⟨.other, s!"{text} (os error {code})"⟩

/-- Do something with the system and keep its failure. -/
def guarded {α : Type} (action : IO α) : IO (Except IoError α) := do
  match ← action.toBaseIO with
  | .ok value => return .ok value
  | .error error => return .error (failure error)

/-- Why a file is out of reach whose path is no text: the runtime names files by text. -/
def pathNotText : IoError := ⟨.invalidInput, "path is not valid UTF-8"⟩

/-- Do something with the file at a path. -/
def withPath {α : Type} (path : Path) (action : String → IO α) : IO (Except IoError α) :=
  match Files.checkPath path, text? path.bytes with
  | .error error, _ => return .error error
  | .ok (), none => return .error pathNotText
  | .ok (), some name => guarded (action name)

/-- The names of the files directly in a directory, in order. -/
def fileNames (path : String) : IO (List String) := do
  let directory ← IO.FS.realPath path
  let mut names : List String := []
  for entry in ← directory.readDir do
    if (← entry.path.metadata).type == .file then names := entry.fileName :: names
  return names.mergeSort fun a b => decide (a ≤ b)

/-! ## Conversations -/

/-- Both directions of an open link. -/
structure Wire where
  /-- At most some of the bytes that have come in, or why no more will; nothing while
  neither is known. -/
  poll : Nat → IO (Option (Except Lapse Bytes))
  /-- Write and flush. -/
  transmit : ByteArray → IO Unit

/-- What has come in and has not been taken yet. -/
structure Inbox where
  bytes : ByteArray := ByteArray.empty
  /-- Why nothing more comes in, once that is so. -/
  closing : Option Lapse := none

/-- Note what a read came to; no bytes mean the end. -/
def Inbox.receive (answer : Except IO.Error ByteArray) (inbox : Inbox) : Inbox :=
  match answer with
  | .error error => { inbox with closing := some (.failed (failure error)) }
  | .ok bytes =>
      if bytes.isEmpty then { inbox with closing := some .ended }
      else { inbox with bytes := inbox.bytes ++ bytes }

/-- Take at most `limit` bytes, or why no more will come. -/
def Inbox.take (limit : Nat) (inbox : Inbox) : Option (Except Lapse Bytes) × Inbox :=
  if inbox.bytes.isEmpty then (inbox.closing.map .error, inbox)
  else
    (some (.ok (inbox.bytes.extract 0 limit).toList),
      { inbox with bytes := inbox.bytes.extract limit inbox.bytes.size })

/-- Gather what comes in over a stream until its end.  It is read byte by byte, because a
longer read would wait until all of it is there. -/
partial def gather (input : IO.FS.Stream) (inbox : IO.Ref Inbox) : IO Unit := do
  let answer ← (input.read 1).toBaseIO
  inbox.modify (Inbox.receive answer)
  if (← inbox.get).closing.isNone then gather input inbox

/-- Write to a stream and flush it. -/
def sendTo (output : IO.FS.Stream) (bytes : ByteArray) : IO Unit := do
  output.write bytes
  output.flush

/-- A link over two streams, which is read ahead in the background. -/
def Wire.readAhead (input output : IO.FS.Stream) : IO Wire := do
  let inbox ← IO.mkRef ({} : Inbox)
  let _ ← IO.asTask (gather input inbox) Task.Priority.dedicated
  return { poll := fun limit => inbox.modifyGet (Inbox.take limit), transmit := sendTo output }

/-- A link on which a read begins when it is needed, and goes on until it has an answer. -/
def Wire.onDemand (receive : IO (Task (Except IO.Error ByteArray)))
    (transmit : ByteArray → IO Unit) : IO Wire := do
  let inbox ← IO.mkRef ({} : Inbox)
  let pending ← IO.mkRef (none : Option (Task (Except IO.Error ByteArray)))
  let poll (limit : Nat) : IO (Option (Except Lapse Bytes)) := do
    if let (some answer) ← inbox.modifyGet (Inbox.take limit) then return some answer
    let task ←
      match ← pending.get with
      | some task => pure task
      | none => receive
    if ← IO.hasFinished task then
      pending.set none
      inbox.modify (Inbox.receive task.get)
    else pending.set (some task)
    inbox.modifyGet (Inbox.take limit)
  return { poll, transmit }

/-- A link over the file of a device. -/
def Wire.ofDevice (device : IO.FS.Stream) : IO Wire :=
  Wire.onDemand (IO.asTask (device.read 1)) (sendTo device)

/-- A link over a connection. -/
def Wire.ofClient (client : Std.Async.TCP.Socket.Client) : IO Wire :=
  Wire.onDemand
    (do
      let task ← (client.recv? 512).toIO
      return Task.map (fun answer => answer.map fun bytes => bytes.getD ByteArray.empty) task)
    (fun bytes => (client.send bytes).block)

/-- Read at most `limit` bytes before a deadline. -/
partial def Wire.read (wire : Wire) (limit deadline : Nat) : IO (Except Lapse Bytes) := do
  match ← wire.poll limit with
  | some answer => return answer
  | none =>
      if deadline ≤ (← IO.monoMsNow) then return .error .expired
      IO.sleep 1
      wire.read limit deadline

/-- Let a party talk over a link.  The clock began to run at `began`. -/
partial def talk {σ ρ : Type} (wire : Wire) (party : Party σ ρ) (began : Nat) (state : σ) :
    IO ρ := do
  let now := (← IO.monoMsNow) - began
  match party state now with
  | .done result => return result
  | .pause duration resume =>
      IO.sleep duration.toUInt32
      talk wire party began (resume ((← IO.monoMsNow) - began))
  | .write data _ resume =>
      let answer ← guarded (wire.transmit ⟨data.toArray⟩)
      talk wire party began (resume ((← IO.monoMsNow) - began) (answer.mapError .failed))
  | .read limit timeout resume =>
      let answer ← wire.read limit (began + now + timeout)
      talk wire party began (resume ((← IO.monoMsNow) - began) answer)

/-- Let a party talk over a link from now on. -/
def converse {σ ρ : Type} (wire : Wire) (party : Party σ ρ) (start : σ) : IO ρ := do
  talk wire party (← IO.monoMsNow) start

/-- The connection to an address with its port. -/
def connect (address : String) : IO Std.Async.TCP.Socket.Client := do
  let parts := address.splitOn ":"
  let name := ":".intercalate parts.dropLast
  let some port := (parts.getLast?.bind String.toNat?).filter (· < 65536)
    | throw (IO.userError "invalid port value")
  let found ← (Std.Async.DNS.getAddrInfo name (toString port)).block
  let some host := found[0]?
    | throw (IO.userError "failed to lookup address information")
  let target : Std.Net.SocketAddress :=
    match host with
    | .v4 host => .v4 ⟨host, port.toUInt16⟩
    | .v6 host => .v6 ⟨host, port.toUInt16⟩
  let client ← Std.Async.TCP.Socket.Client.mk
  (client.connect target).block
  client.noDelay
  return client

/-- Let two joined parties talk until both are done. -/
partial def joined {σ ρ σ' ρ' : Type} (first : Party σ ρ) (second : Party σ' ρ')
    (joint : Joint σ ρ σ' ρ') : IO ρ := do
  match joint.first, joint.second with
  | .over result, .over _ => return result
  | _, _ =>
      match joint.step first second with
      | some joint => joined first second joint
      | none => throw (IO.userError "both ends wait for each other")

/-- The running system as a host. -/
def host : Host IO where
  read path := withPath path fun name => return (← IO.FS.readBinFile name).toList
  write path bytes := withPath path fun name => IO.FS.writeBinFile name ⟨bytes.toArray⟩
  list path := withPath path fileNames
  print text := do
    let output ← IO.getStdout
    output.putStr text
    output.flush
  overStandard party start := do
    converse (← Wire.readAhead (← IO.getStdin) (← IO.getStdout)) party start
  overSerial path party start := do
    match ← withPath path fun name => IO.FS.Handle.mk name .readWrite with
    | .error error => return .error error
    | .ok handle =>
        return .ok (← converse (← Wire.ofDevice (IO.FS.Stream.ofHandle handle)) party start)
  overNetwork address party start := do
    match ← guarded (connect address) with
    | .error error => return .error error
    | .ok client => return .ok (← converse (← Wire.ofClient client) party start)
  joined first start second start' := do
    let pipe : Pipe := { capacity := 65536 }
    joined first second
      { first := .ready start, second := .ready start', forth := pipe, back := pipe }

end Overlay.Native
