import Overlay.Board.Script
import Overlay.Proofs.Loader.Conditions
import Overlay.Proofs.Supervisor.Sessions

/-!
# Whether the code region is valid

A supervisor notes whether the code region holds an image that has run and returned.  The
region is written to by the receiver, if images are received straight into place, and by the
loader, when it copies an image that it has found to be in order.  A history goes through any
sessions and stored images and remembers the last operation that has written there.

When the region is valid, that operation has returned, but for one way to end: a load that
has copied its image and has come to a fault, which is not noted (`returns_iff_of_history`).
So the fault of a run may leave an image valid that is not there any more
(`not_returns_of_failing`).
-/

set_option autoImplicit false

namespace Overlay

open Party (Event Talk)

variable {σ : Type}

/-! ## Loads that write nothing -/

namespace Loader

variable {loader : Loader σ} {window : Window} {device after : Device σ} {image : Image}
variable {bss : Span} {bytes : Bytes}

/-- Whether bytes that are loaded are an image in order, and are copied to the code region. -/
def copies (loader : Loader σ) (window : Window) (device : Device σ) (bytes : Bytes) : Bool :=
  match Image.parse bytes with
  | .error _ => false
  | .ok image =>
      match loader.check window image with
      | .error _ => false
      | .ok _ => (device.memory.write window.code.base image.bytes).isOk

/-- How a load ends that leaves the device alone and does not return. -/
structure Idle (device : Device σ) (ended : Except Fault Exit × Device σ) : Prop where
  device : ended.2 = device
  unrun : ∀ status, ended.1 ≠ .ok (.returned status)

theorem Idle.of_fault (same : after = device) (fault : Fault) :
    Idle device (.error fault, after) := by
  refine ⟨same, ?_⟩
  intro status returned
  cases returned

theorem Idle.of_exit {exit : Exit} (unrun : ∀ status, exit ≠ .returned status) :
    Idle device (.ok exit, device) := by
  refine ⟨rfl, ?_⟩
  intro status returned
  exact unrun status (Except.ok.inj returned)

theorem Idle.of_rejection (reason : Rejection) : Idle device (.ok (.rejected reason), device) := by
  apply Idle.of_exit
  intro status returned
  cases returned

theorem idle_of_not_copies (aside : loader.copies window device bytes = false) :
    Idle device (loader.loadBytes window device bytes) := by
  rw [copies] at aside
  rw [loadBytes]
  cases parsed : Image.parse bytes with
  | error reason => exact .of_rejection reason
  | ok image =>
      rw [parsed] at aside
      dsimp only at aside ⊢
      rw [loadAndRun]
      cases checked : loader.check window image with
      | error exit => exact .of_exit (unrun_of_check checked)
      | ok bss =>
          rw [checked] at aside
          dsimp only at aside ⊢
          cases written : device.memory.write window.code.base image.bytes with
          | error fault => exact .of_fault rfl fault
          | ok memory =>
              rw [written] at aside
              cases aside

theorem ne_nil_of_check (passes : loader.check window image = .ok bss) : image.bytes ≠ [] := by
  intro none
  rcases checkEntryOffset_cases image with ⟨_, starts, _⟩ | ⟨fails, _⟩
  · rw [none] at starts
    exact absurd starts (Nat.not_lt_zero _)
  · rw [check, fails] at passes
    simp only [bind, Except.bind, throw, throwThe, MonadExceptOf.throw] at passes
    split at passes
    · cases passes
    split at passes
    · cases passes
    split at passes <;> cases passes

/-- A load of no bytes where they stand is idle. -/
theorem idle_of_empty : Idle device (loader.runInPlace window device 0) := by
  rw [runInPlace, if_neg (Nat.not_lt_zero _)]
  split
  · exact .of_fault rfl _
  rename_i found read
  split
  · exact .of_rejection _
  rename_i image parsed
  split
  · rename_i exit refused
    exact .of_exit (unrun_of_check refused)
  · rename_i bss passes
    refine absurd ?_ (ne_nil_of_check passes)
    rw [bytes_of_parse parsed]
    exact List.eq_nil_of_length_eq_zero (DeviceMemory.length_of_read read)

end Loader

namespace Supervisor

/-! ## Writes to the code region -/

/-- Who puts the bytes of an image into the code region. -/
inductive Writer where
  | receiver
  | loader
  deriving DecidableEq

/-- Who does so when bytes are loaded. -/
def loadWriter? (supervisor : Supervisor σ) (bytes : Bytes) : Option Writer :=
  if supervisor.loader.copies supervisor.window supervisor.device bytes then some .loader else none

/-- Who does so when an image is loaded by its name. -/
def storedWriter? (supervisor : Supervisor σ) (source : String → Except Fault Bytes)
    (name : String) : Option Writer :=
  match source name with
  | .error _ => none
  | .ok bytes => supervisor.loadWriter? bytes

/-- Who has done so in a session, once its receiver is done. -/
def sessionWriter? (supervisor : Supervisor σ) (receiver : Receiver.State) : Option Writer :=
  match supervisor.mode with
  | .direct => if receiver.session.stage.received = 0 then none else some .receiver
  | .staged =>
      match receiver.stage with
      | .finished (.ok image) =>
          supervisor.loadWriter? (Buffer.slice receiver.destination 0 image.length)
      | _ => none

/-- One operation of a supervisor, with who has written to the code region in it, if anyone,
and what it has ended in: a session on a link that may do anything, or a load of any name from
any source of images. -/
inductive Operation (supervisor : Supervisor σ) :
    Option Writer → Except Fault Exit → Supervisor σ → Prop where
  | session {begun now : Nat} {events : List Event} {receiver : Receiver.State}
      {result : Except Fault Exit} {next : Supervisor σ}
      (talk : Talk supervisor.sessionParty (supervisor.receive begun) events receiver)
      (stops : supervisor.sessionParty receiver now = .done (result, next)) :
      Operation supervisor (supervisor.sessionWriter? receiver) result next
  | stored (source : String → Except Fault Bytes) (name : String) :
      Operation supervisor (supervisor.storedWriter? source name)
        (supervisor.runNamed source name).1 (supervisor.runNamed source name).2

/-- An operation that has written to the code region: who has written there, and what the
operation has ended in. -/
structure Write where
  writer : Writer
  result : Except Fault Exit

/-- The image has run and returned. -/
def Write.Returns (write : Write) : Prop := ∃ status, write.result = .ok (.returned status)

/-- The loader has copied the image and has come to a fault then. -/
def Write.Fails (write : Write) : Prop :=
  write.writer = .loader ∧ ∃ fault, write.result = .error fault

/-- What a supervisor comes to by any operations, with the last of them that has written to
the code region. -/
inductive History (first : Supervisor σ) : Option Write → Supervisor σ → Prop where
  | begin : History first none first
  | step {last : Option Write} {supervisor next : Supervisor σ} {writer? : Option Writer}
      {result : Except Fault Exit} (before : History first last supervisor)
      (operation : Operation supervisor writer? result next) :
      History first ((writer?.map fun writer => ⟨writer, result⟩).or last) next

/-! ## One operation -/

section Operations

variable {supervisor next : Supervisor σ} {writer? : Option Writer} {result : Except Fault Exit}
variable {bytes : Bytes}

theorem valid_engaged_iff :
    supervisor.engaged.valid = true ↔ supervisor.mode = .staged ∧ supervisor.valid = true := by
  rw [engaged]
  cases supervisor.mode <;> simp

theorem valid_land (supervisor : Supervisor σ) (received : Buffer) :
    (supervisor.land received).valid = supervisor.valid := by
  rw [land]
  split
  · rfl
  · split <;> rfl

/-- What is noted of a load: a return is, and a fault is not. -/
theorem valid_of_settle {ended : Except Fault Exit × Device σ}
    (settled : supervisor.settle ended = (result, next)) (valid : next.valid = true) :
    (∃ status, result = .ok (.returned status)) ∨
      (∃ fault, result = .error fault) ∧ supervisor.valid = true := by
  obtain ⟨result', device⟩ := ended
  cases result' with
  | error fault =>
      cases settled
      exact .inr ⟨⟨fault, rfl⟩, valid⟩
  | ok exit =>
      cases settled
      cases exit with
      | returned status => exact .inl ⟨status, rfl⟩
      | oversized _ _ | rejected _ => cases valid

theorem idle_of_settle {device : Device σ} {ended : Except Fault Exit × Device σ}
    (settled : supervisor.settle ended = (result, next)) (idle : Loader.Idle device ended) :
    Loader.Idle device (result, next.device) := by
  rw [eq_of_settle _ settled] at idle
  exact idle

theorem device_land {received : Buffer}
    (stands : supervisor.mode = .direct → ∀ index, index < received.size →
      supervisor.device.memory.byteAt? (supervisor.window.code.base.toNat + index) =
        received.toList[index]?) :
    (supervisor.land received).device = supervisor.device := by
  rw [land]
  cases chosen : supervisor.mode with
  | staged => rfl
  | direct =>
      dsimp only
      split
      · rename_i memory written
        rw [DeviceMemory.eq_of_write written (stands chosen)]
      · rfl

/-- **A session that has received nothing puts back what it has found in the code region**, or
nothing at all. -/
theorem device_land_of_talk {begun : Nat} {events : List Event} {receiver : Receiver.State}
    (talk : Talk (Receiver.party supervisor.receiver) (supervisor.receive begun) events receiver)
    (nothing : receiver.session.stage.received = 0) :
    (supervisor.engaged.land receiver.destination).device = supervisor.device := by
  rw [← device_engaged supervisor]
  apply device_land
  intro direct index inside
  obtain ⟨window, _, _, mode⟩ := setup_eq_iff.mp (setup_engaged supervisor)
  rw [window, device_engaged]
  rw [mode] at direct
  obtain ⟨before, found, begins⟩ | ⟨fault, _, begins⟩ := receive_cases supervisor begun
  · rw [begins] at talk
    rw [Receiver.destination_of_talk talk nothing] at inside ⊢
    rw [size_of_destination direct found] at inside
    exact DeviceMemory.byteAt?_of_read (read_of_destination direct found) inside
  · rw [begins] at talk
    obtain ⟨_, rfl⟩ := talk_of_failed talk
    exact absurd inside (Nat.not_lt_zero index)

theorem received_of_talk {begun : Nat} {events : List Event} {receiver : Receiver.State}
    (talk : Talk (Receiver.party supervisor.receiver) (supervisor.receive begun) events receiver)
    {image : Received} (reports : receiver.stage = .finished (.ok image)) :
    receiver.session.stage.received = image.length := by
  obtain ⟨before, _, begins⟩ | ⟨fault, _, begins⟩ := receive_cases supervisor begun
  · rw [begins] at talk
    exact Receiver.received_of_talk talk reports
  · rw [begins] at talk
    obtain ⟨_, rfl⟩ := talk_of_failed talk
    cases reports

theorem idle_of_loadWriter? (nobody : supervisor.loadWriter? bytes = none) :
    Loader.Idle supervisor.device
      (supervisor.loader.loadBytes supervisor.window supervisor.device bytes) := by
  apply Loader.idle_of_not_copies
  rw [loadWriter?] at nobody
  split at nobody
  · cases nobody
  · exact Bool.eq_false_iff.mpr ‹_›

theorem loadWriter?_ne_receiver : supervisor.loadWriter? bytes ≠ some .receiver := by
  rw [loadWriter?]
  split <;> exact nofun

theorem concluded_of_stops {receiver : Receiver.State} {now : Nat}
    (stops : supervisor.sessionParty receiver now = .done (result, next)) :
    ∃ outcome, receiver.stage = .finished outcome ∧
      supervisor.engaged.conclude outcome receiver.destination = (result, next) := by
  obtain ⟨⟨outcome, after⟩, done, concluded⟩ := Party.concluding_eq_done_iff.mp stops
  obtain ⟨stage, rfl⟩ := Receiver.stage_of_done done
  exact ⟨outcome, stage, concluded⟩

/-- The end of a session that has received nothing straight into place is idle. -/
theorem idle_of_direct (direct : supervisor.mode = .direct) {outcome : Except Fault Received}
    {received : Buffer}
    (lands : (supervisor.engaged.land received).device = supervisor.device)
    (nothing : ∀ image, outcome = .ok image → image.length = 0)
    (concluded : supervisor.engaged.conclude outcome received = (result, next)) :
    Loader.Idle supervisor.device (result, next.device) := by
  cases outcome with
  | error fault =>
      cases concluded
      exact .of_fault lands fault
  | ok image =>
      have launched : (supervisor.engaged.land received).launch image.length =
          supervisor.loader.runInPlace supervisor.window supervisor.device 0 := by
        obtain ⟨window, loader, _, mode⟩ := setup_eq_iff.mp
          ((setup_land supervisor.engaged received).trans (setup_engaged supervisor))
        rw [launch, mode, direct, lands, window, loader, nothing image rfl]
      rw [conclude, launched] at concluded
      exact idle_of_settle concluded Loader.idle_of_empty

theorem idle_of_staged (staged : supervisor.mode = .staged) {outcome : Except Fault Received}
    {received : Buffer}
    (nobody : ∀ image, outcome = .ok image →
      supervisor.loadWriter? (Buffer.slice received 0 image.length) = none)
    (concluded : supervisor.engaged.conclude outcome received = (result, next)) :
    Loader.Idle supervisor.device (result, next.device) := by
  have lands : supervisor.engaged.land received = { supervisor with staging := received } := by
    rw [engaged, staged]
    dsimp only
    rw [land, staged]
  cases outcome with
  | error fault =>
      rw [conclude, lands] at concluded
      cases concluded
      exact .of_fault rfl fault
  | ok image =>
      rw [conclude, lands, launch] at concluded
      dsimp only at concluded
      rw [staged] at concluded
      exact idle_of_settle concluded (idle_of_loadWriter? (nobody image rfl))

/-- **An operation in which nobody has written anything leaves the device alone**, and does not
return. -/
theorem Operation.idle (operation : Operation supervisor none result next) :
    Loader.Idle supervisor.device (result, next.device) := by
  generalize whom : (none : Option Writer) = writer? at operation
  cases operation with
  | @session begun _ events receiver _ _ talk stops =>
      obtain ⟨outcome, stage, concluded⟩ := concluded_of_stops stops
      replace talk := Party.talk_concluding_iff.mp talk
      rw [sessionWriter?] at whom
      cases chosen : supervisor.mode with
      | direct =>
          rw [chosen] at whom
          dsimp only at whom
          split at whom
          · rename_i nothing
            refine idle_of_direct chosen (device_land_of_talk talk nothing) ?_ concluded
            rintro image rfl
            rw [← received_of_talk talk stage, nothing]
          · cases whom
      | staged =>
          rw [chosen, stage] at whom
          refine idle_of_staged chosen ?_ concluded
          rintro image rfl
          exact whom.symm
  | stored source name =>
      rw [storedWriter?] at whom
      rw [runNamed]
      cases found : source name with
      | error fault => exact .of_fault rfl fault
      | ok bytes =>
          rw [found] at whom
          dsimp only at whom ⊢
          exact idle_of_settle rfl (idle_of_loadWriter? whom.symm)

/-- With a staging buffer the receiver does not write to the code region. -/
theorem sessionWriter?_ne_receiver (staged : supervisor.mode = .staged)
    (receiver : Receiver.State) : supervisor.sessionWriter? receiver ≠ some .receiver := by
  rw [sessionWriter?, staged]
  dsimp only
  split
  · exact loadWriter?_ne_receiver
  · exact nofun

/-- **When the code region is valid after an operation, this one has returned, or it has come
to a fault and was not noted.**  In that case the region was valid before, and the receiver
has not written there. -/
theorem Operation.valid_cases (operation : Operation supervisor writer? result next)
    (valid : next.valid = true) :
    (∃ status, result = .ok (.returned status)) ∨
      (∃ fault, result = .error fault) ∧ supervisor.valid = true ∧ writer? ≠ some .receiver := by
  cases operation with
  | @session _ _ _ receiver _ _ _ stops =>
      obtain ⟨outcome, _, concluded⟩ := concluded_of_stops stops
      cases outcome with
      | error fault =>
          cases concluded
          rw [valid_land, valid_engaged_iff] at valid
          exact .inr ⟨⟨fault, rfl⟩, valid.2, sessionWriter?_ne_receiver valid.1 receiver⟩
      | ok image =>
          rw [conclude] at concluded
          rcases valid_of_settle concluded valid with returned | ⟨failed, kept⟩
          · exact .inl returned
          · rw [valid_land, valid_engaged_iff] at kept
            exact .inr ⟨failed, kept.2, sessionWriter?_ne_receiver kept.1 receiver⟩
  | stored source name =>
      rw [runNamed] at valid ⊢
      rw [storedWriter?]
      cases found : source name with
      | error fault =>
          rw [found] at valid
          exact .inr ⟨⟨fault, rfl⟩, valid, (Option.some_ne_none _).symm⟩
      | ok bytes =>
          rw [found] at valid
          rcases valid_of_settle rfl valid with returned | ⟨failed, kept⟩
          · exact .inl returned
          · exact .inr ⟨failed, kept, loadWriter?_ne_receiver⟩

end Operations

/-! ## Histories -/

section Histories

variable {layout : Layout} {config : Receiver.Config} {loader : Loader σ} {mode : Mode} {board : σ}
variable {first supervisor : Supervisor σ} {last : Option Write}

theorem valid_of_create (created : create layout config loader mode board = .ok first) :
    first.valid = false := by
  rw [create] at created
  cases windowed : layout.window with
  | error fault =>
      rw [windowed] at created
      cases created
  | ok window =>
      rw [windowed] at created
      cases created
      rfl

/-- When the code region is valid, the last write there has returned or has failed. -/
theorem returns_or_fails (fresh : first.valid = false) (history : History first last supervisor)
    (valid : supervisor.valid = true) :
    ∃ write, last = some write ∧ (write.Returns ∨ write.Fails) := by
  induction history with
  | begin => exact absurd valid (Bool.eq_false_iff.mp fresh)
  | @step last supervisor next writer? result before operation ih =>
      rcases operation.valid_cases valid with ⟨status, returned⟩ | ⟨failed, earlier, loads⟩
      · -- Whoever returns has written.
        cases writer? with
        | none => exact absurd returned (operation.idle.unrun status)
        | some writer => exact ⟨⟨writer, result⟩, rfl, .inl ⟨status, returned⟩⟩
      · cases writer? with
        | none => exact ih earlier
        | some writer =>
            cases writer with
            | receiver => exact absurd rfl loads
            | loader => exact ⟨⟨.loader, result⟩, rfl, .inr ⟨rfl, failed⟩⟩

/-- **A valid code region holds an image that has returned, but for loads that have failed.**
Whatever sessions and stored images a supervisor has been through, in either mode: when the
code region is valid, the last operation that has written there has returned, unless it was a
load that has come to a fault after its image was copied.  An operation in which nobody has
written there leaves the device alone, and does not return. -/
theorem returns_iff_of_history (created : create layout config loader mode board = .ok first)
    (history : History first last supervisor) :
    (supervisor.valid = true → ∃ write, last = some write ∧ (write.Returns ↔ ¬ write.Fails)) ∧
      ∀ result next, Operation supervisor none result next →
        Loader.Idle supervisor.device (result, next.device) := by
  refine ⟨fun valid => ?_, fun _ _ operation => operation.idle⟩
  have fresh := valid_of_create created
  obtain ⟨write, latest, returns | fails⟩ := returns_or_fails fresh history valid
  · refine ⟨write, latest, iff_of_true returns ?_⟩
    rintro ⟨_, fault, failed⟩
    obtain ⟨status, returned⟩ := returns
    cases failed.symm.trans returned
  · refine ⟨write, latest, iff_of_false ?_ (not_not_intro fails)⟩
    rintro ⟨status, returned⟩
    obtain ⟨_, fault, failed⟩ := fails
    cases failed.symm.trans returned

end Histories

/-- A session runs the byte 65, and a stored image is not found after that. -/
theorem returns_of_single_byte :
    ∃ last supervisor, History small last supervisor ∧ supervisor.valid = true ∧
      ((supervisor.valid = true → ∃ write, last = some write ∧ (write.Returns ↔ ¬ write.Fails)) ∧
        ∀ result next, Operation supervisor none result next →
          Loader.Idle supervisor.device (result, next.device)) := by
  obtain ⟨receiver, talk, now, stops⟩ := small_ends
  have history := (History.begin.step (.session talk stops)).step
    (.stored (fun _ => .error (.io ⟨.notFound, "no such image"⟩)) "boot.bin")
  exact ⟨_, _, history, rfl, returns_iff_of_history small_created history⟩

/-- A supervisor like the small one, whose board returns from its first run and fails in the
second. -/
def failing : Supervisor ScriptedBoard where
  layout := small.layout
  window := small.window
  loader := ⟨ScriptedBoard.board, false⟩
  receiver := small.receiver
  mode := .staged
  device := ⟨.zeroed ⟨0, 64⟩, { actions := [{}, { failure := some "trap" }] }⟩
  staging := small.staging

/-- **A code region may stay valid when the image that was in it has been overwritten.**  One
stored image returns, and the next one is copied over it and fails. -/
theorem not_returns_of_failing :
    create small.layout {} ⟨ScriptedBoard.board, false⟩ .staged
        { actions := [{}, { failure := some "trap" }] } = .ok failing ∧
      ¬ ∀ last supervisor, History failing last supervisor → supervisor.valid = true →
        ∃ write, last = some write ∧ write.Returns := by
  refine ⟨rfl, fun claimed => ?_⟩
  have history := ((@History.begin _ failing).step
    (.stored (fun _ => .ok [65]) "a.bin")).step (.stored (fun _ => .ok [66, 67]) "b.bin")
  obtain ⟨write, latest, status, returned⟩ := claimed _ _ history rfl
  cases latest
  cases returned

end Supervisor

end Overlay
