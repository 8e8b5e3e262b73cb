import Mathlib.Algebra.Order.Floor.Div
import Overlay.Proofs.Link.Prompt
import Overlay.Proofs.Sender.Conduct

/-!
# The account of a sender

What a sender comes to over a prompt link is a function of the bytes that have arrived and of
nothing else, however they are cut.  The function reads them from the left: readiness, a
decision on the size, the check of the image (`account`).  Whatever stands before a marker that
is waited for is passed over, other markers included, and a marker byte inside a word is a part
of the word.

A run over the link comes to the account, with its result, all that it has said and the bytes
that it has left unread (`runScript_eq_account`).
-/

set_option autoImplicit false

namespace Overlay.Sender

open Party (Account Yields)
open ScriptedLink (absence)

/-! ## Markers in a stream -/

/-- The first of the wanted markers in a stream, and what stands behind it. -/
def seek (wanted : List Marker) : Bytes → Option (Marker × Bytes)
  | [] => none
  | byte :: rest =>
      match Marker.ofByte? byte with
      | some marker => if marker ∈ wanted then some (marker, rest) else seek wanted rest
      | none => seek wanted rest

section Seeking

variable {wanted : List Marker} {marker : Marker} {byte : UInt8} {replies rest : Bytes}

theorem wanted_or_noise (wanted : List Marker) (byte : UInt8) :
    (∃ marker ∈ wanted, byte = marker.byte) ∨ ∀ marker ∈ wanted, byte ≠ marker.byte := by
  by_cases found : ∃ marker ∈ wanted, byte = marker.byte
  · exact .inl found
  · exact .inr fun marker among same => found ⟨marker, among, same⟩

theorem seek_cons_byte (among : marker ∈ wanted) (rest : Bytes) :
    seek wanted (marker.byte :: rest) = some (marker, rest) := by
  simp only [seek, Marker.ofByte?_byte, if_pos among]

theorem seek_cons_noise (noise : ∀ marker ∈ wanted, byte ≠ marker.byte) (rest : Bytes) :
    seek wanted (byte :: rest) = seek wanted rest := by
  rw [seek]
  split
  · rename_i marker stands
    exact if_neg fun among => noise marker among (Marker.ofByte?_eq_some.mp stands)
  · rfl

/-- A marker is found when it is wanted and none of the wanted ones stands before it. -/
theorem seek_eq_some_iff : seek wanted replies = some (marker, rest) ↔
    marker ∈ wanted ∧ ∃ noise, replies = noise ++ marker.byte :: rest ∧
      ∀ other ∈ wanted, other.byte ∉ noise := by
  constructor
  · intro found
    induction replies with
    | nil => cases found
    | cons byte replies ih =>
        obtain ⟨first, among, rfl⟩ | noise := wanted_or_noise wanted byte
        · rw [seek_cons_byte among, Option.some.injEq, Prod.mk.injEq] at found
          obtain ⟨rfl, rfl⟩ := found
          exact ⟨among, [], rfl, fun _ _ => List.not_mem_nil⟩
        · rw [seek_cons_noise noise] at found
          obtain ⟨among, before, rfl, none⟩ := ih found
          refine ⟨among, byte :: before, rfl, fun other wants => ?_⟩
          rw [List.mem_cons, not_or]
          exact ⟨fun same => noise other wants same.symm, none other wants⟩
  · rintro ⟨among, noise, rfl, none⟩
    induction noise with
    | nil => exact seek_cons_byte among rest
    | cons byte noise ih =>
        rw [List.cons_append, seek_cons_noise fun other wants same =>
          none other wants (same ▸ List.mem_cons_self)]
        exact ih fun other wants inside => none other wants (List.mem_cons_of_mem _ inside)

end Seeking

/-! ## The account -/

section Account

variable (config : Config) (image : Bytes) (silent : Bool) (progress : Progress)

/-- What a sender comes to, with its progress. -/
abbrev Outcome := Account (Except Fault Report × Progress)

/-- The fault of a sender that waits for something that never comes. -/
def missing (phase : Phase) : Fault := if silent then .timeout phase else .disconnected phase

/-- The fault of a sender that hears no readiness. -/
def unready : Fault := if silent then .noPeer config.readyTimeout else .disconnected .ready

/-- The account of a sender that gives up, with nothing left to read. -/
def broken (fault : Fault) : Outcome := ⟨(.error fault, progress), [], []⟩

/-- The progress of a sender that has said its whole image. -/
def streamed : Progress := ⟨UInt64.ofNat image.length, some (UInt64.ofNat image.length)⟩

/-- The number of blocks that a sequence of bytes is streamed in. -/
def blockCount (data : Bytes) : Nat := data.length ⌈/⌉ max config.blockSize 1

/-- The account of a sender that has said its whole image. -/
def checked (blocks : Nat) (replies : Bytes) : Outcome :=
  match seek [.verifyAck] replies with
  | none => broken (streamed image) (missing silent .verify)
  | some (_, rest) =>
      match Word.take? rest with
      | none => broken (streamed image) (missing silent .verify)
      | some (received, unread) => ⟨(verdict image received blocks 0, streamed image), [], unread⟩

/-- The account of a sender that has said the size of its image. -/
def decided (replies : Bytes) : Outcome :=
  match seek [.sizeAck, .sizeReject] replies with
  | some (.sizeAck, rest) =>
      (checked image silent (blockCount config image) rest).saying
        (Word.encode (checksum image) ++ image)
  | some (.sizeReject, rest) =>
      match Word.take? rest with
      | none => broken progress (missing silent .size)
      | some (capacity, unread) =>
          ⟨(.error (.sizeRejected (sizeWord image) capacity), progress), [], unread⟩
  | _ => broken progress (missing silent .size)

/-- The account of a sender that begins. -/
def account (replies : Bytes) : Outcome :=
  match seek [.ready] replies with
  | none => broken progress (unready config silent)
  | some (_, rest) =>
      (decided config image silent progress rest).saying (Word.encode (sizeWord image))

end Account

theorem fault_absence (silent : Bool) (phase : Phase) :
    (absence silent).fault phase = missing silent phase := by
  cases silent <;> rfl

theorem blockCount_nil (config : Config) : blockCount config [] = 0 :=
  zero_ceilDiv _

theorem blockCount_of_ne_nil (config : Config) {data : Bytes} (any : data ≠ []) :
    blockCount config data = blockCount config (data.drop (max config.blockSize 1)) + 1 := by
  have positive : 0 < max config.blockSize 1 := Nat.le_max_right _ _
  have length := List.length_pos_iff.mpr any
  rw [blockCount, blockCount, List.length_drop]
  generalize max config.blockSize 1 = size at positive ⊢
  have whole : data.length + size - 1 = data.length - 1 + size := by omega
  rw [Nat.ceilDiv_eq_add_pred_div, Nat.ceilDiv_eq_add_pred_div, whole,
    Nat.add_div_right _ positive]
  by_cases last : data.length ≤ size
  · rw [Nat.div_eq_of_lt (show data.length - 1 < size by omega),
      Nat.div_eq_of_lt (show data.length - size + size - 1 < size by omega)]
  · rw [show data.length - size + size - 1 = data.length - 1 by omega]

/-! ## One stage -/

section Stages

variable {config : Config} {image arrived : Bytes} {silent : Bool} {now : Nat} {state : State}
variable {outcome : Outcome}

/-- A sender that waits for a marker passes over whatever is none of the wanted ones. -/
theorem yields_of_seek (wanted : List Marker) (fault : Fault) {timeout : Nat}
    {resume : Nat → Except Lapse Bytes → State}
    (move : party config image state now = .read 1 timeout resume)
    (passes : ∀ byte, (∀ marker ∈ wanted, byte ≠ marker.byte) → resume now (.ok [byte]) = state)
    (lapses : ∀ later, resume later (.error (absence silent)) = state.fail fault)
    (absent : seek wanted arrived = none → outcome = broken state.progress fault)
    (finds : ∀ marker rest, seek wanted arrived = some (marker, rest) →
      Yields (party config image) silent now (resume now (.ok [marker.byte])) rest outcome) :
    Yields (party config image) silent now state arrived outcome := by
  induction arrived with
  | nil =>
      rw [absent rfl]
      refine .of_lapse move fun later later' => ?_
      rw [lapses]
      rfl
  | cons byte rest ih =>
      refine .of_read_byte move ?_
      obtain ⟨marker, among, rfl⟩ | noise := wanted_or_noise wanted byte
      · exact finds marker rest (seek_cons_byte among rest)
      · rw [seek_cons_noise noise] at absent finds
        rw [passes byte noise]
        exact ih absent finds

theorem yields_of_rest {waiting : WordBuffer → State} {timeout : Nat} {phase : Phase}
    {found : Nat → UInt32 → State} {progress : Progress}
    (moves : ∀ word, party config image (waiting word) now =
      readWord timeout phase (waiting word) word waiting found)
    (steady : ∀ word, (waiting word).progress = progress) (start : Bytes)
    (short : start.length < 4)
    (unknown : Word.take? (start ++ arrived) = none →
      outcome = broken progress (missing silent phase))
    (known : ∀ value rest, Word.take? (start ++ arrived) = some (value, rest) →
      Yields (party config image) silent now (found now value) rest outcome) :
    Yields (party config image) silent now (waiting (WordBuffer.empty.fill start)) arrived
      outcome := by
  -- Every read brings at least one of the bytes that are missing.
  induction length : arrived.length using Nat.strongRecOn generalizing start arrived with
  | ind size ih =>
      by_cases none : arrived = []
      · subst none
        rw [List.append_nil] at unknown
        rw [unknown (Word.take?_of_short short), ← fault_absence,
          ← steady (WordBuffer.empty.fill start)]
        exact .of_lapse (moves _) fun _ _ => rfl
      · have room := WordBuffer.room_fill short
        refine .of_read (moves _) (by omega) none fun data rest any bounded front => ?_
        subst front
        rw [room] at bounded
        rw [← List.append_assoc] at unknown known
        simp only [WordBuffer.fill_fill]
        obtain ⟨_, still, few⟩ | ⟨value, _, _, whole, taken⟩ := WordBuffer.fill_cases short data
        · simp only [still]
          have shorter : rest.length < size := by
            have := List.length_pos_iff.mpr any
            rw [List.length_append] at length
            omega
          exact ih rest.length shorter (start ++ data) few unknown known rfl
        · simp only [whole]
          rw [List.take_of_length_le bounded] at taken
          exact known value rest (Word.take?_append rest taken)

theorem yields_of_readWord {waiting : WordBuffer → State} {timeout : Nat} {phase : Phase}
    {found : Nat → UInt32 → State} {progress : Progress}
    (moves : ∀ word, party config image (waiting word) now =
      readWord timeout phase (waiting word) word waiting found)
    (steady : ∀ word, (waiting word).progress = progress)
    (unknown : Word.take? arrived = none → outcome = broken progress (missing silent phase))
    (known : ∀ value rest, Word.take? arrived = some (value, rest) →
      Yields (party config image) silent now (found now value) rest outcome) :
    Yields (party config image) silent now (waiting .empty) arrived outcome :=
  yields_of_rest moves steady [] (by decide) unknown known

theorem yields_of_readMarker (wanted : List Marker) {timeout : Nat} {phase : Phase}
    {found : Nat → Marker → State}
    (move : party config image state now = readMarker timeout phase state found)
    (others : ∀ marker, marker ∉ wanted → found now marker = state)
    (absent : seek wanted arrived = none →
      outcome = broken state.progress (missing silent phase))
    (finds : ∀ marker rest, seek wanted arrived = some (marker, rest) →
      Yields (party config image) silent now (found now marker) rest outcome) :
    Yields (party config image) silent now state arrived outcome := by
  refine yields_of_seek wanted (missing silent phase) move (fun byte noise => ?_)
    (fun later => ?_) absent fun marker rest seeks => ?_
  · simp only [List.head?_cons, Option.bind_some]
    split
    · rename_i marker stands
      exact others marker fun among => noise marker among (Marker.ofByte?_eq_some.mp stands)
    · rfl
  · simp only [fault_absence]
  · simp only [List.head?_cons, Option.bind_some, Marker.ofByte?_byte]
    exact finds marker rest seeks

theorem done_of_verify (config : Config) (image : Bytes) (stage : Stage) (blocks : Nat)
    (received : UInt32) (now later : Nat) :
    party config image (State.verify ⟨now, streamed image, stage⟩ image blocks received now) later =
      .done (verdict image received blocks 0, streamed image) := by
  rw [State.verify, verdict, Nat.sub_self]
  by_cases same : received = checksum image
  · rw [if_pos same, if_pos same]
    rfl
  · rw [if_neg same, if_neg same]
    rfl

/-- A sender that has said its whole image comes to the check of it. -/
theorem yields_checked (config : Config) (image : Bytes) (silent : Bool) (now blocks : Nat)
    (replies : Bytes) :
    Yields (party config image) silent now ⟨now, streamed image, .awaitVerify blocks⟩ replies
      (checked image silent blocks replies) := by
  refine yields_of_readMarker [.verifyAck] rfl (fun marker other => ?_) (fun none => ?_)
    fun marker rest seeks => ?_
  · cases marker with
    | verifyAck => exact absurd (List.mem_singleton.mpr rfl) other
    | ready | sizeAck | sizeReject => rfl
  · rw [checked, none]
  · obtain rfl := List.mem_singleton.mp (seek_eq_some_iff.mp seeks).1
    simp only [checked, seeks]
    let waiting (word : WordBuffer) : State := ⟨now, streamed image, .readVerify blocks word⟩
    have moves (word : WordBuffer) : party config image (waiting word) now =
        readWord config.phaseTimeout .verify (waiting word) word waiting
          fun later received => (waiting .empty).verify image blocks received later := rfl
    refine yields_of_readWord moves (fun _ => rfl) (fun unknown => ?_)
      fun received unread known => ?_
    · rw [unknown]
      rfl
    · rw [known]
      exact .of_done (done_of_verify config image _ blocks received now now)

/-- A sender that streams says the rest of its image block by block. -/
theorem yields_stream (config : Config) (image : Bytes) (silent : Bool) (now blocks sent : Nat)
    (stage : Stage) (replies : Bytes) {rest : Bytes} (whole : sent + rest.length = image.length) :
    Yields (party config image) silent now
      (State.stream ⟨now, ⟨UInt64.ofNat sent, some (UInt64.ofNat image.length)⟩, stage⟩ rest blocks)
      replies ((checked image silent (blocks + blockCount config rest) replies).saying rest) := by
  -- Every block that is written leaves less to stream, since a block has at least one byte.
  induction length : rest.length using Nat.strongRecOn generalizing rest blocks sent stage with
  | ind size ih =>
      by_cases none : rest = []
      · subst none
        obtain rfl : sent = image.length := whole
        rw [blockCount_nil, Account.saying_nil]
        exact yields_checked config image silent now blocks replies
      · have block := List.take_append_drop (max config.blockSize 1) rest
        have shorter : (rest.drop (max config.blockSize 1)).length < size := by
          have := List.length_pos_iff.mpr none
          rw [List.length_drop]
          omega
        have later := ih _ shorter (blocks + 1) (sent + (rest.take (max config.blockSize 1)).length)
          (.streaming rest blocks) (by rw [Nat.add_assoc, ← List.length_append, block, whole]) rfl
        rw [UInt64.ofNat_add, Nat.add_assoc, Nat.add_comm 1, ← blockCount_of_ne_nil config none]
          at later
        rw [← block, ← Account.saying_saying, block, State.stream,
          if_neg (by rwa [List.isEmpty_iff])]
        exact .of_write rfl later

/-- A sender that has said the size of its image comes to the decision on it. -/
theorem yields_decided (config : Config) (image : Bytes) (silent : Bool) (now : Nat)
    (progress : Progress) (replies : Bytes) :
    Yields (party config image) silent now ⟨now, progress, .awaitSizeAck⟩ replies
      (decided config image silent progress replies) := by
  refine yields_of_readMarker [.sizeAck, .sizeReject] rfl (fun marker other => ?_) (fun none => ?_)
    fun marker rest seeks => ?_
  · cases marker with
    | sizeAck | sizeReject => exact absurd (by decide) other
    | ready | verifyAck => rfl
  · rw [decided, none]
  · cases marker with
    | ready | verifyAck => exact absurd (seek_eq_some_iff.mp seeks).1 (by decide)
    | sizeAck =>
        have streams := yields_stream config image silent now 0 0 .sendChecksum rest
          (Nat.zero_add image.length)
        rw [Nat.zero_add] at streams
        simp only [decided, seeks, ← Account.saying_saying]
        exact .of_write rfl streams
    | sizeReject =>
        simp only [decided, seeks]
        let waiting (word : WordBuffer) : State := ⟨now, progress, .readCapacity word⟩
        have moves (word : WordBuffer) : party config image (waiting word) now =
            readWord config.phaseTimeout .size (waiting word) word waiting
              fun _ capacity =>
                (waiting .empty).fail (.sizeRejected (sizeWord image) capacity) := rfl
        refine yields_of_readWord moves (fun _ => rfl) (fun unknown => ?_)
          fun capacity unread known => ?_
        · rw [unknown]
        · rw [known]
          exact .of_done rfl

/-- **A sender that begins comes to its account.** -/
theorem yields_account (config : Config) {image : Bytes} (small : image.length < 4294967296)
    (silent : Bool) (now : Nat) (progress : Progress) (replies : Bytes) :
    Yields (party config image) silent now (start config image progress now) replies
      (account config image silent progress replies) := by
  rw [start, if_neg (Nat.not_le_of_lt small)]
  refine yields_of_seek [.ready] (unready config silent) rfl (fun byte noise => ?_)
    (fun later => ?_) (fun none => ?_) fun marker rest seeks => ?_
  · simp only [List.head?_cons, Option.bind_some]
    split
    · rename_i stands
      exact absurd (Marker.ofByte?_eq_some.mp stands) (noise .ready (List.mem_singleton.mpr rfl))
    · rfl
  · cases silent <;> rfl
  · rw [account, none]
  · obtain rfl := List.mem_singleton.mp (seek_eq_some_iff.mp seeks).1
    simp only [account, seeks]
    exact .of_write rfl (yields_decided config image silent now progress rest)

end Stages

/-! ## Runs -/

/-- **What a sender comes to over a prompt link is told from the replies alone.**  However the
bytes that have arrived are cut, and whatever the timeouts and the size of the blocks, every run
that is long enough ends with the result of the account; the sender has said what the account
says, and has left unread what stands behind the last byte that it needed. -/
theorem runScript_eq_account (config : Config) {image : Bytes}
    (small : image.length < 4294967296) (progress : Progress) {link : ScriptedLink}
    (prompt : link.Prompt) :
    let account := account config image link.silent progress link.incoming
    ∃ moves after, (∀ fuel, moves < fuel →
        (party config image).runScript fuel (start config image progress link.clock) link =
          some (account.result, after)) ∧
      after.written = link.written ++ account.said ∧ after.incoming = account.unread ∧
        after.Prompt ∧ after.silent = link.silent := by
  intro account
  obtain ⟨moves, after, ends, prompt, silent, written, unread⟩ :=
    (yields_account config small link.silent link.clock progress link.incoming).runScript prompt
  exact ⟨moves, after, ends, written, unread, prompt, silent⟩

/-- Replies with noise between them, in pieces that cut through the words, with a marker left
over at the end. -/
def noisyLink : ScriptedLink where
  arrivals :=
    [[0x0A, 0xC1, 0xF5], [0xC0, 0xC0, 0xF5, 0xC1, 0x2E, 0xF5, 0x1D], [0x80, 0xBC],
      [0x55, 0xC0]].map fun piece => ⟨0, .data piece⟩
  silent := false

/-- Three bytes are verified behind noisy replies, and the marker behind them is left unread. -/
theorem runScript_of_noisy_replies :
    noisyLink.Prompt ∧ ∃ moves after, (∀ fuel, moves < fuel →
      (party { blockSize := 0 } [1, 2, 3]).runScript fuel (start { blockSize := 0 } [1, 2, 3] {} 0)
          noisyLink =
        some ((.ok ⟨3, 3, 0x55BC801D, 0x55BC801D, 0⟩, ⟨3, some 3⟩), after)) ∧
      after.written = [3, 0, 0, 0, 0x1D, 0x80, 0xBC, 0x55, 1, 2, 3] ∧
        after.incoming = [Marker.ready.byte] := by
  have prompt : noisyLink.Prompt := (ScriptedLink.prompt_of_pieces (by decide) false).1
  have small : ([1, 2, 3] : Bytes).length < 4294967296 := by decide
  have told : account { blockSize := 0 } [1, 2, 3] false {} noisyLink.incoming =
      ⟨(.ok ⟨3, 3, 0x55BC801D, 0x55BC801D, 0⟩, ⟨3, some 3⟩),
        [3, 0, 0, 0, 0x1D, 0x80, 0xBC, 0x55, 1, 2, 3], [Marker.ready.byte]⟩ := by
    decide +kernel
  obtain ⟨moves, after, ends, written, unread, _⟩ :=
    runScript_eq_account { blockSize := 0 } small {} prompt
  rw [show noisyLink.silent = false from rfl, told] at ends written unread
  exact ⟨prompt, moves, after, ends, written, unread⟩

end Overlay.Sender
