import Overlay.Proofs.Buffer
import Overlay.Proofs.Words
import Overlay.Session

/-!
# A session read at once

What a session has come to is a function of the bytes that it has been fed, and
of nothing else.  The function reads the stream from its front: the size word,
answered with a refusal or an acceptance, the checksum word, and the image.

Feeding input to a session that has come to the reading of a stream leads to the
reading of the stream with the used input behind it (`consume_leads`).
-/

set_option autoImplicit false

namespace Overlay.Session

/-! ## The reading of a stream -/

/-- What a session has come to: its state, what it has stored, what it has answered
and how much input it has used. -/
structure Reading where
  session : Session
  destination : Buffer
  replies : List Reply
  consumed : Nat

/-- The largest image that a session of a given capacity accepts for a destination. -/
def bound (capacity : UInt32) (destination : Buffer) : UInt32 :=
  min capacity (UInt32.ofNat (min destination.size 0xFFFFFFFF))

/-- The reading of what stands behind the size word and the checksum word. -/
def readImage (capacity size expected : UInt32) (destination : Buffer) (image : Bytes) : Reading :=
  let data := image.take size.toNat
  let destination := Buffer.store destination 0 data
  if data.length < size.toNat then
    { session := ⟨capacity, .streaming size expected data.length (Crc32.initial.update data)⟩
      destination
      replies := [.sizeAck]
      consumed := 8 + data.length }
  else
    { session := ⟨capacity, .complete size expected (checksum data)⟩
      destination
      replies := [.sizeAck, .verify (checksum data)]
      consumed := 8 + data.length }

/-- The reading of what stands behind a size word that is accepted. -/
def readAccepted (capacity size : UInt32) (destination : Buffer) (rest : Bytes) : Reading :=
  match Word.take? rest with
  | none =>
      { session := ⟨capacity, .awaitChecksum size (WordBuffer.empty.fill rest)⟩
        destination
        replies := [.sizeAck]
        consumed := 4 + rest.length }
  | some (expected, image) => readImage capacity size expected destination image

/-- What a session has come to when it has been fed a stream. -/
def reading (capacity : UInt32) (destination : Buffer) (stream : Bytes) : Reading :=
  match Word.take? stream with
  | none =>
      { session :=
          ⟨capacity,
            if stream.isEmpty then .idle else .awaitSize (WordBuffer.empty.fill stream)⟩
        destination
        replies := []
        consumed := stream.length }
  | some (size, rest) =>
      if bound capacity destination < size then
        { session := ⟨capacity, .rejected size (bound capacity destination)⟩
          destination
          replies := [.sizeReject (bound capacity destination)]
          consumed := 4 }
      else readAccepted capacity size destination rest

/-- A reading whose session still takes input. -/
def Reading.Open (reading : Reading) : Prop := reading.session.stage.finished = false

/-! ## Cases of a reading -/

section Cases

variable {capacity size expected : UInt32} {destination : Buffer} {stream rest image : Bytes}

theorem reading_nil (capacity : UInt32) (destination : Buffer) :
    reading capacity destination [] =
      { session := ⟨capacity, .idle⟩, destination, replies := [], consumed := 0 } := rfl

theorem reading_short (nonempty : stream ≠ []) (short : stream.length < 4) :
    reading capacity destination stream =
      { session := ⟨capacity, .awaitSize (WordBuffer.empty.fill stream)⟩, destination,
        replies := [], consumed := stream.length } := by
  simp [reading, Word.take?_of_short short, nonempty]

theorem reading_rejected (taken : Word.take? stream = some (size, rest))
    (large : bound capacity destination < size) :
    reading capacity destination stream =
      { session := ⟨capacity, .rejected size (bound capacity destination)⟩, destination,
        replies := [.sizeReject (bound capacity destination)], consumed := 4 } := by
  simp only [reading, taken, if_pos large]

theorem reading_accepted (taken : Word.take? stream = some (size, rest))
    (fits : ¬ bound capacity destination < size) :
    reading capacity destination stream = readAccepted capacity size destination rest := by
  simp only [reading, taken, if_neg fits]

theorem readAccepted_short (short : rest.length < 4) :
    readAccepted capacity size destination rest =
      { session := ⟨capacity, .awaitChecksum size (WordBuffer.empty.fill rest)⟩, destination,
        replies := [.sizeAck], consumed := 4 + rest.length } := by
  simp only [readAccepted, Word.take?_of_short short]

theorem readAccepted_image (taken : Word.take? rest = some (expected, image)) :
    readAccepted capacity size destination rest =
      readImage capacity size expected destination image := by
  simp only [readAccepted, taken]

theorem readImage_partial (fewer : image.length < size.toNat) :
    readImage capacity size expected destination image =
      { session :=
          ⟨capacity, .streaming size expected image.length (Crc32.initial.update image)⟩
        destination := Buffer.store destination 0 image
        replies := [.sizeAck]
        consumed := 8 + image.length } := by
  have whole : image.take size.toNat = image := List.take_of_length_le (by omega)
  simp only [readImage, whole, if_pos fewer]

theorem readImage_complete (enough : size.toNat ≤ image.length) :
    readImage capacity size expected destination image =
      { session := ⟨capacity, .complete size expected (checksum (image.take size.toNat))⟩
        destination := Buffer.store destination 0 (image.take size.toNat)
        replies := [.sizeAck, .verify (checksum (image.take size.toNat))]
        consumed := 8 + size.toNat } := by
  have length : (image.take size.toNat).length = size.toNat := by
    rw [List.length_take]
    omega
  simp only [readImage, length, if_neg (Nat.lt_irrefl size.toNat)]

theorem reading_whole {data : Bytes} (fits : ¬ bound capacity destination < size)
    (length : data.length = size.toNat) (extra : Bytes) :
    reading capacity destination (Word.encode size ++ (Word.encode expected ++ (data ++ extra))) =
      { session := ⟨capacity, .complete size expected (checksum data)⟩
        destination := Buffer.store destination 0 data
        replies := [.sizeAck, .verify (checksum data)]
        consumed := 8 + size.toNat } := by
  have enough : size.toNat ≤ (data ++ extra).length := by
    rw [List.length_append]
    omega
  rw [reading_accepted (Word.take?_encode _ _) fits, readAccepted_image (Word.take?_encode _ _),
    readImage_complete enough, List.take_left' length]

/-- What each length of a stream amounts to, with the stream taken apart into its
words and its image. -/
inductive Reads (capacity : UInt32) (destination : Buffer) : Bytes → Reading → Prop where
  | idle :
      Reads capacity destination []
        { session := ⟨capacity, .idle⟩, destination, replies := [], consumed := 0 }
  | size {start : Bytes} (nonempty : start ≠ []) (short : start.length < 4) :
      Reads capacity destination start
        { session := ⟨capacity, .awaitSize (WordBuffer.empty.fill start)⟩, destination,
          replies := [], consumed := start.length }
  | refused {size : UInt32} (large : bound capacity destination < size) (extra : Bytes) :
      Reads capacity destination (Word.encode size ++ extra)
        { session := ⟨capacity, .rejected size (bound capacity destination)⟩, destination,
          replies := [.sizeReject (bound capacity destination)], consumed := 4 }
  | checksum {size : UInt32} (fits : ¬ bound capacity destination < size) {start : Bytes}
      (short : start.length < 4) :
      Reads capacity destination (Word.encode size ++ start)
        { session := ⟨capacity, .awaitChecksum size (WordBuffer.empty.fill start)⟩, destination,
          replies := [.sizeAck], consumed := 4 + start.length }
  | image {size : UInt32} (fits : ¬ bound capacity destination < size) (expected : UInt32)
      {data : Bytes} (fewer : data.length < size.toNat) :
      Reads capacity destination (Word.encode size ++ (Word.encode expected ++ data))
        { session :=
            ⟨capacity, .streaming size expected data.length (Crc32.initial.update data)⟩
          destination := Buffer.store destination 0 data
          replies := [.sizeAck]
          consumed := 8 + data.length }
  | whole {size : UInt32} (fits : ¬ bound capacity destination < size) (expected : UInt32)
      {data : Bytes} (length : data.length = size.toNat) (extra : Bytes) :
      Reads capacity destination (Word.encode size ++ (Word.encode expected ++ (data ++ extra)))
        { session := ⟨capacity, .complete size expected (checksum data)⟩
          destination := Buffer.store destination 0 data
          replies := [.sizeAck, .verify (checksum data)]
          consumed := 8 + data.length }

theorem reading_reads (capacity : UInt32) (destination : Buffer) (stream : Bytes) :
    Reads capacity destination stream (reading capacity destination stream) := by
  by_cases short : stream.length < 4
  · by_cases fresh : stream = []
    · subst fresh
      exact .idle
    · rw [reading_short fresh short]
      exact .size fresh short
  obtain ⟨size, rest, taken⟩ := Word.exists_take? (Nat.le_of_not_lt short)
  by_cases large : bound capacity destination < size
  · rw [reading_rejected taken large, Word.eq_encode_append taken]
    exact .refused large _
  rw [reading_accepted taken large, Word.eq_encode_append taken]
  by_cases short : rest.length < 4
  · rw [readAccepted_short short]
    exact .checksum large short
  obtain ⟨expected, image, taken⟩ := Word.exists_take? (Nat.le_of_not_lt short)
  rw [readAccepted_image taken, Word.eq_encode_append taken]
  by_cases fewer : image.length < size.toNat
  · rw [readImage_partial fewer]
    exact .image large expected fewer
  · have length : (image.take size.toNat).length = size.toNat := by
      rw [List.length_take]
      omega
    have whole := Reads.whole large expected length (image.drop size.toNat)
    rw [List.take_append_drop, length] at whole
    rw [readImage_complete (Nat.le_of_not_lt fewer)]
    exact whole

end Cases

/-! ## Laws of readings -/

section Laws

variable {capacity : UInt32} {destination : Buffer} {stream : Bytes} {reading' : Reading}

theorem Reads.consumed_le (reads : Reads capacity destination stream reading') :
    reading'.consumed ≤ stream.length := by
  cases reads with
  | idle | size _ _ => exact Nat.le_refl _
  | refused _ _ | checksum _ _ | image _ _ _ | whole _ _ _ _ =>
      simp only [List.length_append, Word.length_encode]
      omega

/-- What comes after the end of a session changes nothing. -/
theorem reading_append_of_finished (finished : ¬ (reading capacity destination stream).Open)
    (extra : Bytes) :
    reading capacity destination (stream ++ extra) = reading capacity destination stream := by
  by_cases short : stream.length < 4
  · refine absurd ?_ finished
    by_cases fresh : stream = []
    · subst fresh
      rfl
    · rw [reading_short fresh short]
      rfl
  obtain ⟨size, rest, taken⟩ := Word.exists_take? (Nat.le_of_not_lt short)
  by_cases large : bound capacity destination < size
  · rw [reading_rejected taken large, reading_rejected (Word.take?_append extra taken) large]
  rw [reading_accepted taken large] at finished
  rw [reading_accepted taken large, reading_accepted (Word.take?_append extra taken) large]
  by_cases short : rest.length < 4
  · rw [readAccepted_short short] at finished
    exact absurd rfl finished
  obtain ⟨expected, image, taken⟩ := Word.exists_take? (Nat.le_of_not_lt short)
  rw [readAccepted_image taken] at finished
  rw [readAccepted_image taken, readAccepted_image (Word.take?_append extra taken)]
  have enough : size.toNat ≤ image.length := by
    refine Nat.le_of_not_lt fun fewer => finished ?_
    rw [readImage_partial fewer]
    rfl
  rw [readImage_complete enough, readImage_complete (by rw [List.length_append]; omega),
    List.take_append_of_le_length enough]

theorem sizeAck_prefix (size : UInt32) (rest : Bytes) :
    [Reply.sizeAck] <+: (readAccepted capacity size destination rest).replies := by
  rw [readAccepted]
  split
  · exact List.prefix_refl _
  · rw [readImage]
    split
    · exact List.prefix_refl _
    · exact ⟨[_], rfl⟩

theorem replies_prefix (capacity : UInt32) (destination : Buffer) {first second : Bytes}
    (part : first <+: second) :
    (reading capacity destination first).replies <+:
      (reading capacity destination second).replies := by
  obtain ⟨extra, rfl⟩ := part
  by_cases takes : (reading capacity destination first).Open
  · have reads := reading_reads capacity destination first
    generalize reading capacity destination first = before at reads takes
    cases reads with
    | idle | size _ _ => exact List.nil_prefix
    | refused _ _ | whole _ _ _ _ => cases takes
    | checksum fits _ | image fits _ _ =>
        rw [List.append_assoc, reading_accepted (Word.take?_encode _ _) fits]
        exact sizeAck_prefix _ _
  · refine ⟨[], ?_⟩
    rw [reading_append_of_finished takes, List.append_nil]

theorem toNat_bound (capacity : UInt32) (destination : Buffer) :
    (bound capacity destination).toNat =
      min capacity.toNat (min destination.size 0xFFFFFFFF) := by
  have size : (UInt32.ofNat (min destination.size 0xFFFFFFFF)).toNat =
      min destination.size 0xFFFFFFFF :=
    UInt32.toNat_ofNat_of_lt' (by simp only [UInt32.size]; omega)
  rw [bound, Word.toNat_min, size]

/-- A size is refused when it is larger than the capacity or than the destination. -/
theorem bound_lt_iff {size : UInt32} :
    bound capacity destination < size ↔ min capacity.toNat destination.size < size.toNat := by
  have := size.toNat_lt
  rw [UInt32.lt_iff_toNat_lt, toNat_bound]
  omega

theorem Reads.size_destination (reads : Reads capacity destination stream reading') :
    reading'.destination.size = destination.size := by
  cases reads with
  | idle | size _ _ | refused _ _ | checksum _ _ => rfl
  | image _ _ _ | whole _ _ _ _ => exact Buffer.size_store _ _ _

theorem Reads.received_le (reads : Reads capacity destination stream reading') :
    reading'.session.stage.received ≤ destination.size := by
  cases reads with
  | idle | size _ _ | refused _ _ | checksum _ _ => exact Nat.zero_le _
  | image fits _ fewer =>
      rw [bound_lt_iff] at fits
      simp only [Stage.received]
      omega
  | whole fits _ _ _ =>
      rw [bound_lt_iff] at fits
      simp only [Stage.received]
      omega

/-- The destination holds the image bytes that have been stored, and behind them
what it held before. -/
theorem Reads.getElem?_destination (reads : Reads capacity destination stream reading')
    (index : Nat) :
    reading'.destination[index]? =
      if index < reading'.session.stage.received then stream[8 + index]?
      else destination[index]? := by
  have room := reads.received_le
  cases reads with
  | idle | size _ _ | refused _ _ | checksum _ _ => exact (if_neg (Nat.not_lt_zero index)).symm
  | @image size _ expected data _ =>
      change data.length ≤ _ at room
      change (Buffer.store destination 0 data)[index]? = if index < data.length then _ else _
      rw [Buffer.getElem?_store, Nat.zero_add, Nat.sub_zero]
      by_cases inside : index < data.length
      · rw [if_pos ⟨Nat.zero_le _, inside, by omega⟩, if_pos inside, ← List.append_assoc,
          List.getElem?_append_right (by simp)]
        simp
      · rw [if_neg (by omega), if_neg inside]
  | @whole size _ expected data length extra =>
      change size.toNat ≤ _ at room
      change (Buffer.store destination 0 data)[index]? = if index < size.toNat then _ else _
      rw [Buffer.getElem?_store, Nat.zero_add, Nat.sub_zero]
      by_cases inside : index < data.length
      · rw [if_pos ⟨Nat.zero_le _, inside, by omega⟩, if_pos (by omega), ← List.append_assoc,
          List.getElem?_append_right (by simp)]
        simp [List.getElem?_append_left inside]
      · rw [if_neg (by omega), if_neg (by omega)]

end Laws

/-! ## Feeding input -/

/-- A step that leads from one reading to another by using a part of the input. -/
structure Step.Leads (step : Step) (before after : Reading) : Prop where
  session : step.session = after.session
  destination : step.destination = after.destination
  replies : after.replies = before.replies ++ step.reply.toList
  consumed : after.consumed = before.consumed + step.consumed

/-- How much of its input a step uses: some of it if there is any, and all of it
unless a reply is due first. -/
structure Step.Uses (step : Step) (input : Bytes) : Prop where
  bounded : step.consumed ≤ input.length
  progress : input ≠ [] → 0 < step.consumed
  exhausted : step.reply = none → step.consumed = input.length

section Feeding

variable {capacity size : UInt32} {destination : Buffer}

theorem takeImage_leads (session : Session) (same : session.capacity = capacity)
    (expected : UInt32) (destination : Buffer) {data : Bytes}
    (bounded : data.length ≤ size.toNat) (used : Nat) (input : Bytes)
    (before : Reading) (replies : before.replies = [.sizeAck])
    (consumed : before.consumed + used = 8 + data.length) :
    let step := session.takeImage size expected data.length (Crc32.initial.update data) used input
      (Buffer.store destination 0 data)
    let chunk := input.take (size.toNat - data.length)
    step.consumed = used + chunk.length ∧
      (step.reply = none → chunk.length = input.length) ∧
      step.Leads before (readImage capacity size expected destination (data ++ chunk)) := by
  subst same
  intro step chunk
  have stored : Buffer.store (Buffer.store destination 0 data) data.length chunk =
      Buffer.store destination 0 (data ++ chunk) := by
    rw [Buffer.store_append, Nat.zero_add]
  have checked : (Crc32.initial.update data).update chunk = Crc32.initial.update (data ++ chunk) :=
    (Crc32.update_append _ _ _).symm
  have length : (data ++ chunk).length = data.length + chunk.length := List.length_append
  have chunkLength : chunk.length = min (size.toNat - data.length) input.length :=
    List.length_take
  by_cases fewer : data.length + chunk.length < size.toNat
  · have stepIs : step =
        { session := ⟨session.capacity, .streaming size expected (data ++ chunk).length
            (Crc32.initial.update (data ++ chunk))⟩
          destination := Buffer.store destination 0 (data ++ chunk)
          consumed := used + chunk.length
          stored := chunk.length
          reply := none } := by
      simp only [step, takeImage]
      rw [if_pos fewer, stored, checked, length]
    rw [stepIs, readImage_partial (by omega)]
    refine ⟨rfl, fun _ => by omega, rfl, rfl, ?_, ?_⟩
    · simp [replies]
    · simp only [length]
      omega
  · have whole : (data ++ chunk).take size.toNat = data ++ chunk :=
      List.take_of_length_le (by omega)
    have stepIs : step =
        { session := ⟨session.capacity, .complete size expected (checksum (data ++ chunk))⟩
          destination := Buffer.store destination 0 (data ++ chunk)
          consumed := used + chunk.length
          stored := chunk.length
          reply := some (.verify (checksum (data ++ chunk))) } := by
      simp only [step, takeImage]
      rw [if_neg fewer, stored, checked]
      rfl
    rw [stepIs, readImage_complete (by omega), whole]
    refine ⟨rfl, nofun, rfl, rfl, ?_, ?_⟩
    · simp [replies]
    · simp only
      omega

theorem takeChecksum_leads (session : Session) (same : session.capacity = capacity)
    {rest : Bytes} (short : rest.length < 4) (input : Bytes) (before : Reading)
    (replies : before.replies = [.sizeAck]) (consumed : before.consumed = 4 + rest.length) :
    let step := session.takeChecksum size (WordBuffer.empty.fill rest) input destination
    step.Uses input ∧ step.Leads before
      (readAccepted capacity size destination (rest ++ input.take step.consumed)) := by
  intro step
  obtain ⟨uses, unknown, few⟩ | ⟨expected, uses, enough, known, taken⟩ :=
    WordBuffer.fill_cases short input
  · have stepIs : step =
        { session := ⟨session.capacity, .awaitChecksum size (WordBuffer.empty.fill (rest ++ input))⟩
          destination
          consumed := input.length
          stored := 0
          reply := none } := by
      simp only [step, takeChecksum, uses, WordBuffer.fill_fill, unknown]
    rw [stepIs]
    simp only [List.take_length]
    rw [readAccepted_short few, same]
    refine ⟨⟨Nat.le_refl _, List.length_pos_iff.mpr, fun _ => rfl⟩, rfl, rfl, ?_, ?_⟩
    · simp [replies]
    · simp only [consumed, List.length_append]
      omega
  · have stepIs : step = session.takeImage size expected 0 (Crc32.initial.update [])
        (4 - rest.length) (input.drop (4 - rest.length)) (Buffer.store destination 0 []) := by
      simp only [step, takeChecksum, uses, WordBuffer.fill_fill, known]
      rfl
    have nothing : ([] : Bytes).length ≤ size.toNat := Nat.zero_le _
    have start : before.consumed + (4 - rest.length) = 8 + ([] : Bytes).length := by
      rw [consumed, List.length_nil]
      omega
    obtain ⟨used, exhausted, leads⟩ := takeImage_leads session same expected destination nothing
      (4 - rest.length) (input.drop (4 - rest.length)) before replies start
    rw [List.length_nil, Nat.sub_zero] at used exhausted leads
    have split : input.take step.consumed = input.take (4 - rest.length) ++
        (input.drop (4 - rest.length)).take size.toNat := by
      rw [stepIs, used, List.take_add, List.length_take, ← List.take_eq_take_min]
    rw [split, ← List.append_assoc, readAccepted_image (Word.take?_append _ taken), stepIs]
    refine ⟨⟨?_, ?_, ?_⟩, leads⟩
    · rw [used, List.length_take, List.length_drop]
      omega
    · intro _
      rw [used]
      omega
    · intro due
      rw [used, exhausted due, List.length_drop]
      omega

theorem takeSize_leads (session : Session) (same : session.capacity = capacity)
    {start : Bytes} (short : start.length < 4) {input : Bytes} (nonempty : start ++ input ≠ [])
    (before : Reading) (replies : before.replies = []) (consumed : before.consumed = start.length) :
    let step := session.takeSize (WordBuffer.empty.fill start) input destination
    step.Uses input ∧ step.Leads before
      (reading capacity destination (start ++ input.take step.consumed)) := by
  subst same
  intro step
  obtain ⟨uses, unknown, few⟩ | ⟨size, uses, enough, known, taken⟩ :=
    WordBuffer.fill_cases short input
  · have stepIs : step =
        { session := ⟨session.capacity, .awaitSize (WordBuffer.empty.fill (start ++ input))⟩
          destination
          consumed := input.length
          stored := 0
          reply := none } := by
      simp only [step, takeSize, uses, WordBuffer.fill_fill, unknown]
    rw [stepIs]
    simp only [List.take_length]
    rw [reading_short nonempty few]
    refine ⟨⟨Nat.le_refl _, List.length_pos_iff.mpr, fun _ => rfl⟩, rfl, rfl, ?_, ?_⟩
    · simp [replies]
    · simp only [consumed, List.length_append]
  · by_cases large : bound session.capacity destination < size
    · have stepIs : step =
          { session := ⟨session.capacity, .rejected size (bound session.capacity destination)⟩
            destination
            consumed := 4 - start.length
            stored := 0
            reply := some (.sizeReject (bound session.capacity destination)) } := by
        simp only [step, takeSize, uses, WordBuffer.fill_fill, known]
        exact if_pos large
      rw [stepIs, reading_rejected taken large]
      refine ⟨⟨enough, ?_, nofun⟩, rfl, rfl, ?_, ?_⟩
      · intro _
        simp only
        omega
      · simp [replies]
      · simp only
        omega
    · have stepIs : step =
          { session := ⟨session.capacity, .awaitChecksum size .empty⟩
            destination
            consumed := 4 - start.length
            stored := 0
            reply := some .sizeAck } := by
        simp only [step, takeSize, uses, WordBuffer.fill_fill, known]
        exact if_neg large
      rw [stepIs, reading_accepted taken large, readAccepted_short (by decide)]
      refine ⟨⟨enough, ?_, nofun⟩, rfl, rfl, ?_, ?_⟩
      · intro _
        simp only
        omega
      · simp [replies]
      · simp only [List.length_nil]
        omega

/-- **Feeding a session leads from the reading of what it has used to the reading of
that with what it uses now.** -/
theorem consume_leads (capacity : UInt32) (destination : Buffer) (stream input : Bytes)
    (takes : (reading capacity destination stream).Open) :
    let before := reading capacity destination stream
    let step := before.session.consume input before.destination
    step.Uses input ∧ step.Leads before
      (reading capacity destination (stream ++ input.take step.consumed)) := by
  by_cases fresh : stream = []
  · subst fresh
    rw [reading_nil]
    cases input with
    | nil => exact ⟨⟨Nat.le_refl _, fun any => absurd rfl any, fun _ => rfl⟩, rfl, rfl, rfl, rfl⟩
    | cons byte rest =>
        have none : ([] : Bytes).length < 4 := by decide
        exact takeSize_leads _ rfl none (List.cons_ne_nil byte rest) _ rfl rfl
  by_cases short : stream.length < 4
  · rw [reading_short fresh short]
    exact takeSize_leads _ rfl short (by simp [fresh]) _ rfl rfl
  obtain ⟨size, rest, taken⟩ := Word.exists_take? (Nat.le_of_not_lt short)
  by_cases large : bound capacity destination < size
  · rw [reading_rejected taken large] at takes
    cases takes
  intro before step
  rw [reading_accepted (Word.take?_append _ taken) large]
  revert step before
  rw [reading_accepted taken large] at takes ⊢
  by_cases short : rest.length < 4
  · rw [readAccepted_short short]
    exact takeChecksum_leads _ rfl short input _ rfl rfl
  obtain ⟨expected, image, taken⟩ := Word.exists_take? (Nat.le_of_not_lt short)
  intro before step
  rw [readAccepted_image (Word.take?_append _ taken)]
  revert step before
  rw [readAccepted_image taken] at takes ⊢
  by_cases fewer : image.length < size.toNat
  · rw [readImage_partial fewer]
    intro before step
    obtain ⟨used, exhausted, leads⟩ := takeImage_leads before.session rfl expected destination
      (Nat.le_of_lt fewer) 0 input before rfl rfl
    change step.consumed = _ at used
    change step.reply = none → _ at exhausted
    rw [Nat.zero_add] at used
    have split : input.take step.consumed = input.take (size.toNat - image.length) := by
      rw [used, List.length_take, ← List.take_eq_take_min]
    rw [split]
    refine ⟨⟨?_, ?_, fun due => used.trans (exhausted due)⟩, leads⟩
    · rw [used, List.length_take]
      omega
    · intro any
      have := List.length_pos_iff.mpr any
      rw [used, List.length_take]
      omega
  · rw [readImage_complete (Nat.le_of_not_lt fewer)] at takes
    cases takes

end Feeding

end Overlay.Session
