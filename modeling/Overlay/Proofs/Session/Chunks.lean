import Overlay.Proofs.Session.Reading

/-!
# A session fed in chunks

A driver feeds each chunk that arrives until it is used up or the session is
over, going on behind the used part after every reply.  Every round of this loop
uses input or moves the session to a later stage, so it ends for every session
and every chunk (`consume_shrinks`).

However a stream is cut into chunks, the session comes to the reading of the
whole stream (`feedAll?_eq_reading`).
-/

set_option autoImplicit false

namespace Overlay.Session

/-! ## The loop of a driver -/

/-- How many stages may still follow. -/
def Stage.remaining : Stage → Nat
  | .idle | .awaitSize _ => 3
  | .awaitChecksum _ _ => 2
  | .streaming _ _ _ _ => 1
  | .complete _ _ _ | .rejected _ _ => 0

theorem takeImage_shrinks (session : Session) (size expected : UInt32) (received : Nat)
    (check : Crc32) (used : Nat) (input : Bytes) (destination : Buffer) :
    let step := session.takeImage size expected received check used input destination
    step.session.stage.remaining = 0 ∨
      step.session.stage.remaining = 1 ∧ used ≤ step.consumed ∧
        (input ≠ [] → used < step.consumed) := by
  intro step
  by_cases fewer : received + (input.take (size.toNat - received)).length < size.toNat
  · right
    have stepIs : step.session.stage.remaining = 1 ∧
        step.consumed = used + (input.take (size.toNat - received)).length := by
      simp only [step, takeImage, if_pos fewer, Stage.remaining, and_self]
    rw [stepIs.2]
    refine ⟨stepIs.1, Nat.le_add_right _ _, fun any => ?_⟩
    have := List.length_pos_iff.mpr any
    rw [List.length_take] at fewer ⊢
    omega
  · left
    simp only [step, takeImage, if_neg fewer]
    rfl

theorem uses_pos_of_unknown {word : WordBuffer} {input : Bytes} (any : input ≠ [])
    (unknown : (word.fill input).value? = none) : 0 < word.uses input := by
  rw [WordBuffer.value?_fill] at unknown
  have := List.length_pos_iff.mpr any
  rw [WordBuffer.uses, WordBuffer.room]
  by_cases full : 4 ≤ (word.bytes ++ input).length
  · obtain ⟨value, rest, taken⟩ := Word.exists_take? full
    rw [taken] at unknown
    cases unknown
  · rw [List.length_append] at full
    omega

theorem takeSize_shrinks (session : Session) (word : WordBuffer) {input : Bytes}
    (any : input ≠ []) (destination : Buffer) :
    let step := session.takeSize word input destination
    step.session.stage.remaining ≤ 2 ∨
      step.session.stage.remaining = 3 ∧ 0 < step.consumed := by
  intro step
  cases known : (word.fill input).value? with
  | none =>
      right
      simp only [step, takeSize, known]
      exact ⟨rfl, uses_pos_of_unknown any known⟩
  | some size =>
      left
      simp only [step, takeSize, known]
      split
      · exact Nat.zero_le 2
      · exact Nat.le_refl 2

theorem takeChecksum_shrinks (session : Session) (size : UInt32) (word : WordBuffer)
    {input : Bytes} (any : input ≠ []) (destination : Buffer) :
    let step := session.takeChecksum size word input destination
    step.session.stage.remaining ≤ 1 ∨
      step.session.stage.remaining = 2 ∧ 0 < step.consumed := by
  intro step
  cases known : (word.fill input).value? with
  | none =>
      right
      simp only [step, takeChecksum, known]
      exact ⟨rfl, uses_pos_of_unknown any known⟩
  | some expected =>
      left
      simp only [step, takeChecksum, known]
      have := takeImage_shrinks session size expected 0 Crc32.initial (word.uses input)
        (input.drop (word.uses input)) destination
      omega

/-- **A session that is fed input uses some of it or goes on to a later stage.** -/
theorem consume_shrinks (session : Session) {input : Bytes} (destination : Buffer)
    (any : input ≠ []) (takes : session.stage.finished = false) :
    let step := session.consume input destination
    (input.drop step.consumed).length + step.session.stage.remaining <
      input.length + session.stage.remaining := by
  obtain ⟨capacity, stage⟩ := session
  have length := List.length_pos_iff.mpr any
  intro step
  rw [List.length_drop]
  cases stage with
  | idle =>
      have nonempty : input.isEmpty = false := by simp [any]
      have stepIs : step = takeSize ⟨capacity, .idle⟩ .empty input destination := by
        simp only [step, consume, nonempty]
        rfl
      have := takeSize_shrinks ⟨capacity, .idle⟩ .empty any destination
      rw [← stepIs] at this
      simp only [Stage.remaining] at this ⊢
      omega
  | awaitSize word =>
      have := takeSize_shrinks ⟨capacity, .awaitSize word⟩ word any destination
      change step.session.stage.remaining ≤ 2 ∨
        step.session.stage.remaining = 3 ∧ 0 < step.consumed at this
      change _ < input.length + 3
      omega
  | awaitChecksum size word =>
      have := takeChecksum_shrinks ⟨capacity, .awaitChecksum size word⟩ size word any destination
      change step.session.stage.remaining ≤ 1 ∨
        step.session.stage.remaining = 2 ∧ 0 < step.consumed at this
      change _ < input.length + 2
      omega
  | streaming size expected received check =>
      have := takeImage_shrinks ⟨capacity, .streaming size expected received check⟩ size expected
        received check 0 input destination
      change step.session.stage.remaining = 0 ∨
        step.session.stage.remaining = 1 ∧ 0 ≤ step.consumed ∧
          (input ≠ [] → 0 < step.consumed) at this
      change _ < input.length + 1
      obtain stops | ⟨same, _, used⟩ := this
      · omega
      · have := used any
        omega
  | complete _ _ _ | rejected _ _ => cases takes

theorem eq_consume_of_consume? {session : Session} {input : Bytes} {destination : Buffer}
    {step : Step} (fed : session.consume? input destination = some step) :
    step = session.consume input destination := by
  rw [consume?] at fed
  split at fed
  · cases fed
  · exact (Option.some.inj fed).symm

/-! ## Chunks one after another -/

namespace Reading

/-- A session that begins. -/
def start (capacity : UInt32) (destination : Buffer) : Reading where
  session := { capacity }
  destination := destination
  replies := []
  consumed := 0

/-- What a session has come to after one more step. -/
def next (before : Reading) (step : Step) : Reading where
  session := step.session
  destination := step.destination
  replies := before.replies ++ step.reply.toList
  consumed := before.consumed + step.consumed

/-- Feed a chunk until it is used up or the session is over; `none` where an image
byte would have no place. -/
def feed? (before : Reading) (input : Bytes) : Option Reading :=
  if input = [] ∨ before.session.stage.finished = true then some before
  else
    match _fed : before.session.consume? input before.destination with
    | none => none
    | some step => (before.next step).feed? (input.drop step.consumed)
termination_by input.length + before.session.stage.remaining
decreasing_by
  have goes : ¬(input = [] ∨ before.session.stage.finished = true) := ‹_›
  rw [not_or, Bool.not_eq_true] at goes
  rw [eq_consume_of_consume? _fed]
  exact consume_shrinks before.session before.destination goes.1 goes.2

/-- Feed chunks one after another. -/
def feedAll? (before : Reading) (chunks : List Bytes) : Option Reading :=
  chunks.foldlM feed? before

end Reading

section Chunks

variable {capacity : UInt32} {destination : Buffer} {stream : Bytes}

/-- An open session has a place for every image byte of its next step. -/
theorem consume?_eq_some (takes : (reading capacity destination stream).Open) (input : Bytes) :
    let before := reading capacity destination stream
    before.session.consume? input before.destination =
      some (before.session.consume input before.destination) := by
  intro before
  obtain ⟨_, leads⟩ := consume_leads capacity destination stream input takes
  have kept := (reading_reads capacity destination stream).size_destination
  have room := (reading_reads capacity destination
    (stream ++ input.take (before.session.consume input before.destination).consumed)).received_le
  rw [← leads.session, ← kept] at room
  exact if_neg fun overrun => Nat.not_lt_of_le room overrun.2

/-- A step leads from the reading of what has been used to the reading of that with
what it uses. -/
theorem Step.Leads.next_eq {step : Step} {before after : Reading}
    (leads : step.Leads before after) : before.next step = after := by
  rw [Reading.next, leads.session, leads.destination, ← leads.replies, ← leads.consumed]

/-- **Feeding a chunk leads from the reading of a stream to the reading of the stream
with the chunk behind it.** -/
theorem feed?_reading (capacity : UInt32) (destination : Buffer) (stream input : Bytes) :
    (reading capacity destination stream).feed? input =
      some (reading capacity destination (stream ++ input)) := by
  -- The rest that is fed again is shorter, because a step uses input while there is any.
  induction length : input.length using Nat.strongRecOn generalizing stream input with
  | ind size ih =>
      rw [Reading.feed?]
      by_cases takes : (reading capacity destination stream).Open
      · by_cases used : input = []
        · rw [if_pos (.inl used), used, List.append_nil]
        · have goes : ¬(input = [] ∨
              (reading capacity destination stream).session.stage.finished = true) := by
            rw [not_or, Bool.not_eq_true]
            exact ⟨used, takes⟩
          obtain ⟨uses, leads⟩ := consume_leads capacity destination stream input takes
          have fed := consume?_eq_some takes input
          have shorter : (input.drop ((reading capacity destination stream).session.consume input
              (reading capacity destination stream).destination).consumed).length < size := by
            have := uses.progress used
            have := List.length_pos_iff.mpr used
            rw [List.length_drop]
            omega
          rw [if_neg goes]
          split
          · rename_i none
            rw [fed] at none
            cases none
          · rename_i step some
            rw [fed, Option.some.injEq] at some
            rw [← some, leads.next_eq, ih _ shorter _ _ rfl, List.append_assoc,
              List.take_append_drop]
      · rw [if_pos (.inr (Bool.not_eq_false _ ▸ takes)), reading_append_of_finished takes]

theorem feedAll?_reading (chunks : List Bytes) :
    (reading capacity destination stream).feedAll? chunks =
      some (reading capacity destination (stream ++ chunks.flatten)) := by
  rw [Reading.feedAll?]
  induction chunks generalizing stream with
  | nil => rw [List.foldlM_nil, List.flatten_nil, List.append_nil]; rfl
  | cons chunk rest ih =>
      rw [List.foldlM_cons, feed?_reading, List.flatten_cons, ← List.append_assoc]
      exact ih

theorem outcome_reading {size expected : UInt32} {data : Bytes}
    (fits : ¬ bound capacity destination < size) (length : data.length = size.toNat)
    (extra : Bytes) :
    (reading capacity destination
        (Word.encode size ++ (Word.encode expected ++ (data ++ extra)))).session.stage.outcome =
      some (if expected = checksum data then .verified size (checksum data)
        else .mismatch size expected (checksum data)) := by
  rw [reading_whole fits length]
  exact (apply_ite some _ _ _).symm

/-- **However a stream is cut into chunks, the session comes to its reading**: the
replies, the stage with all that it has gathered, the number of used bytes and the
destination are those of the stream read at once.  The image bytes that were stored
have their place in the destination, stand at its front in the order in which they
came, and leave the rest of it alone.  A whole image is verified if its checksum is
the one that was announced. -/
theorem feedAll?_eq_reading (capacity : UInt32) (destination : Buffer) (chunks : List Bytes) :
    let stream := chunks.flatten
    let final := reading capacity destination stream
    (Reading.start capacity destination).feedAll? chunks = some final ∧
      Reads capacity destination stream final ∧
      final.session.stage.received ≤ destination.size ∧
      final.destination.size = destination.size ∧
      (∀ index, final.destination[index]? =
        if index < final.session.stage.received then stream[8 + index]?
        else destination[index]?) ∧
      ∀ size expected data extra,
        stream = Word.encode size ++ (Word.encode expected ++ (data ++ extra)) →
        data.length = size.toNat → ¬ bound capacity destination < size →
        final.session.stage.outcome =
          some (if expected = checksum data then .verified size (checksum data)
            else .mismatch size expected (checksum data)) := by
  intro stream final
  have reads : Reads capacity destination stream final := reading_reads capacity destination stream
  refine ⟨?_, reads, reads.received_le, reads.size_destination, reads.getElem?_destination, ?_⟩
  case refine_2 =>
    intro size expected data extra whole length fits
    simp only [final, whole]
    exact outcome_reading fits length extra
  have fed := @feedAll?_reading capacity destination [] chunks
  rwa [List.nil_append] at fed

end Chunks

end Overlay.Session
