import Overlay.Proofs.Sender.Timely
import Overlay.Proofs.Text

/-!
# Console text on the link

The console of a device shares the link with the protocol.  No byte of a text is a marker, in
whatever way its characters are cut (`Marker.not_mem_utf8`): the lead bytes and the continuation
bytes of UTF-8 leave out the four bytes that the markers use.

So text around the markers of a receiver, and readiness that is repeated within it, makes no
difference to a sender that waits for them: if everything comes in time, it reports the same and
writes the same as without any text (`text_is_passed_over`).
-/

set_option autoImplicit false

namespace Overlay

/-! ## Text -/

namespace Marker

/-- No byte of a character is a marker: those below 128 are no markers, and longer spellings
leave the four bytes of the markers out. -/
theorem not_mem_char (marker : Marker) (char : Char) :
    marker.byte ∉ String.utf8EncodeChar char := by
  intro inside
  have large : 0x80 ≤ marker.byte.toNat := by cases marker <;> decide
  rcases Utf8.bounds_of_mem inside with ⟨_, small⟩ | apart
  · exact Nat.not_lt.mpr large small
  · revert apart
    cases marker <;> decide

/-- **No byte of a text is a marker.** -/
theorem not_mem_utf8 (marker : Marker) (text : String) : marker.byte ∉ utf8 text := by
  rw [utf8_eq_spell, Utf8.spell, List.mem_flatMap]
  rintro ⟨char, _, inside⟩
  exact marker.not_mem_char char inside

end Marker

namespace Sender

/-! ## Text between the replies -/

/-- What comes from a device that takes an image while its console is in use: text, readiness,
text with readiness anywhere in it, acceptance, text, and the check of the image. -/
def Narrates (image : Bytes) (before between behind : String) (sent : Bytes) : Prop :=
  ∃ mixed, mixed.filter (· ≠ Marker.ready.byte) = utf8 between ∧
    sent = utf8 before ++ Marker.ready.byte :: (mixed ++ Marker.sizeAck.byte ::
      (utf8 behind ++ Marker.verifyAck.byte :: Word.encode (checksum image)))

section Narration

variable {image sent : Bytes} {before between behind : String}

/-- Text with readiness anywhere in it decides nothing. -/
theorem undecided_of_mixed {mixed : Bytes}
    (text : mixed.filter (· ≠ Marker.ready.byte) = utf8 between) : Undecided mixed := by
  have other {marker : Marker} (wanted : marker.byte ≠ Marker.ready.byte) :
      marker.byte ∉ mixed := by
    intro inside
    refine marker.not_mem_utf8 between ?_
    rw [← text, List.mem_filter]
    exact ⟨inside, decide_eq_true wanted⟩
  exact ⟨other (by decide), other (by decide)⟩

theorem Narrates.verified (narrates : Narrates image before between behind sent) :
    Verified sent (Word.encode (checksum image)) := by
  obtain ⟨mixed, text, rfl⟩ := narrates
  exact ⟨utf8 behind, Marker.not_mem_utf8 _ _, mixed, undecided_of_mixed text, utf8 before,
    Marker.not_mem_utf8 _ _, rfl⟩

end Narration

/-! ## What a sender makes of it -/

/-- A report, its elapsed time aside. -/
def Report.untimed (report : Report) : Report := { report with elapsed := 0 }

/-- Over a link a sender comes to a given result, the elapsed time of its report aside, and it
writes given bytes. -/
def Sends (config : Config) (image : Bytes) (progress : Progress) (link : ScriptedLink)
    (outcome : Except Fault Report) (said : Bytes) : Prop :=
  ∃ result bar after,
    (party config image).ComesTo (start config image progress link.clock) link (result, bar)
      after ∧
    result.map Report.untimed = outcome ∧ after.written = link.written ++ said

section Sends

variable {config : Config} {image : Bytes} {progress : Progress} {link : ScriptedLink}

/-- A sender to which the check of its image comes in time sends all of it. -/
theorem sends_of_verified (small : image.length < 4294967296) (flowing : link.Flowing)
    (timely : Timely (link.clock + config.readyTimeout) config.phaseTimeout link.clock
      link.arrivals)
    (verified : Verified link.incoming (Word.encode (checksum image))) :
    Sends config image progress link
      (.ok ⟨image.length, blockCount config image, checksum image, checksum image, 0⟩)
      (stream image) := by
  obtain ⟨events, final, after, elapsed, course, stops, _, written⟩ :=
    exists_course_of_verified progress small flowing timely verified
  rw [verdict, if_pos rfl] at stops
  exact ⟨_, _, after, .of_ended course (done_of_stage stops _), rfl, written⟩

theorem sends_of_large (large : 4294967296 ≤ image.length) :
    Sends config image progress link (.error (.imageTooLarge image.length)) [] := by
  have stops : (start config image progress link.clock).stage =
      .finished (.error (.imageTooLarge image.length)) := by
    rw [start, if_pos large]
  exact ⟨_, _, link, .of_ended .begin (done_of_stage stops _), rfl, (List.append_nil _).symm⟩

end Sends

/-- **Console text never disturbs an upload.**  No byte of a text is a marker.  Over two links on
which a receiver takes an image, with any text around its markers on the one and with none on the
other, however what comes in is cut, and as long as it comes in time, a sender comes to the same
result, its elapsed time aside, and writes the same bytes: all that it has to say of an image
whose length fits in a word, which it reports as verified. -/
theorem text_is_passed_over (config : Config) (image : Bytes) (progress : Progress)
    (before between behind : String) (noisy plain : ScriptedLink)
    (noisyFlows : noisy.Flowing) (plainFlows : plain.Flowing)
    (noisyTimely : Timely (noisy.clock + config.readyTimeout) config.phaseTimeout noisy.clock
      noisy.arrivals)
    (plainTimely : Timely (plain.clock + config.readyTimeout) config.phaseTimeout plain.clock
      plain.arrivals)
    (narrates : Narrates image before between behind noisy.incoming)
    (tells : Narrates image "" "" "" plain.incoming) :
    (∀ (text : String) (marker : Marker), marker.byte ∉ utf8 text) ∧
      ∃ outcome said, Sends config image progress noisy outcome said ∧
        Sends config image progress plain outcome said ∧
        (image.length < 4294967296 → said = stream image ∧
          outcome = .ok ⟨image.length, blockCount config image, checksum image, checksum image,
            0⟩) := by
  refine ⟨fun text marker => marker.not_mem_utf8 text, ?_⟩
  by_cases small : image.length < 4294967296
  · exact ⟨_, _, sends_of_verified small noisyFlows noisyTimely narrates.verified,
      sends_of_verified small plainFlows plainTimely tells.verified, fun _ => ⟨rfl, rfl⟩⟩
  · have large := Nat.le_of_not_lt small
    exact ⟨_, _, sends_of_large large, sends_of_large large, fun fits => absurd fits small⟩

/-- Pieces that come from a device with text on its console: they cut through characters and
through the checksum word, and readiness is repeated inside a character. -/
def narration : List (Nat × Bytes) :=
  [(3, [0xC3]), (7, [0xA9, 0xC0, 0xE2, 0xC0]), (9, [0x82, 0xAC, 0xC0, 0xC1, 0xC3]),
    (2009, 0xBC :: 0xF5 :: (Word.encode (checksum [65])).take 3),
    (2500, (Word.encode (checksum [65])).drop 3)]

/-- The same device without any text. -/
def replies : List (Nat × Bytes) :=
  [(0, [0xC0]), (9, 0xC1 :: 0xF5 :: Word.encode (checksum [65]))]

/-- A single byte is sent to this device with and without text on its console. -/
theorem text_is_passed_over_pieces :
    let verified : Except Fault Report := .ok ⟨1, 1, checksum [65], checksum [65], 0⟩
    Sends {} [65] {} { arrivals := narration.map fun piece => ⟨piece.1, .data piece.2⟩ } verified
        (stream [65]) ∧
      Sends {} [65] {} { arrivals := replies.map fun piece => ⟨piece.1, .data piece.2⟩ } verified
        (stream [65]) := by
  intro verified
  obtain ⟨noisyFlows, noisy⟩ := @ScriptedLink.flowing_of_pieces narration (by decide)
  obtain ⟨plainFlows, plain⟩ := @ScriptedLink.flowing_of_pieces replies (by decide)
  have narrates : Narrates [65] "é" "€" "ü" (narration.flatMap Prod.snd) :=
    ⟨[0xE2, 0xC0, 0x82, 0xAC, 0xC0], by decide, by decide⟩
  have tells : Narrates [65] "" "" "" (replies.flatMap Prod.snd) := ⟨[], by decide, by decide⟩
  obtain ⟨_, outcome, said, sends, sends', whole⟩ :=
    text_is_passed_over {} [65] {} "é" "€" "ü" _ _ noisyFlows plainFlows (by decide) (by decide)
      (noisy ▸ narrates) (plain ▸ tells)
  obtain ⟨rfl, rfl⟩ := whole (by decide)
  exact ⟨sends, sends'⟩

end Sender

end Overlay
