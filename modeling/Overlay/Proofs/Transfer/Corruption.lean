import Overlay.Proofs.Checksum.Burst
import Overlay.Proofs.Receiver.Timely
import Overlay.Proofs.Sender.Timely
import Overlay.Proofs.Session.Chunks

/-!
# No short corruption is accepted

An image is announced with its size and its checksum, and what arrives behind the two words is
altered.  If the alteration is a burst of up to thirty-two bits, the checksums differ, and both
ends find out: the session that is fed the stream ends in a mismatch however the stream is cut, and
on no link does the receiver report an image, or the sender success to the replies.  If what they
wait for comes in time, both report the mismatch (`detected_of_burst`).
-/

set_option autoImplicit false

namespace Overlay.Transfer

open Receiver (calls utter)
open Sender (Undecided Verified sizeWord streamed verdict)
open Session (Reading bound reading)

/-! ## What the two ends hear -/

/-- What is on the wire when an image has been announced and arrives altered. -/
def announced (image altered : Bytes) : Bytes :=
  Word.encode (sizeWord image) ++ (Word.encode (checksum image) ++ altered)

/-- What a receiver says that accepts a size and then has a given checksum. -/
def replies (count : Nat) (actual : UInt32) : Bytes :=
  utter (calls (count + 1) ++ [.sizeAck, .verify actual])

section Readings

variable {capacity : UInt32} {destination : Buffer} {image altered : Bytes}

theorem reading_announced (small : image.length < 4294967296)
    (length : altered.length = image.length)
    (fits : image.length ≤ (bound capacity destination).toNat) :
    reading capacity destination (announced image altered) =
      { session := ⟨capacity, .complete (sizeWord image) (checksum image) (checksum altered)⟩
        destination := Buffer.store destination 0 altered
        replies := [.sizeAck, .verify (checksum altered)]
        consumed := 8 + image.length } := by
  have size := toNat_sizeWord small
  have accepted : ¬ bound capacity destination < sizeWord image := by
    rw [UInt32.lt_iff_toNat_lt, size]
    exact Nat.not_lt_of_le fits
  have whole := @Session.reading_whole _ _ (checksum image) _ _ accepted (length.trans size.symm) []
  rw [List.append_nil, size] at whole
  exact whole

theorem outcome_announced (small : image.length < 4294967296)
    (length : altered.length = image.length)
    (fits : image.length ≤ (bound capacity destination).toNat)
    (differ : checksum image ≠ checksum altered) :
    (reading capacity destination (announced image altered)).session.stage.outcome =
      some (.mismatch (sizeWord image) (checksum image) (checksum altered)) := by
  rw [reading_announced small length fits]
  exact if_neg differ

/-- Calls, acceptance and a checksum are what a sender waits for. -/
theorem verified_replies (count : Nat) (actual : UInt32) :
    Verified (replies count actual) (Word.encode actual) := by
  have sent : replies count actual =
      Marker.ready.byte :: (List.replicate count Marker.ready.byte ++
        Marker.sizeAck.byte :: Marker.verifyAck.byte :: Word.encode actual) := by
    rw [replies, Receiver.utter_calls_succ, Receiver.utter_append, Receiver.utter_calls]
    rfl
  have undecided : Undecided (List.replicate count Marker.ready.byte) := by
    constructor
    · intro among
      exact absurd (List.eq_of_mem_replicate among) (by decide)
    · intro among
      exact absurd (List.eq_of_mem_replicate among) (by decide)
  exact ⟨[], List.not_mem_nil, _, undecided, [], List.not_mem_nil, sent⟩

/-- A receiver that reports an image has heard one with the checksum that was announced. -/
theorem checksum_eq_of_received {config : Receiver.Config} {started : Nat}
    {events : List Party.Event} {received : Received} {place : Buffer}
    (small : image.length < 4294967296) (length : altered.length = image.length)
    (ends : Party.Ends (Receiver.party config) (Receiver.start config destination started) events
      (.ok received, place))
    (front : Party.heard events <+: announced image altered) :
    checksum image = checksum altered := by
  obtain ⟨_, size, data, extra, heard, whole, _, same, _⟩ := Receiver.verified_of_ends ends
  obtain ⟨rest, front⟩ := front
  rw [heard, announced, List.append_assoc, List.append_assoc] at front
  obtain ⟨sizes, words⟩ := Word.encode_append_inj front
  obtain ⟨announces, images⟩ := Word.encode_append_inj words
  rw [List.append_assoc, ← List.append_nil altered] at images
  have full : data.length = altered.length := by
    rw [whole, sizes, toNat_sizeWord small, length]
  obtain ⟨rfl, -⟩ := List.append_inj images full
  exact announces.symm.trans same.symm

/-- A sender that reports success has heard the checksum of its image. -/
theorem checksum_eq_of_reported {config : Sender.Config} {progress bar : Progress}
    {started count : Nat} {actual : UInt32} {events : List Party.Event} {report : Sender.Report}
    (ends : Party.Ends (Sender.party config image) (Sender.start config image progress started)
      events (.ok report, bar))
    (front : Party.heard events <+: replies count actual) : checksum image = actual := by
  obtain ⟨_, _, verified, _⟩ := Sender.verified_of_ends ends
  obtain ⟨rest, front⟩ := front
  have word := (verified.append rest).unique (front ▸ verified_replies count actual)
  rw [← List.append_nil (Word.encode actual)] at word
  exact (Word.encode_append_inj word).1

end Readings

/-! ## Detection -/

/-- Both ends find out that an image has been altered on its way. -/
structure Detected (image altered : Bytes) : Prop where
  /-- A session ends in a mismatch, however what it is fed is cut. -/
  session : ∀ capacity destination chunks,
    image.length ≤ (bound capacity destination).toNat → chunks.flatten = announced image altered →
      ∃ final, (Reading.start capacity destination).feedAll? chunks = some final ∧
        final.session.stage.outcome =
          some (.mismatch (sizeWord image) (checksum image) (checksum altered)) ∧
        final.replies = [.sizeAck, .verify (checksum altered)]
  /-- A receiver reports no image, whatever the link does and wherever it stops. -/
  refused : ∀ config destination started events result place,
    Party.Ends (Receiver.party config) (Receiver.start config destination started) events
      (result, place) → Party.heard events <+: announced image altered →
        ∃ fault, result = .error fault
  /-- A sender of the image reports no success to such replies, whatever the link does and wherever
  it stops. -/
  unreported : ∀ config progress started count events result bar,
    Party.Ends (Sender.party config image) (Sender.start config image progress started) events
      (result, bar) → Party.heard events <+: replies count (checksum altered) →
        ∃ fault, result = .error fault
  /-- A receiver to which all of it comes in time reports the mismatch, having said that it is ready
  and then the replies. -/
  receiver : ∀ config destination (link : ScriptedLink), link.Flowing →
    Receiver.Timely config link.clock link.arrivals →
    image.length ≤ (bound config.maxImageSize destination).toNat →
    link.incoming = announced image altered →
      ∃ after count place,
        (Receiver.party config).ComesTo (Receiver.start config destination link.clock) link
          (.error (.checksumMismatch (checksum image) (checksum altered)), place) after ∧
        after.written = link.written ++ replies count (checksum altered)
  /-- A sender of the image to which such replies come in time reports the mismatch too, having said
  all of the image. -/
  sender : ∀ config progress count (link : ScriptedLink), link.Flowing →
    Sender.Timely (link.clock + config.readyTimeout) config.phaseTimeout link.clock link.arrivals →
    link.incoming = replies count (checksum altered) →
      ∃ after,
        (Sender.party config image).ComesTo (Sender.start config image progress link.clock) link
          (.error (.checksumMismatch (checksum image) (checksum altered)), streamed image) after ∧
        after.written = link.written ++ Sender.stream image

/-- **No short corruption is accepted.**  Whatever differs from an image within thirty-two
consecutive bits of the wire is found out by the session, by the receiver and by the sender. -/
theorem detected_of_burst {image altered : Bytes} (small : image.length < 4294967296)
    (burst : Burst 32 image altered) : Detected image altered where
  session capacity destination chunks fits whole := by
    have fed := @Session.feedAll?_reading capacity destination [] chunks
    rw [List.nil_append, whole] at fed
    refine ⟨_, fed, outcome_announced small burst.length fits (checksum_ne_of_burst burst), ?_⟩
    rw [reading_announced small burst.length fits]
  refused config destination started events result place ends front := by
    cases result with
    | error fault => exact ⟨fault, rfl⟩
    | ok received =>
        exact absurd (checksum_eq_of_received small burst.length ends front)
          (checksum_ne_of_burst burst)
  unreported config progress started count events result bar ends front := by
    cases result with
    | error fault => exact ⟨fault, rfl⟩
    | ok report => exact absurd (checksum_eq_of_reported ends front) (checksum_ne_of_burst burst)
  receiver config destination link flowing timely fits arrived := by
    rw [← Receiver.bound_bound] at fits
    have outcome := outcome_announced small burst.length fits (checksum_ne_of_burst burst)
    rw [← arrived] at outcome
    obtain ⟨after, count, comes, written⟩ :=
      Receiver.comesTo_of_timely config destination flowing timely outcome
    rw [arrived, reading_announced small burst.length fits] at comes written
    exact ⟨after, count, _, comes, written⟩
  sender config progress count link flowing timely arrived := by
    have verified := verified_replies count (checksum altered)
    rw [← arrived] at verified
    obtain ⟨events, final, after, elapsed, course, stops, bar, written⟩ :=
      Sender.exists_course_of_verified progress small flowing timely verified
    rw [verdict, if_neg (checksum_ne_of_burst burst).symm] at stops
    have ends : Sender.party config image final after.clock = _ := Sender.done_of_stage stops _
    rw [bar] at ends
    exact ⟨after, .of_ended course ends, written⟩

/-- Pieces in which an altered image comes to a receiver, after a while and with pauses. -/
def slowly : List (Nat × Bytes) :=
  [(700, (announced [0x13, 0x05, 0x10, 0x00] [0x13, 0x85, 0x0F, 0x00]).take 7),
    (2700, (announced [0x13, 0x05, 0x10, 0x00] [0x13, 0x85, 0x0F, 0x00]).drop 7)]

/-- Six bits in a row that lie across the border of two bytes, and a receiver that they come to
slowly. -/
theorem detected_of_crossing :
    let image : Bytes := [0x13, 0x05, 0x10, 0x00]
    let altered : Bytes := [0x13, 0x85, 0x0F, 0x00]
    let link : ScriptedLink := { arrivals := slowly.map fun piece => ⟨piece.1, .data piece.2⟩ }
    Burst 32 image altered ∧ Detected image altered ∧
      ∃ after count place, (Receiver.party {}).ComesTo (Receiver.start {} #[0, 0, 0, 0] 0) link
          (.error (.checksumMismatch (checksum image) (checksum altered)), place) after ∧
        after.written = replies count (checksum altered) := by
  intro image altered link
  have burst : Burst 32 image altered := by
    refine ⟨rfl, by decide, 15, fun index differs => ?_⟩
    by_cases inside : index < 32
    · revert differs
      revert index
      decide
    · rw [List.getElem?_eq_none (Nat.le_of_not_lt inside),
        List.getElem?_eq_none (Nat.le_of_not_lt inside)] at differs
      exact absurd rfl differs
  have detected : Detected image altered := detected_of_burst (by decide) burst
  obtain ⟨flowing, arrived⟩ := @ScriptedLink.flowing_of_pieces slowly (by decide)
  have timely : Receiver.Timely {} link.clock link.arrivals := ⟨.inr ⟨by decide, nofun⟩, by decide⟩
  have whole : slowly.flatMap Prod.snd = announced image altered := by
    simp only [slowly, List.flatMap_cons, List.flatMap_nil, List.append_nil,
      List.take_append_drop, image, altered]
  exact ⟨burst, detected, detected.receiver {} #[0, 0, 0, 0] link flowing timely (by decide)
    (arrived.trans whole)⟩

end Overlay.Transfer
