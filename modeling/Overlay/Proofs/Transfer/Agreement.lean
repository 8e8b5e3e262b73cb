import Overlay.Proofs.Transfer.Replies

/-!
# What a report of the sender says about the receiver

The way from the sender to the receiver may alter bytes, though it keeps their
number and their order.  The way back is faithful: what the sender hears is what
the receiver has said, and no write of the receiver lapses.  The sender compares
the checksum of the receiver with its own, and the receiver compares it with the
checksum word that has arrived.

A sender that reports success leaves a receiver that is done, and that has stored
an image with the checksum of the sender's (`receipt_of_report`).  The receiver
accepts that image exactly if the checksum word has arrived unaltered: a sender may
report success although the receiver has refused what it has received
(`not_accepted_of_report`).
-/

set_option autoImplicit false

namespace Overlay.Transfer

open Party (Event Step Talk Ends heard said)
open Session (bound reading)

/-- What a receiver makes of an image with a given checksum when it expects another,
or the same. -/
def receipt (length : Nat) (expected actual : UInt32) : Except Fault Received :=
  if expected = actual then .ok ⟨length, actual⟩ else .error (.checksumMismatch expected actual)

section Agreement

variable {capacity : UInt32} {before : Buffer} {stream : Bytes} {final : Session.Reading}

theorem whole_of_verified (reads : Session.Reads capacity before stream final) {actual : UInt32}
    (verified : final.replies = [.sizeAck, .verify actual]) :
    ∃ size expected data extra,
      stream = Word.encode size ++ (Word.encode expected ++ (data ++ extra)) ∧
        data.length = size.toNat ∧ ¬ bound capacity before < size ∧ checksum data = actual ∧
        final.session.stage = .complete size expected actual ∧
        final.destination = Buffer.store before 0 data := by
  cases reads with
  | idle | size _ _ | refused _ _ | checksum _ _ | image _ _ _ => cases verified
  | @whole size fits expected data length extra =>
      cases verified
      exact ⟨size, expected, data, extra, rfl, length, fits, rfl, rfl, rfl⟩

/-- A whole session is concluded by comparing the two checksums. -/
theorem conclude_eq_receipt {size expected actual : UInt32} {outcome : Session.Outcome}
    (ended : (Session.Stage.complete size expected actual).outcome = some outcome) :
    Receiver.conclude outcome = receipt size.toNat expected actual := by
  rw [Session.Stage.outcome] at ended
  rw [receipt]
  split at ended
  · rw [if_pos ‹_›]
    cases ended
    rfl
  · rw [if_neg ‹_›]
    cases ended
    rfl

variable {hostConfig : Sender.Config} {deviceConfig : Receiver.Config} {image arrived : Bytes}
variable {progress after : Progress} {begun started : Nat} {report : Sender.Report}
variable {hostEvents deviceEvents : List Event} {state : Receiver.State}

/-- **A sender that reports success leaves a receiver that is done with an image of the
same checksum**: it has stored at most as many bytes as the sender has sent, and
accepts them exactly if the checksum word that has arrived is that checksum.  They
are as many as the sender has sent if the size word has arrived unaltered.  No write of the
receiver has lapsed: one that has could have brought its whole reply to the sender, and have
ended the transfer of the receiver all the same. -/
theorem receipt_of_report
    (sent : Ends (Sender.party hostConfig image) (Sender.start hostConfig image progress begun)
      hostEvents (.ok report, after))
    (talk : Talk (Receiver.party deviceConfig) (Receiver.start deviceConfig before started)
      deviceEvents state)
    (faithful : heard hostEvents <+: said deviceEvents)
    (through : ∀ part lapse, Event.unsaid part lapse ∉ deviceEvents)
    (altered : arrived.length = (Sender.stream image).length)
    (listened : heard deviceEvents <+: arrived) :
    ∃ size expected data extra,
      arrived = Word.encode size ++ (Word.encode expected ++ (data ++ extra)) ∧
        data.length = size.toNat ∧ size.toNat ≤ image.length ∧
        checksum data = checksum image ∧
        (∀ now, Receiver.party deviceConfig state now =
          .done (receipt size.toNat expected (checksum image), Buffer.store before 0 data)) ∧
        (size = Sender.sizeWord image → size.toNat = image.length) := by
  obtain ⟨bounded, _, verified, _⟩ := Sender.verified_of_ends sent
  obtain ⟨waiting, joined⟩ := faithful
  have reads := Session.reading_reads (bound deviceConfig.maxImageSize before) before
    (heard deviceEvents)
  obtain conduct | ⟨lapsed, inside, failed⟩ := Receiver.conduct_of_talk talk
  · obtain ⟨count, replies, spoken, answers, called, _, complete⟩ := replied_of_conduct conduct
    have replied : Replied (heard hostEvents) waiting count replies [] :=
      ⟨by rw [joined, spoken, List.append_nil], answers, called, fun any => absurd rfl any⟩
    obtain ⟨actual, rfl, word⟩ := replied.of_verified verified
    obtain ⟨rfl, _⟩ := Word.encode_append_inj word
    obtain ⟨same, outcome, ended, rfl⟩ := complete (.verified _)
    obtain ⟨size, expected, data, extra, stream, length, _, same, stage, stored⟩ :=
      whole_of_verified reads same.symm
    rw [stage] at ended
    have stops (now : Nat) : Receiver.party deviceConfig
        (.having (reading (bound deviceConfig.maxImageSize before) before (heard deviceEvents))
          started (.finished (Receiver.conclude outcome))) now =
        .done (receipt size.toNat expected (checksum image), Buffer.store before 0 data) := by
      rw [← conclude_eq_receipt ended, ← stored]
      rfl
    obtain ⟨unheard, rfl⟩ := listened
    rw [stream] at altered ⊢
    refine ⟨size, expected, data, extra ++ unheard, ?_, length, ?_, same, ?_, ?_⟩
    · simp only [List.append_assoc]
    · simp only [Sender.stream, List.length_append, Word.length_encode] at altered
      omega
    · rw [← stream]
      exact stops
    · rintro rfl
      rw [Sender.sizeWord, UInt32.toNat_ofNat_of_lt' bounded]
  · generalize spoken : said deviceEvents = output at failed
    generalize heard deviceEvents = input at reads failed
    cases failed with
    | unsaid _ _ _ _ _ => exact absurd inside (through _ _)
    | unheard count takes lapse =>
        have replied : Replied (heard hostEvents) waiting (count + 1) _ [] :=
          ⟨by rw [joined, spoken, List.append_nil], answers_of_reads reads, nofun,
            fun any => absurd rfl any⟩
        obtain ⟨actual, replies, _⟩ := replied.of_verified verified
        have complete := (complete_iff_of_reads reads).mp (replies ▸ .verified actual)
        exact absurd takes complete

end Agreement

/-! ## An altered checksum word -/

/-- A sender of the single byte 65 that is answered with the checksum of its image. -/
theorem host_ends :
    Ends (Sender.party {} [65]) (Sender.start {} [65] {} 0)
      [.heard [0xC0], .said [1, 0, 0, 0], .heard [0xC1], .said (Word.encode (checksum [65])),
        .said [65], .heard [0xF5], .heard (Word.encode (checksum [65]))]
      (.ok ⟨1, 1, checksum [65], checksum [65], 0⟩, ⟨1, some 1⟩) := by
  refine .cons (@Step.heard _ _ _ _ 0 _ _ _ rfl [0xC0] (by decide) (by decide) 0) ?_
  refine .cons (@Step.said _ _ _ _ 0 _ _ _ rfl 0) ?_
  refine .cons (@Step.heard _ _ _ _ 0 _ _ _ rfl [0xC1] (by decide) (by decide) 0) ?_
  refine .cons (@Step.said _ _ _ _ 0 _ _ _ rfl 0) ?_
  refine .cons (@Step.said _ _ _ _ 0 _ _ _ rfl 0) ?_
  refine .cons (@Step.heard _ _ _ _ 0 _ _ _ rfl [0xF5] (by decide) (by decide) 0) ?_
  refine .cons (@Step.heard _ _ _ _ 0 _ _ _ rfl (Word.encode (checksum [65])) (by decide)
    (by decide) 0) ?_
  exact ⟨_, .begin, 0, rfl⟩

/-- A receiver of that byte to which a zero arrives in place of the checksum word. -/
theorem device_talk :
    Talk (Receiver.party {}) (Receiver.start {} #[0, 0] 0)
      [.said [0xC0], .heard [1, 0, 0, 0], .said [0xC1], .heard [0, 0, 0, 0, 65],
        .said (0xF5 :: Word.encode (checksum [65]))]
      ⟨⟨2, .complete 1 0 (checksum [65])⟩, #[65, 0], 0,
        .finished (.error (.checksumMismatch 0 (checksum [65])))⟩ := by
  refine .cons (@Step.said _ _ _ _ 0 _ _ _ rfl 0) ?_
  refine .cons (@Step.heard _ _ _ _ 0 _ _ _ rfl [1, 0, 0, 0] (by decide) (by decide) 0) ?_
  refine .cons (@Step.said _ _ _ _ 0 _ _ _ rfl 0) ?_
  refine .cons (@Step.heard _ _ _ _ 0 _ _ _ rfl [0, 0, 0, 0, 65] (by decide) (by decide) 0) ?_
  refine .cons (@Step.said _ _ _ _ 0 _ _ _ rfl 0) ?_
  exact .begin

/-- The sender reports success, and the receiver is done with the byte. -/
theorem receipt_of_altered_checksum :
    ∃ size expected data extra,
      [1, 0, 0, 0, 0, 0, 0, 0, 65] =
          Word.encode size ++ (Word.encode expected ++ (data ++ extra)) ∧
        data.length = size.toNat ∧ size.toNat ≤ [65].length ∧
        checksum data = checksum [65] ∧
        (∀ now, Receiver.party {} ⟨⟨2, .complete 1 0 (checksum [65])⟩, #[65, 0], 0,
            .finished (.error (.checksumMismatch 0 (checksum [65])))⟩ now =
          .done (receipt size.toNat expected (checksum [65]), Buffer.store #[0, 0] 0 data)) ∧
        (size = Sender.sizeWord [65] → size.toNat = [65].length) :=
  receipt_of_report host_ends device_talk (List.prefix_refl _) (by simp) rfl (List.prefix_refl _)

/-- A success that the sender reports does not mean that the receiver has accepted an
image of the same length. -/
theorem not_accepted_of_report :
    ¬ ∀ (hostConfig : Sender.Config) (deviceConfig : Receiver.Config) (image arrived : Bytes)
        (before : Buffer) (progress after : Progress) (begun started : Nat)
        (report : Sender.Report) (hostEvents deviceEvents : List Event) (state : Receiver.State),
        Ends (Sender.party hostConfig image) (Sender.start hostConfig image progress begun)
          hostEvents (.ok report, after) →
        Talk (Receiver.party deviceConfig) (Receiver.start deviceConfig before started)
          deviceEvents state →
        heard hostEvents <+: said deviceEvents →
        (∀ part lapse, Event.unsaid part lapse ∉ deviceEvents) →
        arrived.length = (Sender.stream image).length →
        heard deviceEvents <+: arrived →
        ∃ received place, (∀ now, Receiver.party deviceConfig state now =
          .done (.ok received, place)) ∧ received.length = image.length := by
  intro accepted
  obtain ⟨received, place, stops, _⟩ := accepted {} {} [65] [1, 0, 0, 0, 0, 0, 0, 0, 65] #[0, 0]
    {} _ 0 0 _ _ _ _ host_ends device_talk (List.prefix_refl _) (by simp) rfl
    (List.prefix_refl _)
  cases stops 0

end Overlay.Transfer
