import Overlay.Proofs.Link.Course
import Overlay.Proofs.Sender.Conduct

/-!
# The discipline of a sender

Whatever a link does to a sender, and at whatever moment it stops, the bytes that have been
accepted from the sender are a front of its stream.  Not one of them has been accepted
before readiness was heard, and none behind the size word unless the first decision behind
readiness was an acceptance (`disciplined_of_talk`).  Writes that are cut short, time out or
are not flushed make no difference, since a part of what is due is a front of the stream too.

Nothing is asked of the link: any write may be cut short, and any of them may lapse.  What holds on
every such link (`keeps_discipline`) holds over a script of the bytes that it has brought and
accepted, after every move.
-/

set_option autoImplicit false

namespace Overlay.Sender

open Party (Event Step Talk Course heard said)

/-- What a sender keeps to when it has heard and said given bytes. -/
structure Disciplined (image heard said : Bytes) : Prop where
  /-- What has been said is a front of the size word, the checksum word and the image. -/
  front : said <+: stream image
  /-- Nothing has been said before readiness was heard. -/
  greeted : said ≠ [] → ∃ rest, Greeted heard rest
  /-- Nothing behind the size word has been said unless the first decision on the size that
  was heard behind readiness is an acceptance. -/
  accepted : 4 < said.length → ∃ rest, Answered .sizeAck heard rest

namespace Disciplined

variable {image heard said : Bytes}

theorem silent (image heard : Bytes) : Disciplined image heard [] :=
  ⟨List.nil_prefix, fun any => absurd rfl any, nofun⟩

theorem of_greeted {rest : Bytes} (greeted : Greeted heard rest)
    (part : said <+: Word.encode (sizeWord image)) : Disciplined image heard said where
  front := part.trans (List.prefix_append _ _)
  greeted _ := ⟨rest, greeted⟩
  accepted long := by
    have short := part.length_le
    rw [Word.length_encode] at short
    omega

theorem of_accepted {rest : Bytes} (answered : Answered .sizeAck heard rest)
    (front : said <+: stream image) : Disciplined image heard said where
  front := front
  greeted _ := by
    obtain ⟨noise, _, greeted⟩ := answered
    exact ⟨_, greeted⟩
  accepted _ := ⟨rest, answered⟩

/-- A sender may have heard more. -/
theorem hears (disciplined : Disciplined image heard said) (data : Bytes) :
    Disciplined image (heard ++ data) said where
  front := disciplined.front
  greeted any := by
    obtain ⟨rest, greeted⟩ := disciplined.greeted any
    exact ⟨_, greeted.append data⟩
  accepted long := by
    obtain ⟨rest, answered⟩ := disciplined.accepted long
    exact ⟨_, answered.append data⟩

/-- A sender may have said less. -/
theorem cut {part : Bytes} (disciplined : Disciplined image heard said) (less : part <+: said) :
    Disciplined image heard part where
  front := less.trans disciplined.front
  greeted any := by
    apply disciplined.greeted
    rintro rfl
    exact any (List.prefix_nil.mp less)
  accepted long := disciplined.accepted (Nat.lt_of_lt_of_le long less.length_le)

end Disciplined

/-! ## One step -/

section Steps

variable {config : Config} {image listened spoken : Bytes} {state next : State} {event : Event}

theorem streamed_front {sent rest : Bytes} (whole : sent ++ rest = image) (size : Nat) :
    Word.encode (sizeWord image) ++ (Word.encode (checksum image) ++ sent) ++ rest.take size <+:
      stream image := by
  rw [List.append_assoc, List.append_assoc, stream, List.prefix_append_right_inj,
    List.prefix_append_right_inj]
  have front : sent ++ rest.take size <+: sent ++ rest := by
    rw [List.prefix_append_right_inj]
    exact List.take_prefix _ _
  rwa [whole] at front

theorem Conduct.disciplined {stage : Stage} (conduct : Conduct image stage listened spoken) :
    Disciplined image listened spoken := by
  cases conduct with
  | awaitReady _ _ | sendSize _ => exact .silent _ _
  | awaitSizeAck _ greeted => exact .of_greeted greeted (List.prefix_refl _)
  | readCapacity answered _ | refused answered =>
      obtain ⟨_, _, greeted⟩ := answered
      exact .of_greeted greeted (List.prefix_refl _)
  | sendChecksum answered => exact .of_accepted answered (List.prefix_append _ _)
  | streaming _ answered whole _ =>
      have front := streamed_front whole 0
      rw [List.take_zero, List.append_nil] at front
      exact .of_accepted answered front
  | awaitVerify _ _ answered => exact .of_accepted answered (List.prefix_refl _)
  | readVerify _ verified _ | finished _ _ verified =>
      obtain ⟨_, _, answered⟩ := verified
      exact .of_accepted answered (List.prefix_refl _)

/-- A sender that keeps to its conduct would still be disciplined if all that it is about to write
went through. -/
theorem Conduct.disciplined_of_write {now timeout : Nat} {data : Bytes}
    {resume : Nat → Except Lapse Unit → State}
    (conduct : Conduct image state.stage listened spoken)
    (move : party config image state now = .write data timeout resume) :
    Disciplined image listened (spoken ++ data) := by
  obtain ⟨started, progress, stage⟩ := state
  cases conduct with
  | sendSize greeted =>
      cases move
      exact .of_greeted greeted (List.prefix_refl _)
  | sendChecksum answered =>
      cases move
      apply Disciplined.of_accepted answered
      rw [stream, List.prefix_append_right_inj]
      exact List.prefix_append _ _
  | streaming _ answered whole _ =>
      cases move
      exact .of_accepted answered (streamed_front whole _)
  | awaitReady _ _ | awaitSizeAck _ _ | readCapacity _ _ | refused _ | awaitVerify _ _ _
  | readVerify _ _ _ | finished _ _ _ => cases move

/-- **A step of a sender that keeps to its conduct is disciplined, however it ends.** -/
theorem Conduct.disciplined_step (conduct : Conduct image state.stage listened spoken)
    (step : Step (party config image) state event next) :
    Disciplined image (listened ++ event.input) (spoken ++ event.output) := by
  apply Disciplined.hears
  rcases step.output_cases with silent | ⟨_, data, _, _, move, part⟩
  · rw [silent, List.append_nil]
    exact conduct.disciplined
  · apply (conduct.disciplined_of_write move).cut
    rwa [List.prefix_append_right_inj]

end Steps

/-! ## Whole talks -/

section Talks

variable {config : Config} {image : Bytes} {progress : Progress} {started : Nat}
variable {events : List Event} {state : State}

/-- **A sender is disciplined at every moment, whatever its link does.** -/
theorem disciplined_of_talk
    (talk : Talk (party config image) (start config image progress started) events state) :
    Disciplined image (heard events) (said events) := by
  cases talk with
  | begin => exact .silent _ _
  | step before last =>
      rw [Party.heard_append, Party.said_append, Party.heard_singleton, Party.said_singleton]
      -- A lapse ends the transfer, so the sender has kept to its conduct up to its last step.
      rcases conduct_of_talk before with ⟨_, conduct⟩ | failed
      · exact conduct.disciplined_step last
      · exact (failed.not_step last).elim

/-- **The discipline of a sender.**  On a link that may do anything, and at every moment, what
has been accepted from the sender is a front of the stream, in the order of the protocol.  The
sender reports success only if all of the stream has been accepted, and if a check with the checksum
of the image has arrived behind the acceptance.  Over a script it has heard what has arrived, and
the link has accepted what it has said. -/
theorem keeps_discipline
    (talk : Talk (party config image) (start config image progress started) events state) :
    Disciplined image (heard events) (said events) ∧
      (∀ now report bar, party config image state now = .done (.ok report, bar) →
        image.length < 4294967296 ∧ said events = stream image ∧
          Verified (heard events) (Word.encode (checksum image))) ∧
      ∀ link after, Course (party config image) (start config image progress started) link events
          state after →
        link.incoming = heard events ++ after.incoming ∧
          after.written = link.written ++ said events := by
  refine ⟨disciplined_of_talk talk, ?_, ?_⟩
  · intro now report bar stops
    obtain ⟨bounded, spoken, verified, _⟩ := verified_of_ends ⟨state, talk, now, stops⟩
    exact ⟨bounded, spoken, verified⟩
  · intro link after course
    exact ⟨course.incoming_eq, course.written_eq⟩

/-- A link on which a receiver accepts the single byte 65 and checks it, in two reads and with
noise in between. -/
def accepting : ScriptedLink where
  arrivals :=
    [⟨0, .data [0x21, 0xC0]⟩, ⟨5, .data [0xC0, 0xC1]⟩,
      ⟨9, .data (0x21 :: 0xF5 :: Word.encode (checksum [65]))⟩]

/-- A sender of that byte reports success over this link, and is disciplined. -/
theorem disciplined_of_upload :
    ∃ events state after report bar,
      Course (party {} [65]) (start {} [65] {} 0) accepting events state after ∧
        party {} [65] state after.clock = .done (.ok report, bar) ∧
        Disciplined [65] (heard events) (said events) ∧
        (∀ now report bar, party {} [65] state now = .done (.ok report, bar) →
          [65].length < 4294967296 ∧ said events = stream [65] ∧
            Verified (heard events) (Word.encode (checksum [65]))) ∧
        ∀ link after, Course (party {} [65]) (start {} [65] {} 0) link events state after →
          link.incoming = heard events ++ after.incoming ∧
            after.written = link.written ++ said events := by
  have runs : (party {} [65]).runScript 13 (start {} [65] {} 0) accepting =
      some ((.ok ⟨1, 1, checksum [65], checksum [65], 9⟩, ⟨1, some 1⟩),
        { clock := 9, accepted := [(5, [65]), (5, Word.encode (checksum [65])),
          (0, [1, 0, 0, 0])] }) := rfl
  obtain ⟨events, state, course, stops⟩ := Party.runScript_course runs
  exact ⟨events, state, _, _, _, course, stops, keeps_discipline course.talk⟩

end Talks

end Overlay.Sender
