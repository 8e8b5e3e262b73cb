import Overlay.Proofs.Transfer.Replies

/-!
# Whose turn it is

On a reliable link the receiver hears what the sender says, and the sender hears
what the receiver says.  One session then has one course: the receiver gives the
replies that the image calls for (`answer`), and the sender says what these replies
ask for (`spoken`).  A receiver that is finished has given all of them and has heard
all of it, and so has a sender that is finished.

Whenever the sender waits and nothing is on its way to it, it is the turn of the
receiver (`turn_of_waiting`).
-/

set_option autoImplicit false

namespace Overlay.Transfer

open Party (Step)
open Session (bound reading)
open Receiver (utter calls utter_append)

/-! ## The course of a session -/

/-- The replies that an image calls for. -/
def answer (capacity : UInt32) (image : Bytes) : List Reply :=
  if image.length ≤ capacity.toNat then [.sizeAck, .verify (checksum image)]
  else [.sizeReject capacity]

/-- What a sender says of an image in a whole session. -/
def spoken (capacity : UInt32) (image : Bytes) : Bytes :=
  if image.length ≤ capacity.toNat then Sender.stream image
  else Word.encode (Sender.sizeWord image)

/-- What a session does with an image: it stores and accepts it, or refuses it and
leaves the destination alone. -/
def Delivered (capacity : UInt32) (image : Bytes) (before : Buffer)
    (result : Except Fault Received) (after : Buffer) : Prop :=
  if image.length ≤ capacity.toNat then
    result = .ok ⟨image.length, checksum image⟩ ∧ after.size = before.size ∧
      ∀ index, after[index]? = if index < image.length then image[index]? else before[index]?
  else
    result = .error (.sizeRejected (Sender.sizeWord image) capacity) ∧ after = before

/-- What a sender reports of an image: success with its checksum, or its refusal. -/
def Reported (capacity : UInt32) (image : Bytes) (result : Except Fault Sender.Report) : Prop :=
  if image.length ≤ capacity.toNat then
    ∃ report, result = .ok report ∧ report.bytes = image.length ∧
      report.sentChecksum = checksum image ∧ report.receivedChecksum = checksum image
  else result = .error (.sizeRejected (Sender.sizeWord image) capacity)

theorem complete_answer (capacity : UInt32) (image : Bytes) : Complete (answer capacity image) := by
  rw [answer]
  split
  · exact .verified _
  · exact .refused _

section Course

variable {capacity : UInt32} {image : Bytes}

theorem toNat_sizeWord (bounded : image.length < 4294967296) :
    (Sender.sizeWord image).toNat = image.length :=
  UInt32.toNat_ofNat_of_lt' bounded

variable {place : Buffer} (fits : bound capacity place = capacity)
  (bounded : image.length < 4294967296)

include fits bounded

theorem reading_stream_of_le (small : image.length ≤ capacity.toNat) :
    reading capacity place (Sender.stream image) =
      { session := ⟨capacity, .complete (Sender.sizeWord image) (checksum image) (checksum image)⟩
        destination := Buffer.store place 0 image
        replies := [.sizeAck, .verify (checksum image)]
        consumed := 8 + image.length } := by
  have size := toNat_sizeWord bounded
  have accepted : ¬ bound capacity place < Sender.sizeWord image := by
    rw [fits, UInt32.lt_iff_toNat_lt]
    omega
  have whole := @Session.reading_whole _ _ (checksum image) _ _ accepted size.symm []
  rw [List.append_nil, size] at whole
  exact whole

theorem reading_stream_of_lt (large : ¬ image.length ≤ capacity.toNat) :
    reading capacity place (Sender.stream image) =
      { session := ⟨capacity, .rejected (Sender.sizeWord image) capacity⟩
        destination := place
        replies := [.sizeReject capacity]
        consumed := 4 } := by
  have size := toNat_sizeWord bounded
  have refused : bound capacity place < Sender.sizeWord image := by
    rw [fits, UInt32.lt_iff_toNat_lt]
    omega
  rw [Sender.stream, Session.reading_rejected (Word.take?_encode _ _) refused, fits]

/-- The replies to all that a sender has to say are those that its image calls for. -/
theorem replies_stream :
    (reading capacity place (Sender.stream image)).replies = answer capacity image := by
  rw [answer]
  by_cases small : image.length ≤ capacity.toNat
  · rw [reading_stream_of_le fits bounded small, if_pos small]
  · rw [reading_stream_of_lt fits bounded small, if_neg small]

theorem not_open_stream : ¬ (reading capacity place (Sender.stream image)).Open := by
  by_cases small : image.length ≤ capacity.toNat
  · rw [reading_stream_of_le fits bounded small]
    nofun
  · rw [reading_stream_of_lt fits bounded small]
    nofun

theorem take_consumed_stream :
    (Sender.stream image).take (reading capacity place (Sender.stream image)).consumed =
      spoken capacity image := by
  rw [spoken]
  by_cases small : image.length ≤ capacity.toNat
  · rw [reading_stream_of_le fits bounded small, if_pos small]
    refine List.take_of_length_le ?_
    simp only [Sender.stream, List.length_append, Word.length_encode]
    omega
  · rw [reading_stream_of_lt fits bounded small, if_neg small]
    exact List.take_left' rfl

/-- A session that is over has heard what the sender says, has given the replies that
the image calls for, and has done with the image what it should. -/
theorem delivered_of_over {listened : Bytes} (part : listened <+: Sender.stream image)
    {outcome : Session.Outcome}
    (ended : (reading capacity place listened).session.stage.outcome = some outcome) :
    spoken capacity image <+: listened ∧
      (reading capacity place listened).replies = answer capacity image ∧
      Delivered capacity image place (Receiver.conclude outcome)
        (reading capacity place listened).destination := by
  have stops : ¬ (reading capacity place listened).Open := by
    intro takes
    rw [Receiver.outcome_eq_none_iff.mpr takes] at ended
    cases ended
  have used := (Session.reading_reads capacity place listened).consumed_le
  obtain ⟨extra, whole⟩ := part
  have same := Session.reading_append_of_finished stops extra
  rw [whole] at same
  rw [← same] at ended used ⊢
  refine ⟨?_, replies_stream fits bounded, ?_⟩
  · rw [← take_consumed_stream fits bounded, ← whole, List.take_append_of_le_length (whole ▸ used)]
    exact List.take_prefix _ _
  · rw [Delivered]
    by_cases small : image.length ≤ capacity.toNat
    · have reads := Session.reading_reads capacity place (Sender.stream image)
      rw [reading_stream_of_le fits bounded small] at ended reads ⊢
      rw [if_pos small]
      have size := toNat_sizeWord bounded
      simp only [Session.Stage.outcome, if_pos] at ended
      cases ended
      refine ⟨by rw [Receiver.conclude, size], Buffer.size_store _ _ _, fun index => ?_⟩
      have stored := reads.getElem?_destination index
      simp only [Session.Stage.received, size] at stored
      rw [stored]
      by_cases inside : index < image.length
      · rw [if_pos inside, if_pos inside, Sender.stream, ← List.append_assoc,
          List.getElem?_append_right (by simp)]
        simp
      · rw [if_neg inside, if_neg inside]
    · rw [reading_stream_of_lt fits bounded small] at ended ⊢
      rw [if_neg small]
      cases ended
      exact ⟨rfl, rfl⟩

end Course

/-! ## The turns of a sender -/

/-- A sender in this stage reads. -/
def Waits : Sender.Stage → Prop
  | .awaitReady _ | .awaitSizeAck | .readCapacity _ | .awaitVerify _ | .readVerify _ _ => True
  | .sendSize | .sendChecksum | .streaming _ _ | .finished _ => False

section Senders

variable {capacity : UInt32} {image heard said waiting later : Bytes} {count : Nat}
variable {replies : List Reply} {stage : Sender.Stage}

theorem replied_nil : Replied [] [] 0 [] [] := ⟨rfl, .silent, fun _ => rfl, absurd rfl⟩

/-- All that the image calls for has been heard or is on its way. -/
theorem replied_answer
    (joined : heard ++ waiting = utter (calls (count + 1) ++ answer capacity image) ++ later) :
    Replied heard waiting (count + 1) (answer capacity image) later :=
  have complete := complete_answer capacity image
  ⟨joined, complete.answers, nofun, fun _ => complete⟩

theorem small_of_accepted {more : List Reply}
    (part : .sizeAck :: more <+: answer capacity image) : image.length ≤ capacity.toNat := by
  rw [answer] at part
  split at part
  · assumption
  · cases (List.cons_prefix_cons.mp part).1

theorem stream_prefix_spoken {more : List Reply}
    (part : .sizeAck :: more <+: answer capacity image) :
    Sender.stream image <+: spoken capacity image := by
  refine ⟨[], ?_⟩
  rw [spoken, if_pos (small_of_accepted part), List.append_nil]

/-- Whatever becomes of its image, a sender says its size word. -/
theorem sizeWord_prefix_spoken :
    Word.encode (Sender.sizeWord image) <+: spoken capacity image := by
  rw [spoken]
  split
  · exact List.prefix_append _ _
  · exact List.prefix_refl _

/-- Whatever it has heard, a sender says a part of its stream. -/
theorem said_prefix_stream (conduct : Sender.Conduct image stage heard said) :
    said <+: Sender.stream image := by
  cases conduct with
  | awaitReady _ _ | sendSize _ => exact List.nil_prefix
  | awaitSizeAck _ _ | readCapacity _ _ | refused _ | sendChecksum _ => exact List.prefix_append _ _
  | @streaming _ sent rest _ _ whole _ =>
      refine ⟨rest, ?_⟩
      rw [Sender.stream, List.append_assoc, List.append_assoc, whole]
  | awaitVerify _ _ _ | readVerify _ _ _ | finished _ _ _ => exact List.prefix_refl _

/-- A sender to which no readiness has been said waits for it in silence. -/
theorem awaitReady_of_silence (conduct : Sender.Conduct image stage heard said)
    (replied : Replied heard waiting 0 replies later) :
    (∃ deadline, stage = .awaitReady deadline) ∧ said = [] := by
  have silent {rest : Bytes} (greeted : Sender.Greeted heard rest) : False := by
    obtain ⟨_, called, _⟩ := replied.of_greeted greeted
    cases called
  cases conduct with
  | awaitReady deadline _ => exact ⟨⟨deadline, rfl⟩, rfl⟩
  | sendSize greeted | awaitSizeAck _ greeted => exact (silent greeted).elim
  | readCapacity answered _ | refused answered | sendChecksum answered | streaming _ answered _ _
  | awaitVerify _ _ answered =>
      obtain ⟨_, _, greeted⟩ := answered
      exact (silent greeted).elim
  | readVerify _ verified _ | finished _ _ verified =>
      obtain ⟨_, _, _, _, greeted⟩ := verified
      exact (silent greeted).elim

theorem said_prefix_spoken (conduct : Sender.Conduct image stage heard said)
    (replied : Replied heard waiting count replies later)
    (part : replies <+: answer capacity image) : said <+: spoken capacity image := by
  have whole := said_prefix_stream conduct
  cases conduct with
  | awaitReady _ _ | sendSize _ => exact List.nil_prefix
  | awaitSizeAck _ _ | readCapacity _ _ | refused _ | sendChecksum _ =>
      exact sizeWord_prefix_spoken
  | streaming _ answered _ _ | awaitVerify _ _ answered =>
      obtain ⟨more, rfl, _⟩ := replied.of_accepted answered
      exact whole.trans (stream_prefix_spoken part)
  | readVerify _ verified _ | finished _ _ verified =>
      obtain ⟨_, rfl, _⟩ := replied.of_verified verified
      exact whole.trans (stream_prefix_spoken part)

/-- A sender that is finished has said all that the replies ask for, has heard all of
them and nothing else, and reports what has become of the image. -/
theorem reported_of_finished {result : Except Fault Sender.Report}
    (conduct : Sender.Conduct image (.finished result) heard said)
    (replied : Replied heard waiting count replies later)
    (part : replies <+: answer capacity image) :
    replies = answer capacity image ∧ said = spoken capacity image ∧ waiting = later ∧
      Reported capacity image result := by
  have answers := (complete_answer capacity image).answers
  cases conduct with
  | refused answered =>
      obtain ⟨refused, rfl, word⟩ := replied.of_refused answered
      obtain ⟨rfl, rfl⟩ := Word.encode_append_inj word
      have same := (Complete.refused refused).eq_of_start answers part
      refine ⟨same, ?_, rfl, ?_⟩
      · rw [answer] at same
        split at same
        · cases same
        · rw [spoken, if_neg ‹_›]
      · rw [answer] at same
        split at same
        · cases same
        · cases same
          rw [Reported, if_neg ‹_›]
  | finished blocks elapsed verified =>
      obtain ⟨received, rfl, word⟩ := replied.of_verified verified
      obtain ⟨rfl, rfl⟩ := Word.encode_append_inj word
      have same := (Complete.verified received).eq_of_start answers part
      have small := small_of_accepted part
      refine ⟨same, by rw [spoken, if_pos small], rfl, ?_⟩
      rw [answer, if_pos small] at same
      cases same
      rw [Reported, if_pos small, Sender.verdict, if_pos rfl]
      exact ⟨_, rfl, rfl, rfl, rfl⟩

/-- **A sender that waits while nothing is on its way to it leaves the turn to the
receiver**: to its first readiness, to its decision on the size word, or to its check
of the whole stream. -/
theorem turn_of_waiting (conduct : Sender.Conduct image stage heard said)
    (replied : Replied heard [] count replies later) (waits : Waits stage) :
    count = 0 ∨ replies = [] ∧ said = Word.encode (Sender.sizeWord image) ∨
      replies = [.sizeAck] ∧ said = Sender.stream image := by
  have answers := replied.answers
  cases conduct with
  | sendSize _ | sendChecksum _ | streaming _ _ _ _ | refused _ | finished _ _ _ => cases waits
  | awaitReady _ none =>
      left
      have joined := replied.joined
      rw [List.append_nil] at joined
      cases count with
      | zero => rfl
      | succ count =>
          refine absurd ?_ none
          rw [joined, Receiver.utter_calls_succ]
          exact List.mem_cons_self
  | awaitSizeAck undecided greeted =>
      obtain ⟨fewer, _, joined⟩ := replied.of_greeted greeted
      rw [List.append_nil, utter_append, List.append_assoc] at joined
      cases answers with
      | silent => exact .inr (.inl ⟨rfl, rfl⟩)
      | accepted | verified _ =>
          refine absurd ?_ undecided.1
          rw [joined]
          exact List.mem_append_right _ List.mem_cons_self
      | refused _ =>
          refine absurd ?_ undecided.2
          rw [joined]
          exact List.mem_append_right _ List.mem_cons_self
  | readCapacity answered short =>
      obtain ⟨_, _, word⟩ := replied.of_refused answered
      rw [List.append_nil] at word
      rw [← word, List.length_append, Word.length_encode] at short
      omega
  | awaitVerify _ none answered =>
      obtain ⟨more, rfl, joined⟩ := replied.of_accepted answered
      rw [List.append_nil] at joined
      cases answers with
      | accepted => exact .inr (.inr ⟨rfl, rfl⟩)
      | verified _ =>
          refine absurd ?_ none
          rw [← joined]
          exact List.mem_cons_self
  | readVerify _ verified short =>
      obtain ⟨_, _, word⟩ := replied.of_verified verified
      rw [List.append_nil] at word
      rw [← word, List.length_append, Word.length_encode] at short
      omega

theorem sender_turns {config : Sender.Config} {state : Sender.State}
    (conduct : Sender.Conduct image state.stage heard said) :
    (∃ result, ∀ now, Sender.party config image state now = .done (result, state.progress)) ∨
      (∃ data next, Step (Sender.party config image) state (.said data) next) ∨
      Waits state.stage ∧
        ∀ byte, ∃ next, Step (Sender.party config image) state (.heard [byte]) next := by
  obtain ⟨started, progress, stage⟩ := state
  cases conduct with
  | refused _ | finished _ _ _ => exact .inl ⟨_, fun _ => rfl⟩
  | sendSize _ | sendChecksum _ | streaming _ _ _ _ =>
      exact .inr (.inl ⟨_, _, @Step.said _ _ _ _ 0 _ _ _ rfl 0⟩)
  | awaitReady _ _ | awaitSizeAck _ _ | awaitVerify _ _ _ =>
      exact .inr (.inr ⟨trivial, fun byte =>
        ⟨_, @Step.heard _ _ _ _ 0 _ _ _ rfl [byte] nofun (Nat.le_refl 1) 0⟩⟩)
  | @readCapacity _ start _ short | @readVerify _ start _ _ short =>
      have room : 1 ≤ (WordBuffer.empty.fill start).room := by
        rw [WordBuffer.room_fill short]
        omega
      exact .inr (.inr ⟨trivial, fun byte =>
        ⟨_, @Step.heard _ _ _ _ 0 _ _ _ rfl [byte] nofun room 0⟩⟩)

end Senders

/-! ## The turns of a receiver -/

section Receivers

variable {capacity : UInt32} {place : Buffer} {started : Nat} {state : Receiver.State}
variable {listened said : Bytes}

/-- A receiver in this stage reads. -/
def Listens : Receiver.Stage → Prop
  | .listening | .reading => True
  | .announcing | .replying _ _ | .finished _ => False

theorem receiver_turns {config : Receiver.Config}
    (conduct : Receiver.Conduct capacity place started state listened said) :
    (∃ result, ∀ now, Receiver.party config state now = .done (result, state.destination)) ∨
      (∃ data next, Step (Receiver.party config) state (.said data) next) ∨
      Listens state.stage ∧
        ∀ byte, ∃ next, Step (Receiver.party config) state (.heard [byte]) next := by
  cases conduct with
  | finished _ _ => exact .inl ⟨_, fun _ => rfl⟩
  | announcing _ | replying _ _ _ _ =>
      exact .inr (.inl ⟨_, _, @Step.said _ _ _ _ 0 _ _ _ rfl 0⟩)
  | listening _ | awaiting _ _ _ =>
      exact .inr (.inr ⟨trivial, fun byte =>
        ⟨_, @Step.heard _ _ _ _ 0 _ _ _ rfl [byte] nofun (by decide : 1 ≤ 512) 0⟩⟩)

theorem replies_ne_nil (long : 4 ≤ listened.length) :
    (reading capacity place listened).replies ≠ [] := by
  have reads := Session.reading_reads capacity place listened
  generalize reading capacity place listened = final at reads
  cases reads with
  | idle => cases long
  | size _ short => exact absurd long (Nat.not_le_of_lt short)
  | refused _ _ | checksum _ _ | image _ _ _ | whole _ _ _ _ => nofun

/-- **Sender and receiver never wait for each other** with nothing on its way. -/
theorem not_both_waiting {image : Bytes} {stage : Sender.Stage} {heard : Bytes}
    (fits : bound capacity place = capacity) (bounded : image.length < 4294967296)
    (sender : Sender.Conduct image stage heard listened) (waits : Waits stage)
    (receiver : Receiver.Conduct capacity place started state listened heard)
    (listens : Listens state.stage) : False := by
  cases receiver with
  | announcing _ | replying _ _ _ _ | finished _ _ => cases listens
  | listening count =>
      have replied : Replied (utter (calls (count + 1))) [] (count + 1) [] [] :=
        ⟨by rw [List.append_nil, List.append_nil, List.append_nil], .silent, nofun, absurd rfl⟩
      obtain turn | ⟨_, turn⟩ | ⟨turn, _⟩ := turn_of_waiting sender replied waits
      · cases turn
      · cases turn
      · cases turn
  | awaiting count any takes =>
      have reads := Session.reading_reads capacity place listened
      have replied : Replied _ [] (count + 1) (reading capacity place listened).replies [] :=
        ⟨rfl, answers_of_reads reads, nofun, absurd rfl⟩
      obtain turn | ⟨silent, turn⟩ | ⟨_, turn⟩ := turn_of_waiting sender replied waits
      · cases turn
      · subst turn
        exact replies_ne_nil (Nat.le_of_eq (Word.length_encode _).symm) silent
      · subst turn
        exact not_open_stream fits bounded takes

end Receivers

end Overlay.Transfer
