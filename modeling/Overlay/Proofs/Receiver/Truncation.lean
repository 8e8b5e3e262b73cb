import Overlay.Proofs.Receiver.Account
import Overlay.Proofs.Receiver.Cadence

/-!
# Transfers that break off

If a session still takes input when all that arrives has been heard, the receiver hears all of
it and waits for more (`exists_course_of_open`), and it ends with the fault of that wait, in the
phase that the session has come to (`comesTo_of_open`).

The front of an image with its size and its checksum before it is such a session, wherever it is
cut, and the cut decides the phase (`reading_cut`).  A transfer that breaks off is therefore
never taken for a whole one, and what the destination holds of it is the front of the image
(`comesTo_of_cut`).
-/

set_option autoImplicit false

namespace Overlay.Receiver

open Party (Advance Course)
open ScriptedLink (absence)
open Session (bound reading)

/-! ## Sessions that still take input -/

section Open

variable {config : Config} {destination : Buffer} {link : ScriptedLink}

/-- **Over a prompt link a receiver hears all that has arrived and waits for more**, if its
session still takes input then. -/
theorem exists_course_of_open (config : Config) (destination : Buffer) (prompt : link.Prompt)
    (takes : (reading (bound config.maxImageSize destination) destination link.incoming).Open) :
    ∃ events stage after, Course (party config) (start config destination link.clock) link events
        (.having (reading (bound config.maxImageSize destination) destination link.incoming)
          link.clock stage) after ∧
      after.Prompt ∧ after.silent = link.silent ∧ after.incoming = [] ∧
        stage = if link.incoming = [] then .listening else .reading := by
  obtain ⟨events, state, after, course, smooth, exhausted, prompt, silent⟩ :=
    (diligent config).exists_course (start config destination link.clock) prompt
  have arrived := course.incoming_eq
  obtain conduct | ⟨event, among, failed⟩ := conduct_of_talk course.talk
  case inr => exact absurd failed.lapsed (smooth event among)
  cases exhausted with
  | @done result ends =>
      -- A front of what still takes input takes input, too.
      obtain ⟨report, place⟩ := result
      obtain ⟨_, _, stopped, _⟩ := conduct.of_done ends
      rw [arrived, reading_append_of_outcome stopped, Session.Reading.Open,
        ← outcome_eq_none_iff, stopped] at takes
      cases takes
  | read move none =>
      rw [none, List.append_nil] at arrived
      rw [arrived]
      generalize Party.heard events = heard, Party.said events = spoken at conduct
      cases conduct with
      | announcing _ | replying _ _ _ _ | finished _ _ => cases move
      | listening _ => exact ⟨events, _, after, course, prompt, silent, none, rfl⟩
      | awaiting _ any _ =>
          exact ⟨events, _, after, course, prompt, silent, none, (if_neg any).symm⟩

/-- **A receiver whose session still takes input when nothing is left ends with the fault of its
wait**, in the phase that the session has come to.  Only where nothing comes in at all, for good,
it takes an end of the wait for a sender. -/
theorem comesTo_of_open (config : Config) (destination : Buffer) (prompt : link.Prompt)
    (takes : (reading (bound config.maxImageSize destination) destination link.incoming).Open)
    (waits : link.incoming = [] → link.silent = true →
      0 < config.readyInterval ∧ ∃ limit, config.readyTimeout = some limit) :
    let final := reading (bound config.maxImageSize destination) destination link.incoming
    ∃ after, (party config).ComesTo (start config destination link.clock) link
      (.error ((absence link.silent).fault final.session.stage.phase), final.destination)
      after := by
  intro final
  by_cases deserted : link.incoming = [] ∧ link.silent = true
  · obtain ⟨none, silent⟩ := deserted
    obtain ⟨ticks, limit, limited⟩ := waits none silent
    have quiet : link.QuietUntil
        (link.clock + rounds limit config.readyInterval * config.readyInterval) := by
      rw [ScriptedLink.QuietUntil, prompt.arrivals_of_nil none]
      exact silent
    have comes := comesTo_of_quiet destination prompt.accepting ticks limited quiet
    simp only [final, none, silent]
    exact ⟨_, comes⟩
  · obtain ⟨events, stage, between, course, prompt, silent, none, stands⟩ :=
      exists_course_of_open config destination prompt takes
    let waiting := State.having final link.clock stage
    have move : ∃ timeout resume,
        party config waiting between.clock = .read readSize timeout resume ∧
        ∀ later, resume later (.error (absence link.silent)) =
          waiting.fail ((absence link.silent).fault final.session.stage.phase) := by
      subst stands
      by_cases fresh : link.incoming = []
      · have ends : link.silent = false := by
          simpa only [fresh, true_and, Bool.not_eq_true] using deserted
        simp only [waiting, final, fresh, ends]
        exact ⟨_, _, rfl, fun _ => rfl⟩
      · simp only [waiting, if_neg fresh]
        exact ⟨_, _, rfl, fun _ => rfl⟩
    obtain ⟨timeout, resume, move, fails⟩ := move
    obtain ⟨after, answer, _⟩ := prompt.read_of_nil readSize timeout none
    rw [silent] at answer
    exact ⟨after, .of_ended (.step course (.of_unheard move answer (fails _))) rfl⟩

end Open

/-! ## Images that break off -/

/-- What is on the wire of an image: its size, the checksum that is claimed for it, and its
bytes. -/
def frame (expected : UInt32) (image : Bytes) : Bytes :=
  Word.encode (UInt32.ofNat image.length) ++ (Word.encode expected ++ image)

/-- The phase that a transfer is in after a number of bytes that do not make it whole. -/
def phaseAfter (count : Nat) : Phase :=
  if count = 0 then .ready else if count < 4 then .size else if count < 8 then .checksum
  else .streaming

section Cuts

variable {capacity expected : UInt32} {destination : Buffer} {image : Bytes}

theorem length_frame : (frame expected image).length = 8 + image.length := by
  rw [frame, List.length_append, List.length_append, Word.length_encode, Word.length_encode,
    ← Nat.add_assoc]

theorem take_frame_of_le {count : Nat} (some : 4 ≤ count) :
    (frame expected image).take count = Word.encode (UInt32.ofNat image.length) ++
      (Word.encode expected ++ image).take (count - 4) := by
  rw [frame, List.take_append, Word.length_encode, List.take_of_length_le]
  rw [Word.length_encode]
  exact some

/-- **Wherever an image breaks off, its session still takes input**, and it is in the phase of
the cut. -/
theorem reading_cut (expected : UInt32)
    (fits : image.length ≤ min capacity.toNat destination.size) {count : Nat}
    (cut : count < 8 + image.length) :
    let final := reading capacity destination ((frame expected image).take count)
    final.Open ∧ final.session.stage.phase = phaseAfter count ∧
      final.session.stage.received = count - 8 := by
  have size : (UInt32.ofNat image.length).toNat = image.length :=
    UInt32.toNat_ofNat_of_lt' (by have := capacity.toNat_lt; simp only [UInt32.size]; omega)
  have accepted : ¬ bound capacity destination < UInt32.ofNat image.length := by
    rw [Session.bound_lt_iff, size]
    exact Nat.not_lt_of_le fits
  rw [phaseAfter]
  by_cases none : count = 0
  · subst none
    exact ⟨rfl, rfl, rfl⟩
  by_cases short : count < 4
  · have length : ((frame expected image).take count).length = count := by
      rw [List.length_take, length_frame]
      omega
    have nonempty : (frame expected image).take count ≠ [] :=
      List.ne_nil_of_length_pos (by omega)
    rw [Session.reading_short nonempty (by omega), if_neg none, if_pos short]
    exact ⟨rfl, rfl, by simp only [Session.Stage.received]; omega⟩
  rw [take_frame_of_le (Nat.le_of_not_lt short),
    Session.reading_accepted (Word.take?_encode _ _) accepted, if_neg none, if_neg short]
  by_cases few : count < 8
  · have length : ((Word.encode expected ++ image).take (count - 4)).length < 4 := by
      rw [List.length_take]
      omega
    rw [Session.readAccepted_short length, if_pos few]
    exact ⟨rfl, rfl, by simp only [Session.Stage.received]; omega⟩
  · have length : (image.take (count - 8)).length = count - 8 := by
      rw [List.length_take]
      omega
    have behind : (Word.encode expected ++ image).take (count - 4) =
        Word.encode expected ++ image.take (count - 8) := by
      rw [List.take_append, Word.length_encode, List.take_of_length_le]
      · rw [Nat.sub_sub]
      · rw [Word.length_encode]
        omega
    rw [behind, Session.readAccepted_image (Word.take?_encode _ _),
      Session.readImage_partial (by rw [length, size]; omega), if_neg few]
    exact ⟨rfl, rfl, length⟩

theorem getElem?_take_frame {count index : Nat} (inside : index < count - 8) :
    ((frame expected image).take count)[8 + index]? = image[index]? := by
  rw [List.getElem?_take_of_lt (by omega), frame, ← List.append_assoc,
    List.getElem?_append_right (by simp)]
  simp

end Cuts

/-- **A transfer that breaks off is never taken for a whole one.**  If only a front of the size,
the checksum and the bytes of an image that fits comes in, however it is cut in pieces and
whether the link then ends or falls silent, the receiver reports that in the phase of the cut,
and its destination holds the image bytes that have come, and is otherwise as before. -/
theorem comesTo_of_cut (config : Config) (destination : Buffer) (image : Bytes)
    (expected : UInt32) (count : Nat) (link : ScriptedLink)
    (fits : image.length ≤ min config.maxImageSize.toNat destination.size)
    (cut : count < 8 + image.length) (prompt : link.Prompt)
    (arrives : link.incoming = (frame expected image).take count)
    (waits : count = 0 → link.silent = true →
      0 < config.readyInterval ∧ ∃ limit, config.readyTimeout = some limit) :
    ∃ place after,
      (party config).ComesTo (start config destination link.clock) link
        (.error (if link.silent then .timeout (phaseAfter count)
          else .disconnected (phaseAfter count)), place) after ∧
      ∀ index, place[index]? =
        if index < count - 8 then image[index]? else destination[index]? := by
  have room : image.length ≤
      min (bound config.maxImageSize destination).toNat destination.size := by
    have := config.maxImageSize.toNat_lt
    rw [Session.toNat_bound]
    omega
  have stands := reading_cut expected room cut
  rw [← arrives] at stands
  obtain ⟨takes, phase, received⟩ := stands
  have nothing (none : link.incoming = []) : count = 0 := by
    have fewer := congrArg List.length (arrives.symm.trans none)
    rw [List.length_take, length_frame, List.length_nil] at fewer
    omega
  obtain ⟨after, comes⟩ :=
    comesTo_of_open config destination prompt takes fun none => waits (nothing none)
  have fault (phase : Phase) : (absence link.silent).fault phase =
      if link.silent then .timeout phase else .disconnected phase := by
    cases link.silent <;> rfl
  rw [fault, phase] at comes
  refine ⟨_, after, comes, fun index => ?_⟩
  rw [(Session.reading_reads _ _ _).getElem?_destination, received]
  split
  · rename_i inside
    rw [arrives, getElem?_take_frame inside]
  · rfl

/-- Three pieces that break off behind the second of three image bytes, on a link that ends, and
a link on which nothing comes at all. -/
theorem comesTo_of_cut_pieces :
    let config : Config := { readyTimeout := some 1000 }
    let image : Bytes := [1, 2, 3]
    let broken : ScriptedLink :=
      { arrivals := [[3, 0, 0], [0, 7], [0, 0, 0, 1, 2]].map fun piece => ⟨0, .data piece⟩
        silent := false }
    let deserted : ScriptedLink := {}
    (∃ place after, (party config).ComesTo (start config #[9, 9, 9, 9] 0) broken
        (.error (.disconnected .streaming), place) after ∧
      ∀ index, place[index]? = if index < 2 then image[index]? else #[9, 9, 9, 9][index]?) ∧
    ∃ place after, (party config).ComesTo (start config #[9, 9, 9, 9] 0) deserted
        (.error (.timeout .ready), place) after ∧
      ∀ index, place[index]? = if index < 0 then image[index]? else #[9, 9, 9, 9][index]? := by
  intro config image broken deserted
  constructor
  · obtain ⟨prompt, arrives⟩ := @ScriptedLink.prompt_of_pieces
      [[3, 0, 0], [0, 7], [0, 0, 0, 1, 2]] (by decide) false
    exact comesTo_of_cut config #[9, 9, 9, 9] image 7 10 broken (by decide) (by decide) prompt
      (arrives.trans (by decide)) nofun
  · obtain ⟨prompt, arrives⟩ := @ScriptedLink.prompt_of_pieces [] (by decide) true
    exact comesTo_of_cut config #[9, 9, 9, 9] image 7 0 deserted (by decide) (by decide) prompt
      arrives fun _ _ => ⟨by decide, 1000, rfl⟩

end Overlay.Receiver
