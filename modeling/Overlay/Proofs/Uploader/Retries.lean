import Overlay.Proofs.Link.Embedding
import Overlay.Proofs.Sender.Discipline
import Overlay.Proofs.Sender.Ending
import Overlay.Uploader

/-!
# What an upload retries

An upload is a row of attempts on one link, and each of them is a whole session of a sender: it
hears what the one before has left unread, and goes on with its progress (`Attempts`).  An
attempt that fails in a way that another may mend is followed by another, as long as one is
allowed, and nothing else is (`settle_again`, `settle_last`).

The upload therefore ends like its last attempt, and what it writes is what its attempts write,
each of them a front of the stream of the image (`attempts_of_upload`).
-/

set_option autoImplicit false

namespace Overlay.Uploader

open Party (Course Embeds)

/-! ## Attempts -/

/-- The faults that another attempt may mend. -/
inductive Mendable : Fault → Prop where
  | timeout (phase : Phase) : Mendable (.timeout phase)
  | disconnected (phase : Phase) : Mendable (.disconnected phase)
  | checksumMismatch (expected actual : UInt32) : Mendable (.checksumMismatch expected actual)

theorem isRecoverable_iff {fault : Fault} : fault.isRecoverable = true ↔ Mendable fault := by
  constructor
  · intro recoverable
    cases fault with
    | timeout phase => exact .timeout phase
    | disconnected phase => exact .disconnected phase
    | checksumMismatch expected actual => exact .checksumMismatch expected actual
    | _ => cases recoverable
  · rintro (_ | _ | _) <;> rfl

/-- One attempt: how it ended, and what was heard and said in it. -/
structure Attempt where
  result : Except Fault Sender.Report
  heard : Bytes
  said : Bytes

/-- An attempt that is made with given progress on a given link, and what it leaves of them. -/
structure Attempt.Made (config : Sender.Config) (image : Bytes) (attempt : Attempt)
    (progress : Progress) (link : ScriptedLink) (bar : Progress) (after : ScriptedLink) :
    Prop where
  session : (Sender.party config image).ComesTo (Sender.start config image progress link.clock)
    link (attempt.result, bar) after
  heard : link.incoming = attempt.heard ++ after.incoming
  said : after.written = link.written ++ attempt.said

/-- Attempts in a row, each of them made with what the one before has left. -/
inductive Attempts (config : Sender.Config) (image : Bytes) :
    List Attempt → Progress → ScriptedLink → Progress → ScriptedLink → Prop where
  | none (progress : Progress) (link : ScriptedLink) :
      Attempts config image [] progress link progress link
  | made {attempt : Attempt} {attempts : List Attempt} {progress between bar : Progress}
      {link middle after : ScriptedLink}
      (first : attempt.Made config image progress link between middle)
      (rest : Attempts config image attempts between middle bar after) :
      Attempts config image (attempt :: attempts) progress link bar after

section Attempts

variable {config : Sender.Config} {image : Bytes} {progress bar : Progress}
variable {link after : ScriptedLink} {attempt : Attempt} {attempts : List Attempt}

theorem Attempt.Made.front (made : attempt.Made config image progress link bar after) :
    attempt.said <+: Sender.stream image := by
  obtain ⟨events, state, course, _⟩ := made.session.exists_course
  have same := List.append_cancel_left (made.said.symm.trans course.written_eq)
  rw [same]
  exact (Sender.disciplined_of_talk course.talk).front

theorem Attempts.front (made : Attempts config image attempts progress link bar after) :
    ∀ attempt ∈ attempts, attempt.said <+: Sender.stream image := by
  induction made with
  | none _ _ => exact fun _ none => absurd none List.not_mem_nil
  | made first _ ih => exact List.forall_mem_cons.mpr ⟨first.front, ih⟩

theorem Attempts.written_eq (made : Attempts config image attempts progress link bar after) :
    after.written = link.written ++ attempts.flatMap Attempt.said := by
  induction made with
  | none _ _ => exact (List.append_nil _).symm
  | made first _ ih => rw [ih, first.said, List.flatMap_cons, List.append_assoc]

theorem Attempts.incoming_eq (made : Attempts config image attempts progress link bar after) :
    link.incoming = attempts.flatMap Attempt.heard ++ after.incoming := by
  induction made with
  | none _ _ => rfl
  | made first _ ih => rw [first.heard, ih, List.flatMap_cons, List.append_assoc]

end Attempts

/-! ## One attempt of an upload -/

section Sessions

variable {config : Config} {image : Bytes} {started attempt : Nat} {session : Sender.State}

theorem settle_start (progress : Progress) (now later : Nat) :
    settle config image ⟨started, attempt, Sender.start config.sender image progress now⟩ later =
      ⟨started, attempt, Sender.start config.sender image progress now⟩ := by
  rw [settle, Sender.start]
  split
  · rename_i fault stops
    dsimp only at stops
    split at stops
    · cases stops
      rfl
    · cases stops
  · rfl

/-- An attempt that failed in a way that another may mend is followed by another, if one is
allowed. -/
theorem settle_again {fault : Fault} (stops : session.stage = .finished (.error fault))
    (mends : Mendable fault) (allowed : attempt < config.maxAttempts) (now : Nat) :
    settle config image ⟨started, attempt, session⟩ now =
      ⟨started, attempt + 1, Sender.start config.sender image session.progress now⟩ := by
  simp only [settle, stops, isRecoverable_iff.mpr mends, decide_eq_true allowed, Bool.and_self,
    if_true]

/-- An attempt that has ended in any other way, or that no other may follow, is the last. -/
theorem settle_last {result : Except Fault Sender.Report}
    (stops : session.stage = .finished result)
    (last : ∀ fault, result = .error fault → Mendable fault → config.maxAttempts ≤ attempt)
    (now : Nat) :
    settle config image ⟨started, attempt, session⟩ now = ⟨started, attempt, session⟩ := by
  rw [settle]
  split
  · rename_i fault failed
    refine if_neg fun again => ?_
    obtain ⟨mends, allowed⟩ := Bool.and_eq_true_iff.mp again
    have enough := last fault (Sender.Stage.finished.inj (stops.symm.trans failed))
      (isRecoverable_iff.mp mends)
    exact Nat.not_lt_of_le enough (of_decide_eq_true allowed)
  · rfl

/-- While a session is at work, an upload does what the session does. -/
theorem embeds_session (config : Config) (image : Bytes) (started attempt : Nat) :
    Embeds (party config image) (Sender.party config.sender image)
      (fun now session => settle config image ⟨started, attempt, session⟩ now) := by
  intro session now
  cases stops : session.stage with
  | finished result => exact .inl ⟨_, Sender.done_of_stage stops now⟩
  | _ =>
      refine .inr
        ⟨fun ended => .done (ended.1.map (report ⟨started, attempt, session⟩ now), ended.2), ?_⟩
      simp only [settle, stops]
      rfl

/-- **An attempt of an upload is a whole session of a sender**, and it leads to the end of the
attempt. -/
theorem exists_attempt (config : Config) (image : Bytes) (started attempt : Nat)
    (progress : Progress) (link : ScriptedLink) :
    ∃ tried events final after,
      Attempt.Made config.sender image tried progress link final.progress after ∧
      final.stage = .finished tried.result ∧
      Course (party config image)
        ⟨started, attempt, Sender.start config.sender image progress link.clock⟩ link events
        (settle config image ⟨started, attempt, final⟩ after.clock) after := by
  obtain ⟨events, final, after, result, course, stops⟩ :=
    Sender.exists_course_to_end config.sender image
      (Sender.start config.sender image progress link.clock) link
  have embedded := (embeds_session config image started attempt).course course
  rw [settle_start] at embedded
  refine ⟨⟨result, Party.heard events, Party.said events⟩, events, final, after, ?_, stops,
    embedded⟩
  exact ⟨.of_ended course (Sender.done_of_stage stops _), course.incoming_eq, course.written_eq⟩

/-- From any attempt on that is allowed, an upload makes attempts until one of them is not to be
followed by another. -/
theorem exists_attempts (config : Config) (image : Bytes) (started : Nat) {attempt : Nat}
    (allowed : attempt ≤ config.maxAttempts) (progress : Progress) (link : ScriptedLink) :
    ∃ failed last bar after,
      Attempts config.sender image (failed ++ [last]) progress link bar after ∧
      attempt + failed.length ≤ config.maxAttempts ∧
      (∀ tried ∈ failed, ∃ fault, tried.result = .error fault ∧ Mendable fault) ∧
      (∀ fault, last.result = .error fault → Mendable fault →
        attempt + failed.length = config.maxAttempts) ∧
      ∀ session, (party config image).ComesTo
        ⟨started, attempt, Sender.start config.sender image progress link.clock⟩ link
        (last.result.map
          (report ⟨started, attempt + failed.length, session⟩ after.clock), bar) after := by
  induction left : config.maxAttempts - attempt using Nat.strongRecOn
    generalizing attempt progress link with
  | ind left ih =>
      obtain ⟨tried, events, final, between, made, stops, course⟩ :=
        exists_attempt config image started attempt progress link
      by_cases again : ∃ fault, tried.result = .error fault ∧ Mendable fault ∧
          attempt < config.maxAttempts
      · obtain ⟨fault, failed, mends, more⟩ := again
        rw [failed] at stops
        rw [settle_again stops mends more] at course
        obtain ⟨later, last, bar, after, rest, bounded, mendable, exhausted, comes⟩ :=
          ih _ (by omega) (Nat.succ_le_of_lt more) final.progress between rfl
        refine ⟨tried :: later, last, bar, after, .made made rest, ?_,
          List.forall_mem_cons.mpr ⟨⟨fault, failed, mends⟩, mendable⟩, ?_, ?_⟩
        all_goals rw [List.length_cons, ← Nat.add_assoc, Nat.add_right_comm]
        · exact bounded
        · exact exhausted
        · exact fun session => .of_course course (comes session)
      · have last (fault) (failed : tried.result = .error fault) (mends : Mendable fault) :
            config.maxAttempts ≤ attempt :=
          Nat.le_of_not_lt fun more => again ⟨fault, failed, mends, more⟩
        rw [settle_last stops last] at course
        refine ⟨[], tried, final.progress, between, .made made (.none _ _), allowed, nofun,
          fun fault failed mends => Nat.le_antisymm allowed (last fault failed mends),
          fun session => .of_ended course ?_⟩
        simp only [party, Sender.done_of_stage stops, Move.embed]
        rfl

/-- **What an upload comes to over any script.**  It makes at least one attempt, and no more than
one and its retries.  All of them but the last fail in a way that another may mend.  If the last
one succeeds, the upload reports its figures and the number of attempts; otherwise it ends with
the fault of the last one, which no other attempt could mend, or no other was allowed.  Each
attempt reads on where the one before stopped, and what is written is what they say one after
the other, each of them a front of the stream of the image. -/
theorem attempts_of_upload (config : Config) (image : Bytes) (progress : Progress)
    (link : ScriptedLink) :
    ∃ failed last bar after,
      Attempts config.sender image (failed ++ [last]) progress link bar after ∧
      failed.length + 1 ≤ min (config.retries.toNat + 1) 4294967295 ∧
      (∀ tried ∈ failed, ∃ fault, tried.result = .error fault ∧ Mendable fault) ∧
      (∀ fault, last.result = .error fault →
        failed.length + 1 = min (config.retries.toNat + 1) 4294967295 ∨ ¬ Mendable fault) ∧
      (party config image).ComesTo (start config image progress link.clock) link
        (last.result.map fun session =>
          { bytes := session.bytes
            blocks := session.blocks
            sentChecksum := session.sentChecksum
            receivedChecksum := session.receivedChecksum
            attempts := failed.length + 1
            elapsed := (after.clock - link.clock) * 1000000 }, bar) after ∧
      link.incoming = (failed ++ [last]).flatMap Attempt.heard ++ after.incoming ∧
      after.written = link.written ++ (failed ++ [last]).flatMap Attempt.said ∧
      ∀ tried ∈ failed ++ [last], tried.said <+: Sender.stream image := by
  have allowed : 1 ≤ config.maxAttempts := Nat.le_min.mpr ⟨Nat.le_add_left 1 _, by decide⟩
  obtain ⟨failed, last, bar, after, made, bounded, mendable, exhausted, comes⟩ :=
    exists_attempts config image link.clock allowed progress link
  rw [Nat.add_comm 1] at bounded exhausted comes
  refine ⟨failed, last, bar, after, made, bounded, mendable, fun fault failed => ?_,
    comes (Sender.start config.sender image progress link.clock), made.incoming_eq,
    made.written_eq, made.front⟩
  by_cases mends : Mendable fault
  · exact .inl (exhausted fault failed mends)
  · exact .inr mends

end Sessions

end Overlay.Uploader
