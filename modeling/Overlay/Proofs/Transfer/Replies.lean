import Overlay.Proofs.Receiver.Conduct
import Overlay.Proofs.Sender.Conduct

/-!
# What a sender makes of the replies of a receiver

On a faithful way back a sender hears the readiness of a receiver, some number of
times, and the replies of one session.  When the sender meets a marker that it was
waiting for, it has met the reply that begins with this marker, and nothing in
front of it is missing: a repeated readiness is never taken for a decision, and no
byte of a word for a marker.
-/

set_option autoImplicit false

namespace Overlay.Transfer

open Receiver (utter calls utter_singleton utter_cons utter_append utter_calls)
open Sender (Greeted Answered Verified Undecided)
open Session (reading)

/-! ## The replies of a session -/

/-- The replies that a session has given so far. -/
inductive Answers : List Reply → Prop where
  | silent : Answers []
  | accepted : Answers [.sizeAck]
  | verified (checksum : UInt32) : Answers [.sizeAck, .verify checksum]
  | refused (capacity : UInt32) : Answers [.sizeReject capacity]

/-- The replies of a session that is over. -/
inductive Complete : List Reply → Prop where
  | verified (checksum : UInt32) : Complete [.sizeAck, .verify checksum]
  | refused (capacity : UInt32) : Complete [.sizeReject capacity]

theorem Complete.answers {replies : List Reply} (complete : Complete replies) :
    Answers replies := by
  cases complete with
  | verified checksum => exact .verified checksum
  | refused capacity => exact .refused capacity

section Readings

variable {capacity : UInt32} {before : Buffer} {stream : Bytes} {reading' : Session.Reading}

theorem answers_of_reads (reads : Session.Reads capacity before stream reading') :
    Answers reading'.replies := by
  cases reads with
  | idle | size _ _ => exact .silent
  | refused _ _ => exact .refused _
  | checksum _ _ | image _ _ _ => exact .accepted
  | whole _ _ _ _ => exact .verified _

theorem complete_iff_of_reads (reads : Session.Reads capacity before stream reading') :
    Complete reading'.replies ↔ ¬ reading'.Open := by
  cases reads with
  | idle | size _ _ | checksum _ _ | image _ _ _ => exact ⟨nofun, fun stops => absurd rfl stops⟩
  | refused _ _ => exact ⟨fun _ => nofun, fun _ => .refused _⟩
  | whole _ _ _ _ => exact ⟨fun _ => nofun, fun _ => .verified _⟩

end Readings

theorem Complete.eq_of_start {first second : List Reply} (complete : Complete first)
    (answers : Answers second) (part : first <+: second) : first = second := by
  cases complete with
  | verified checksum =>
      cases answers with
      | silent | accepted => simp at part
      | verified other => simpa using part
      | refused other => simp at part
  | refused capacity =>
      cases answers with
      | silent | accepted | verified other => simp at part
      | refused other => simpa using part

theorem Answers.init {earlier : List Reply} {reply : Reply}
    (answers : Answers (earlier ++ [reply])) : Answers earlier ∧ ¬ Complete earlier := by
  generalize all : earlier ++ [reply] = replies at answers
  cases answers with
  | silent => exact absurd all (by simp)
  | accepted =>
      rw [(List.append_inj' (all.trans (List.nil_append _).symm) rfl).1]
      exact ⟨.silent, nofun⟩
  | refused _ =>
      rw [(List.append_inj' (all.trans (List.nil_append _).symm) rfl).1]
      exact ⟨.silent, nofun⟩
  | verified _ =>
      rw [(@List.append_inj' _ _ [reply] [.sizeAck] _ all rfl).1]
      exact ⟨.accepted, nofun⟩

/-! ## What a receiver has replied -/

section Receivers

variable {capacity : UInt32} {before : Buffer} {started : Nat} {state : Receiver.State}
variable {listened spoken : Bytes}

/-- A receiver has said that it is ready, and then replies of its session.  Once these
are complete it is finished. -/
theorem replied_of_conduct
    (conduct : Receiver.Conduct capacity before started state listened spoken) :
    ∃ count replies, spoken = utter (calls count ++ replies) ∧ Answers replies ∧
      (count = 0 → replies = []) ∧
      replies <+: (reading capacity before listened).replies ∧
      (Complete replies → replies = (reading capacity before listened).replies ∧
        ∃ outcome, (reading capacity before listened).session.stage.outcome = some outcome ∧
          state = .having (reading capacity before listened) started
            (.finished (Receiver.conclude outcome))) := by
  cases conduct with
  | announcing count =>
      exact ⟨count, [], by rw [List.append_nil], .silent, fun _ => rfl, List.nil_prefix, nofun⟩
  | listening count =>
      exact ⟨count + 1, [], by rw [List.append_nil], .silent, nofun, List.nil_prefix, nofun⟩
  | awaiting count _ takes =>
      have reads := Session.reading_reads capacity before listened
      refine ⟨count + 1, _, rfl, answers_of_reads reads, nofun, List.prefix_refl _, ?_⟩
      exact fun complete => absurd takes ((complete_iff_of_reads reads).mp complete)
  | @replying count used earlier reply _ replies rest =>
      have answers := answers_of_reads (Session.reading_reads capacity before used)
      rw [replies] at answers
      refine ⟨count + 1, earlier, rfl, answers.init.1, nofun, ?_,
        fun complete => absurd complete answers.init.2⟩
      refine List.IsPrefix.trans ?_
        (Session.replies_prefix capacity before (List.prefix_append used rest))
      rw [replies]
      exact List.prefix_append earlier [reply]
  | @finished count _ outcome stops =>
      have reads := Session.reading_reads capacity before listened
      exact ⟨count + 1, _, rfl, answers_of_reads reads, nofun, List.prefix_refl _,
        fun _ => ⟨rfl, outcome, stops, rfl⟩⟩

end Receivers

/-! ## What stands behind a marker -/

/-- Two ways to pass over unwanted bytes lead to the same first wanted byte. -/
theorem eq_behind_noise {wanted : UInt8 → Prop} {first second rest after : Bytes} {byte : UInt8}
    (quiet : ∀ value ∈ first, ¬ wanted value) (found : wanted byte)
    (quiet' : ∀ value ∈ second, ¬ wanted value)
    (starts : ∀ value ∈ after.head?, wanted value)
    (joined : first ++ byte :: rest = second ++ after) : after = byte :: rest := by
  induction first generalizing second with
  | nil =>
      cases second with
      | nil => exact joined.symm
      | cons other second =>
          rw [List.nil_append, List.cons_append, List.cons.injEq] at joined
          exact absurd (joined.1 ▸ found) (quiet' other List.mem_cons_self)
  | cons value first ih =>
      cases second with
      | nil =>
          rw [List.nil_append, List.cons_append] at joined
          refine absurd (starts value ?_) (quiet value List.mem_cons_self)
          rw [← joined]
          rfl
      | cons other second =>
          rw [List.cons_append, List.cons_append, List.cons.injEq] at joined
          exact ih (fun value inside => quiet value (List.mem_cons_of_mem _ inside))
            (fun value inside => quiet' value (List.mem_cons_of_mem _ inside)) joined.2

theorem eq_behind_marker {noise rest behind : Bytes} {byte : UInt8} (none : byte ∉ noise)
    (joined : noise ++ byte :: rest = byte :: behind) : rest = behind := by
  cases noise with
  | nil => exact (List.cons.inj joined).2
  | cons value noise =>
      rw [List.cons_append, List.cons.injEq] at joined
      exact absurd (joined.1 ▸ List.mem_cons_self) none

/-- What a sender has heard of one session and what is still on its way: readiness,
the replies so far, and, once these are complete, the readiness of later sessions. -/
structure Replied (heard waiting : Bytes) (count : Nat) (replies : List Reply)
    (later : Bytes) : Prop where
  joined : heard ++ waiting = utter (calls count ++ replies) ++ later
  answers : Answers replies
  called : count = 0 → replies = []
  followed : later ≠ [] → Complete replies

section Replies

variable {heard waiting rest later : Bytes} {count : Nat} {replies : List Reply}

theorem Replied.later_eq_nil (replied : Replied heard waiting count replies later)
    (incomplete : ¬ Complete replies) : later = [] :=
  Decidable.byContradiction fun any => incomplete (replied.followed any)

theorem Replied.of_greeted (replied : Replied heard waiting count replies later)
    (greeted : Greeted heard rest) :
    ∃ fewer, count = fewer + 1 ∧ rest ++ waiting = utter (calls fewer ++ replies) ++ later := by
  obtain ⟨noise, none, rfl⟩ := greeted
  have joined := replied.joined
  rw [List.append_assoc, List.cons_append] at joined
  cases count with
  | zero =>
      rw [replied.called rfl, replied.later_eq_nil (replied.called rfl ▸ nofun)] at joined
      simp [calls] at joined
  | succ fewer =>
      refine ⟨fewer, rfl, ?_⟩
      rw [Receiver.utter_calls_succ, List.cons_append] at joined
      exact eq_behind_marker none joined

theorem Replied.of_answered {marker : Marker} (replied : Replied heard waiting count replies later)
    (decides : marker = .sizeAck ∨ marker = .sizeReject) (answered : Answered marker heard rest) :
    utter replies ++ later = marker.byte :: (rest ++ waiting) := by
  obtain ⟨noise, ⟨noAck, noReject⟩, greeted⟩ := answered
  obtain ⟨fewer, _, joined⟩ := replied.of_greeted greeted
  rw [List.append_assoc, List.cons_append, utter_append, List.append_assoc] at joined
  refine @eq_behind_noise (fun value => value = Marker.sizeAck.byte ∨ value = Marker.sizeReject.byte)
    noise (utter (calls fewer)) _ _ _ ?_ ?_ ?_ ?_ joined
  · rintro value inside (rfl | rfl)
    · exact noAck inside
    · exact noReject inside
  · exact decides.imp (congrArg _) (congrArg _)
  · intro value inside wanted
    rw [utter_calls] at inside
    rw [List.eq_of_mem_replicate inside] at wanted
    revert wanted
    decide
  · intro value inside
    cases replied.answers with
    | silent =>
        rw [replied.later_eq_nil nofun] at inside
        cases inside
    | accepted | verified _ => exact .inl (Option.some.inj inside).symm
    | refused _ => exact .inr (Option.some.inj inside).symm

/-- A sender that has heard acceptance has met the reply that accepts. -/
theorem Replied.of_accepted (replied : Replied heard waiting count replies later)
    (answered : Answered .sizeAck heard rest) :
    ∃ more, replies = .sizeAck :: more ∧ utter more ++ later = rest ++ waiting := by
  have joined := replied.of_answered (.inl rfl) answered
  have answers := replied.answers
  cases answers with
  | silent =>
      rw [replied.later_eq_nil nofun] at joined
      cases joined
  | accepted | verified _ => exact ⟨_, rfl, (List.cons.inj joined).2⟩
  | refused _ => exact absurd (List.cons.inj joined).1 (by decide)

theorem Replied.of_refused (replied : Replied heard waiting count replies later)
    (answered : Answered .sizeReject heard rest) :
    ∃ capacity, replies = [.sizeReject capacity] ∧
      Word.encode capacity ++ later = rest ++ waiting := by
  have joined := replied.of_answered (.inr rfl) answered
  have answers := replied.answers
  cases answers with
  | silent =>
      rw [replied.later_eq_nil nofun] at joined
      cases joined
  | accepted | verified _ => exact absurd (List.cons.inj joined).1 (by decide)
  | refused capacity =>
      rw [utter_singleton] at joined
      exact ⟨capacity, rfl, (List.cons.inj joined).2⟩

theorem Replied.of_verified (replied : Replied heard waiting count replies later)
    (verified : Verified heard rest) :
    ∃ checksum, replies = [.sizeAck, .verify checksum] ∧
      Word.encode checksum ++ later = rest ++ waiting := by
  obtain ⟨noise, none, answered⟩ := verified
  obtain ⟨more, rfl, joined⟩ := replied.of_accepted answered
  rw [List.append_assoc, List.cons_append] at joined
  have answers := replied.answers
  cases answers with
  | accepted =>
      rw [replied.later_eq_nil nofun] at joined
      exact absurd joined.symm (by simp)
  | verified checksum =>
      rw [utter_singleton] at joined
      exact ⟨checksum, rfl, (eq_behind_marker none joined.symm).symm⟩

end Replies

end Overlay.Transfer
