import Overlay.Proofs.Link.Course
import Overlay.Proofs.Receiver.Conduct

/-!
# The discipline of a receiver

Whatever a link does to a receiver, and at whatever moment it stops, the bytes that have been
accepted from the receiver are a front of some calls of readiness and one answer to what it
has heard: a refusal with its limit, or an acceptance and the checksum of the image
(`orderly_of_talk`).  It does not call again once it has heard anything (`quiet_of_talk`).

Its destination changes only where the announced image belongs, and not at all before the
first image byte or if the size is refused.  Nothing is asked of the link, and what holds on every
link (`keeps_order`) holds over a script of the bytes that it has brought and accepted, after every
move.
-/

set_option autoImplicit false

namespace Overlay

/-- No part of another reply begins like readiness. -/
theorem Reply.head?_ne_ready {reply : Reply} (other : reply ≠ .ready) {part : Bytes}
    (front : part <+: reply.encode) : part.head? ≠ some Marker.ready.byte := by
  cases part with
  | nil => exact nofun
  | cons byte rest =>
      intro begins
      obtain rfl := Option.some.inj begins
      cases reply with
      | ready => exact other rfl
      | sizeAck | sizeReject _ | verify _ =>
          rw [encode, List.cons_prefix_cons] at front
          exact absurd front.1 (by decide)

namespace Receiver

open Party (Event Step Talk Ends Course heard said)
open Session (bound reading)

/-! ## What a sender is answered -/

/-- The size that a sender has announced, zero as long as its size word is not there. -/
def announced (heard : Bytes) : Nat :=
  match Word.take? heard with
  | some (size, _) => size.toNat
  | none => 0

/-- The image bytes that have been heard: behind two words, and no more than announced. -/
def imageBytes (heard : Bytes) : Bytes := (heard.drop 8).take (announced heard)

/-- What a receiver with a given limit answers to a sender. -/
def answer (limit : UInt32) (heard : Bytes) : Bytes :=
  if limit.toNat < announced heard then Reply.encode (.sizeReject limit)
  else Reply.encode .sizeAck ++ Reply.encode (.verify (checksum (imageBytes heard)))

@[simp] theorem announced_encode (size : UInt32) (rest : Bytes) :
    announced (Word.encode size ++ rest) = size.toNat := by
  rw [announced, Word.take?_encode]

theorem imageBytes_encode (size expected : UInt32) (rest : Bytes) :
    imageBytes (Word.encode size ++ (Word.encode expected ++ rest)) = rest.take size.toNat := by
  rw [imageBytes, announced_encode]
  rfl

section Answers

variable {capacity : UInt32} {before : Buffer} {used : Bytes} {final : Session.Reading}

theorem answer_of_fits {size : UInt32} (fits : ¬ bound capacity before < size) (rest : Bytes) :
    answer (bound capacity before) (Word.encode size ++ rest) =
      Reply.encode .sizeAck ++
        Reply.encode (.verify (checksum (imageBytes (Word.encode size ++ rest)))) := by
  rw [answer, announced_encode, if_neg]
  rwa [UInt32.lt_iff_toNat_lt] at fits

/-- The replies of a session are a front of the answer to what it has used, and to more. -/
theorem utter_replies_prefix (reads : Session.Reads capacity before used final) (rest : Bytes) :
    utter final.replies <+: answer (bound capacity before) (used ++ rest) := by
  cases reads with
  | idle | size _ _ => exact List.nil_prefix
  | refused large _ =>
      refine ⟨[], ?_⟩
      rw [List.append_nil, utter_singleton, List.append_assoc, answer, announced_encode,
        if_pos (UInt32.lt_iff_toNat_lt.mp large)]
  | checksum fits _ | image fits _ _ =>
      rw [utter_singleton, List.append_assoc, answer_of_fits fits]
      exact List.prefix_append _ _
  | whole fits expected length extra =>
      refine ⟨[], ?_⟩
      simp only [List.append_assoc, List.append_nil]
      rw [answer_of_fits fits, imageBytes_encode, ← length, List.take_left, utter_cons,
        utter_singleton]

/-- A session does not say that it is ready. -/
theorem ready_not_mem_replies (reads : Session.Reads capacity before used final) :
    Reply.ready ∉ final.replies := by
  cases reads with
  | idle | size _ _ | refused _ _ | checksum _ _ | image _ _ _ | whole _ _ _ _ => simp

/-! ## What a destination keeps -/

/-- A session stores nothing at the announced size or beyond. -/
theorem destination_beyond (reads : Session.Reads capacity before used final) (rest : Bytes)
    {index : Nat} (beyond : announced (used ++ rest) ≤ index) :
    final.destination[index]? = before[index]? := by
  rw [reads.getElem?_destination, if_neg]
  cases reads with
  | idle | size _ _ | refused _ _ | checksum _ _ => exact Nat.not_lt_zero index
  | image _ _ fewer =>
      rw [List.append_assoc, announced_encode] at beyond
      simp only [Session.Stage.received]
      omega
  | whole _ _ _ _ =>
      rw [List.append_assoc, announced_encode] at beyond
      simp only [Session.Stage.received]
      omega

/-- A session stores nothing if it refuses the size, or before the first image byte. -/
theorem destination_untouched (reads : Session.Reads capacity before used final) (rest : Bytes)
    (early : (bound capacity before).toNat < announced (used ++ rest) ∨
      (used ++ rest).length < 9) : final.destination = before := by
  cases reads with
  | idle | size _ _ | refused _ _ | checksum _ _ => rfl
  | @image _ fits _ data _ | @whole _ fits _ data _ _ =>
      rw [List.append_assoc, announced_encode] at early
      rw [UInt32.lt_iff_toNat_lt] at fits
      simp only [List.length_append, Word.length_encode] at early
      have none : data = [] := List.eq_nil_of_length_eq_zero (by omega)
      rw [none, Buffer.store_nil]

end Answers

/-! ## One moment -/

/-- What a receiver keeps to when it has heard and said given bytes. -/
structure Orderly (limit : UInt32) (before : Buffer) (heard said : Bytes) (destination : Buffer) :
    Prop where
  /-- What has been said is a front of calls of readiness and one answer. -/
  front : ∃ count, said <+: List.replicate count Marker.ready.byte ++ answer limit heard
  /-- At the announced size and beyond, the destination is as it was. -/
  beyond : ∀ index, announced heard ≤ index → destination[index]? = before[index]?
  /-- If the size was refused, or without an image byte, all of the destination is. -/
  untouched : limit.toNat < announced heard ∨ heard.length < 9 → destination = before

section Moments

variable {config : Config} {capacity : UInt32} {before : Buffer} {started : Nat}
variable {state next : State} {event : Event} {listened spoken : Bytes}

/-- A receiver that has come to the reading of a part of what it has heard, and has said a part
of the replies, is in order. -/
theorem orderly_of_reading (count : Nat) (used rest : Bytes)
    (part : spoken <+: utter (calls count ++ (reading capacity before used).replies)) :
    Orderly (bound capacity before) before (used ++ rest) spoken
      (reading capacity before used).destination := by
  have reads := Session.reading_reads capacity before used
  refine ⟨⟨count, part.trans ?_⟩, fun index beyond => destination_beyond reads rest beyond,
    destination_untouched reads rest⟩
  rw [utter_append, utter_calls, List.prefix_append_right_inj]
  exact utter_replies_prefix reads rest

theorem Conduct.orderly (conduct : Conduct capacity before started state listened spoken) :
    Orderly (bound capacity before) before listened spoken state.destination := by
  cases conduct with
  | announcing count =>
      apply orderly_of_reading count [] []
      rw [utter_append]
      exact List.prefix_append _ _
  | listening count =>
      apply orderly_of_reading (count + 1) [] []
      rw [utter_append]
      exact List.prefix_append _ _
  | awaiting count _ _ | finished count _ =>
      have orderly := orderly_of_reading (count + 1) listened []
        (List.prefix_refl (utter (calls (count + 1) ++ (reading capacity before listened).replies)))
      rwa [List.append_nil] at orderly
  | @replying count used earlier reply _ replies rest =>
      apply orderly_of_reading (count + 1)
      rw [replies, ← List.append_assoc, utter_append _ [reply]]
      exact List.prefix_append _ _

theorem Failed.orderly {lapsed : Event}
    (failed : Failed capacity before started lapsed state listened spoken) :
    Orderly (bound capacity before) before listened spoken state.destination := by
  cases failed with
  | unheard count _ _ =>
      have orderly := orderly_of_reading (count + 1) listened []
        (List.prefix_refl (utter (calls (count + 1) ++ (reading capacity before listened).replies)))
      rwa [List.append_nil] at orderly
  | @unsaid count _ spoken reply replies _ accepted part _ =>
      apply orderly_of_reading count
      rw [← replies, utter_append, utter_singleton, List.prefix_append_right_inj]
      exact part

theorem Conduct.quiet (conduct : Conduct capacity before started state listened spoken)
    (any : listened ≠ []) (step : Step (party config) state event next) :
    event.output.head? ≠ some Marker.ready.byte := by
  rcases step.output_cases with silent | ⟨_, _, _, _, move, part⟩
  · rw [silent]
    exact nofun
  · cases conduct with
    | announcing _ | listening _ => exact absurd rfl any
    | awaiting _ _ _ | finished _ _ => cases move
    | @replying _ used _ reply _ replies _ =>
        cases move
        refine Reply.head?_ne_ready ?_ part
        rintro rfl
        apply ready_not_mem_replies (Session.reading_reads capacity before used)
        rw [replies]
        exact List.mem_append_right _ (List.mem_singleton.mpr rfl)

end Moments

/-! ## Whole talks -/

/-- A receiver has accepted an image that has been sent with its checksum, and has said all of
its answer. -/
structure Accepted (limit : Nat) (heard said : Bytes) (received : Received)
    (destination : Buffer) : Prop where
  /-- The image is no longer than the limit. -/
  bounded : received.length ≤ limit
  /-- The size word, the checksum word and the image come first, and the destination holds the
  image. -/
  sent : ∃ size data extra, size.toNat = received.length ∧ data.length = received.length ∧
    heard = Word.encode size ++ (Word.encode received.checksum ++ (data ++ extra)) ∧
    checksum data = received.checksum ∧ Buffer.slice destination 0 received.length = data
  /-- Every reply has been said to its last byte. -/
  answered : ∃ count, said = List.replicate count Marker.ready.byte ++
    (Reply.encode .sizeAck ++ Reply.encode (.verify received.checksum))

section Talks

variable {config : Config} {before : Buffer} {started : Nat}
variable {events : List Event} {state : State}

/-- **A receiver is in order at every moment, whatever its link does.** -/
theorem orderly_of_talk (talk : Talk (party config) (start config before started) events state) :
    Orderly (bound config.maxImageSize before) before (heard events) (said events)
      state.destination := by
  rw [← bound_bound config.maxImageSize before]
  rcases conduct_of_talk talk with conduct | ⟨_, _, failed⟩
  · exact conduct.orderly
  · exact failed.orderly

/-- **A receiver that has heard a byte does not say that it is ready any more.** -/
theorem quiet_of_talk {early late : List Event} {event : Event}
    (talk : Talk (party config) (start config before started) (early ++ event :: late) state)
    (any : heard early ≠ []) : event.output.head? ≠ some Marker.ready.byte := by
  obtain ⟨middle, next, talk, step⟩ := talk.split
  rcases conduct_of_talk talk with conduct | ⟨_, _, failed⟩
  · exact conduct.quiet any step
  · exact (failed.not_step step).elim

/-- A receiver reports an image only when it has accepted one. -/
theorem accepted_of_ends {received : Received} {place : Buffer}
    (ends : Ends (party config) (start config before started) events (.ok received, place)) :
    Accepted (min config.maxImageSize.toNat before.size) (heard events) (said events) received
      place := by
  obtain ⟨count, size, data, extra, hears, length, fits, same, reported, rfl, spoken⟩ :=
    verified_of_ends ends
  rw [Session.bound_lt_iff] at fits
  refine ⟨by omega, ⟨size, data, extra, by omega, reported.symm, hears, same, ?_⟩, count + 1, ?_⟩
  · rw [reported]
    exact Buffer.slice_store before data (by omega)
  · rw [spoken, utter_append, utter_calls, utter_cons, utter_singleton]

/-- **The discipline of a receiver.**  On a link that may do anything, and at every moment, the
receiver is in order, and has not called since it heard its first byte.  What it leaves in the end
is its destination, and it reports success only for an image that it has accepted.  Its limit is
the smaller of the configured size and the destination.  Over a script it has heard what has
arrived, and the link has accepted what it has said. -/
theorem keeps_order (talk : Talk (party config) (start config before started) events state) :
    (bound config.maxImageSize before).toNat = min config.maxImageSize.toNat before.size ∧
      Orderly (bound config.maxImageSize before) before (heard events) (said events)
        state.destination ∧
      (∀ early event late, events = early ++ event :: late → heard early ≠ [] →
        event.output.head? ≠ some Marker.ready.byte) ∧
      (∀ now result place, party config state now = .done (result, place) →
        place = state.destination) ∧
      (∀ now received place, party config state now = .done (.ok received, place) →
        Accepted (min config.maxImageSize.toNat before.size) (heard events) (said events)
          received place) ∧
      ∀ link after, Course (party config) (start config before started) link events state after →
        link.incoming = heard events ++ after.incoming ∧
          after.written = link.written ++ said events := by
  refine ⟨?_, orderly_of_talk talk, ?_, ?_, ?_, ?_⟩
  · have small := config.maxImageSize.toNat_lt
    rw [Session.toNat_bound]
    omega
  · rintro early event late rfl any
    exact quiet_of_talk talk any
  · intro now result place stops
    exact (stage_of_done stops).2.symm
  · intro now received place stops
    exact accepted_of_ends ⟨state, talk, now, stops⟩
  · intro link after course
    exact ⟨course.incoming_eq, course.written_eq⟩

/-- A link on which a sender comes late and sends the byte 65, in three pieces and with a byte
too many. -/
def sending : ScriptedLink where
  arrivals :=
    [⟨700, .data [1, 0]⟩, ⟨710, .data [0, 0, 139, 158]⟩, ⟨720, .data [217, 211, 65, 66]⟩]

/-- A receiver reports the byte over this link, and is in order. -/
theorem orderly_of_upload :
    ∃ events state after,
      Course (party {}) (start {} #[7, 7] 0) sending events state after ∧
        party {} state after.clock = .done (.ok ⟨1, checksum [65]⟩, #[65, 7]) ∧
        (bound ({} : Config).maxImageSize #[7, 7]).toNat =
          min ({} : Config).maxImageSize.toNat (#[7, 7] : Buffer).size ∧
        Orderly (bound ({} : Config).maxImageSize #[7, 7]) #[7, 7] (heard events) (said events)
          state.destination ∧
        (∀ early event late, events = early ++ event :: late → heard early ≠ [] →
          event.output.head? ≠ some Marker.ready.byte) ∧
        (∀ now result place, party {} state now = .done (result, place) →
          place = state.destination) ∧
        (∀ now received place, party {} state now = .done (.ok received, place) →
          Accepted (min ({} : Config).maxImageSize.toNat (#[7, 7] : Buffer).size) (heard events)
            (said events) received place) ∧
        ∀ link after, Course (party {}) (start {} #[7, 7] 0) link events state after →
          link.incoming = heard events ++ after.incoming ∧
            after.written = link.written ++ said events := by
  have runs : (party {}).runScript 13 (start {} #[7, 7] 0) sending =
      some ((.ok ⟨1, checksum [65]⟩, #[65, 7]),
        { clock := 720, accepted := [(720, 0xF5 :: Word.encode (checksum [65])),
          (710, [0xC1]), (500, [0xC0]), (0, [0xC0])] }) := rfl
  obtain ⟨events, state, course, stops⟩ := Party.runScript_course runs
  exact ⟨events, state, _, course, stops, keeps_order course.talk⟩

end Talks

end Receiver

end Overlay
