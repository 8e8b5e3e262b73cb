import Overlay.Proofs.Link.Script

/-!
# Courses over a scripted link

A course is what a party does over a scripted link, move by move, and it may be cut off
at any moment.  It is a talk (`Course.talk`) in which the party hears what has arrived,
in order, and says what the link has accepted (`Course.incoming_eq`, `Course.written_eq`),
and the clock of the link tells the time.

A party that comes to an end over a script has taken a course (`runScript_course`), so what
holds of every course, or of every talk (`runScript_ends`), holds whatever a script says.
-/

set_option autoImplicit false

namespace Overlay

theorem ScriptedLink.clock_read_le (link : ScriptedLink) (limit timeout : Nat) :
    (link.read limit timeout).2.clock ≤ link.clock + timeout := by
  rw [read]
  split
  · split
    · exact Nat.le_refl _
    · exact Nat.le_add_right _ _
  · dsimp only
    split
    · exact Nat.le_refl _
    · rename_i inTime
      have due := Nat.le_of_not_lt inTime
      split
      · exact due
      · exact due
      · split
        · exact due
        · exact due

namespace Party

/-! ## One move -/

section Moves

variable {σ ρ : Type} {party : Party σ ρ} {state next : σ} {link after : ScriptedLink}
variable {event : Event}

/-- One move of a party over a scripted link, with the event that it leaves behind. -/
inductive Advance (party : Party σ ρ) :
    σ → ScriptedLink → Event → σ → ScriptedLink → Prop where
  | heard {state : σ} {link after : ScriptedLink} {limit timeout : Nat}
      {resume : Nat → Except Lapse Bytes → σ} {data : Bytes}
      (move : party state link.clock = .read limit timeout resume)
      (answer : link.read limit timeout = (.ok data, after)) :
      Advance party state link (.heard data) (resume after.clock (.ok data)) after
  | unheard {state : σ} {link after : ScriptedLink} {limit timeout : Nat}
      {resume : Nat → Except Lapse Bytes → σ} {lapse : Lapse}
      (move : party state link.clock = .read limit timeout resume)
      (answer : link.read limit timeout = (.error lapse, after)) :
      Advance party state link (.unheard lapse) (resume after.clock (.error lapse)) after
  | said {state : σ} {link after : ScriptedLink} {timeout : Nat} {data : Bytes}
      {resume : Nat → Except Lapse Unit → σ}
      (move : party state link.clock = .write data timeout resume)
      (answer : link.write data timeout = (.ok (), after)) :
      Advance party state link (.said data) (resume after.clock (.ok ())) after
  | unsaid {state : σ} {link after : ScriptedLink} {timeout : Nat} {data accepted : Bytes}
      {resume : Nat → Except Lapse Unit → σ} {lapse : Lapse}
      (move : party state link.clock = .write data timeout resume)
      (answer : link.write data timeout = (.error lapse, after))
      (grown : after.written = link.written ++ accepted) :
      Advance party state link (.unsaid accepted lapse) (resume after.clock (.error lapse)) after
  | paused {state : σ} {link : ScriptedLink} {duration : Nat} {resume : Nat → σ}
      (move : party state link.clock = .pause duration resume) :
      Advance party state link .paused (resume (link.pause duration).clock) (link.pause duration)

/-- What is known of a move: it is a step of the party, it takes what it hears from the
front of what is still to arrive, and the link accepts what it says. -/
structure Advance.Effect (party : Party σ ρ) (state : σ) (link : ScriptedLink) (event : Event)
    (next : σ) (after : ScriptedLink) : Prop where
  step : Step party state event next
  incoming : link.incoming = event.input ++ after.incoming
  written : after.written = link.written ++ event.output

/-- **A move over a script is a step on a link that may do anything.** -/
theorem Advance.effect (advance : Advance party state link event next after) :
    Effect party state link event next after := by
  cases advance with
  | @heard _ limit timeout _ _ move answer =>
      have brings := ScriptedLink.brings_read link limit timeout
      rw [answer] at brings
      cases brings with
      | data any bounded front same =>
          exact ⟨.heard move any bounded _, front, same.trans (List.append_nil _).symm⟩
  | @unheard _ limit timeout _ lapse move answer =>
      have brings := ScriptedLink.brings_read link limit timeout
      rw [answer] at brings
      cases brings with
      | lapse waits same =>
          exact ⟨.unheard move lapse _, waits.symm, same.trans (List.append_nil _).symm⟩
  | @said _ timeout data _ move answer =>
      have takes := ScriptedLink.takes_write link data timeout
      rw [answer] at takes
      cases takes with
      | whole waits grown => exact ⟨.said move _, waits.symm, grown⟩
  | @unsaid _ timeout data accepted _ lapse move answer grown =>
      have takes := ScriptedLink.takes_write link data timeout
      rw [answer] at takes
      cases takes with
      | part part waits grown' =>
          obtain rfl := List.append_cancel_left (grown.symm.trans grown')
          exact ⟨.unsaid move part lapse _, waits.symm, grown⟩
  | paused move => exact ⟨.paused move _, rfl, (List.append_nil _).symm⟩

theorem exists_advance_of_read {limit timeout : Nat} {resume : Nat → Except Lapse Bytes → σ}
    (move : party state link.clock = .read limit timeout resume) :
    let (answer, after) := link.read limit timeout
    ∃ event, Advance party state link event (resume after.clock answer) after := by
  rcases answer : link.read limit timeout with ⟨lapse | data, after⟩
  · exact ⟨_, .unheard move answer⟩
  · exact ⟨_, .heard move answer⟩

theorem exists_advance_of_write {data : Bytes} {timeout : Nat}
    {resume : Nat → Except Lapse Unit → σ}
    (move : party state link.clock = .write data timeout resume) :
    let (answer, after) := link.write data timeout
    ∃ event, Advance party state link event (resume after.clock answer) after := by
  have takes := ScriptedLink.takes_write link data timeout
  rcases answer : link.write data timeout with ⟨lapse | _, after⟩
  · rw [answer] at takes
    cases takes with
    | part _ _ grown => exact ⟨_, .unsaid move answer grown⟩
  · exact ⟨_, .said move answer⟩

theorem Advance.of_heard {limit timeout : Nat} {resume : Nat → Except Lapse Bytes → σ}
    {data : Bytes} (move : party state link.clock = .read limit timeout resume)
    (answer : link.read limit timeout = (.ok data, after))
    (leads : resume after.clock (.ok data) = next) :
    Advance party state link (.heard data) next after :=
  leads ▸ .heard move answer

theorem Advance.of_unheard {limit timeout : Nat} {resume : Nat → Except Lapse Bytes → σ}
    {lapse : Lapse} (move : party state link.clock = .read limit timeout resume)
    (answer : link.read limit timeout = (.error lapse, after))
    (leads : resume after.clock (.error lapse) = next) :
    Advance party state link (.unheard lapse) next after :=
  leads ▸ .unheard move answer

theorem Advance.of_said {timeout : Nat} {data : Bytes} {resume : Nat → Except Lapse Unit → σ}
    (move : party state link.clock = .write data timeout resume)
    (answer : link.write data timeout = (.ok (), after))
    (leads : resume after.clock (.ok ()) = next) :
    Advance party state link (.said data) next after :=
  leads ▸ .said move answer

/-- A party that reads advances within the time that its read may take. -/
theorem Advance.clock_le {limit timeout : Nat} {resume : Nat → Except Lapse Bytes → σ}
    (advance : Advance party state link event next after)
    (moves : party state link.clock = .read limit timeout resume) :
    after.clock ≤ link.clock + timeout := by
  have inTime := link.clock_read_le limit timeout
  cases advance with
  | heard move answer | unheard move answer =>
      rw [moves, Move.read.injEq] at move
      obtain ⟨rfl, rfl, _⟩ := move
      rwa [answer] at inTime
  | said move _ | unsaid move _ _ | paused move =>
      rw [moves] at move
      cases move

end Moves

/-! ## Many moves -/

section Courses

variable {σ ρ : Type} {party : Party σ ρ} {start state : σ} {link after : ScriptedLink}
variable {events : List Event}

/-- Moves of a party over a scripted link in a row, with the events that they leave behind. -/
inductive Course (party : Party σ ρ) (start : σ) (link : ScriptedLink) :
    List Event → σ → ScriptedLink → Prop where
  | begin : Course party start link [] start link
  | step {events : List Event} {state next : σ} {between after : ScriptedLink} {event : Event}
      (before : Course party start link events state between)
      (last : Advance party state between event next after) :
      Course party start link (events ++ [event]) next after

theorem Course.cons {next : σ} {between : ScriptedLink} {event : Event}
    (first : Advance party start link event next between)
    (rest : Course party next between events state after) :
    Course party start link (event :: events) state after := by
  induction rest with
  | begin => exact .step .begin first
  | step _ last ih => exact .step ih last

theorem Course.talk (course : Course party start link events state after) :
    Talk party start events state := by
  induction course with
  | begin => exact .begin
  | step _ last ih => exact .step ih last.effect.step

/-- What a party has heard in a course has been taken from the front of what was to arrive. -/
theorem Course.incoming_eq (course : Course party start link events state after) :
    link.incoming = heard events ++ after.incoming := by
  induction course with
  | begin => rfl
  | step _ last ih =>
      rw [ih, last.effect.incoming, heard_append, heard_singleton, List.append_assoc]

theorem Course.written_eq (course : Course party start link events state after) :
    after.written = link.written ++ said events := by
  induction course with
  | begin => exact (List.append_nil _).symm
  | step _ last ih =>
      rw [last.effect.written, ih, said_append, said_singleton, List.append_assoc]

/-- Moves of a party over a scripted link in a row, each of them from a state that has a given
property. -/
inductive Stretch (party : Party σ ρ) (inside : σ → Prop) (start : σ) (link : ScriptedLink) :
    List Event → σ → ScriptedLink → Prop where
  | begin : Stretch party inside start link [] start link
  | step {events : List Event} {state next : σ} {between after : ScriptedLink} {event : Event}
      (before : Stretch party inside start link events state between) (still : inside state)
      (last : Advance party state between event next after) :
      Stretch party inside start link (events ++ [event]) next after

theorem Stretch.cons {inside : σ → Prop} {next : σ} {between : ScriptedLink} {event : Event}
    (still : inside start) (first : Advance party start link event next between)
    (rest : Stretch party inside next between events state after) :
    Stretch party inside start link (event :: events) state after := by
  induction rest with
  | begin => exact .step .begin still first
  | step _ still last ih => exact .step ih still last

theorem Stretch.clock_le {inside : σ → Prop} {timeout : Nat}
    (reads : ∀ state now, inside state → ∃ limit resume,
      party state now = .read limit timeout resume)
    (stretch : Stretch party inside start link events state after) :
    after.clock ≤ link.clock + timeout * events.length := by
  induction stretch with
  | begin => exact Nat.le_refl _
  | step _ still last ih =>
      obtain ⟨_, _, move⟩ := reads _ _ still
      have inTime := last.clock_le move
      rw [List.length_append, List.length_singleton, Nat.mul_add, Nat.mul_one]
      omega

/-- **A party that comes to an end over a script has taken a course.** -/
theorem runScript_course {fuel : Nat} {result : ρ}
    (runs : party.runScript fuel start link = some (result, after)) :
    ∃ events state, Course party start link events state after ∧
      party state after.clock = .done result := by
  induction fuel generalizing start link with
  | zero => cases runs
  | succ fuel ih =>
      rw [runScript] at runs
      split at runs
      · rename_i stops
        cases runs
        exact ⟨[], start, .begin, stops⟩
      · rename_i move
        obtain ⟨events, state, course, stops⟩ := ih runs
        exact ⟨_, state, .cons (.paused move) course, stops⟩
      · rename_i move
        obtain ⟨event, first⟩ := exists_advance_of_read move
        obtain ⟨events, state, course, stops⟩ := ih runs
        exact ⟨event :: events, state, .cons first course, stops⟩
      · rename_i move
        obtain ⟨event, first⟩ := exists_advance_of_write move
        obtain ⟨events, state, course, stops⟩ := ih runs
        exact ⟨event :: events, state, .cons first course, stops⟩

/-- **What a party does over a scripted link is a talk** in which it hears what has
arrived and says what has been accepted. -/
theorem runScript_ends {fuel : Nat} {result : ρ}
    (runs : party.runScript fuel start link = some (result, after)) :
    ∃ events, Ends party start events result ∧ link.incoming = heard events ++ after.incoming ∧
      after.written = link.written ++ said events := by
  obtain ⟨events, state, course, stops⟩ := runScript_course runs
  exact ⟨events, ⟨state, course.talk, _, stops⟩, course.incoming_eq, course.written_eq⟩

end Courses

end Party

end Overlay
