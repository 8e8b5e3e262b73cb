import Overlay.Link.Script

/-!
# What a party hears and says

A party on a link that may do anything: a read brings any bytes, as few or as
many as were asked for, or lapses; a write goes through, or lapses with any part
of it accepted; and the clock shows any time.  A step of a party leaves an event
behind, and a talk is a sequence of steps with its events.

What a party does over a scripted link is such a talk (`runScript_ends`), so what
holds of every talk holds whatever a script says.
-/

set_option autoImplicit false

namespace Overlay.Party

/-! ## Events -/

/-- What a step of a party leaves behind. -/
inductive Event where
  /-- A read brought bytes. -/
  | heard (data : Bytes)
  /-- A write went through. -/
  | said (data : Bytes)
  /-- A read lapsed. -/
  | unheard (lapse : Lapse)
  /-- A write lapsed after a part of it was accepted. -/
  | unsaid (accepted : Bytes) (lapse : Lapse)
  /-- Time passed. -/
  | paused
  deriving DecidableEq

namespace Event

/-- The bytes that came in. -/
def input : Event → Bytes
  | .heard data => data
  | _ => []

/-- The bytes that were accepted on the way out. -/
def output : Event → Bytes
  | .said data => data
  | .unsaid accepted _ => accepted
  | _ => []

/-- A read or a write lapsed. -/
def Lapsed : Event → Prop
  | .unheard _ | .unsaid _ _ => True
  | .heard _ | .said _ | .paused => False

end Event

/-- All that a party heard. -/
def heard (events : List Event) : Bytes := events.flatMap Event.input

/-- All that a party said, as far as it was accepted. -/
def said (events : List Event) : Bytes := events.flatMap Event.output

@[simp] theorem heard_nil : heard [] = [] := rfl

@[simp] theorem said_nil : said [] = [] := rfl

@[simp] theorem heard_append (first second : List Event) :
    heard (first ++ second) = heard first ++ heard second := List.flatMap_append

@[simp] theorem said_append (first second : List Event) :
    said (first ++ second) = said first ++ said second := List.flatMap_append

@[simp] theorem heard_singleton (event : Event) : heard [event] = event.input :=
  List.flatMap_singleton ..

@[simp] theorem said_singleton (event : Event) : said [event] = event.output :=
  List.flatMap_singleton ..

/-! ## Steps -/

section Steps

variable {σ ρ : Type} {party : Party σ ρ} {state next : σ} {event : Event}

/-- One step of a party on a link that may do anything. -/
inductive Step (party : Party σ ρ) : σ → Event → σ → Prop where
  | heard {state : σ} {now limit timeout : Nat} {resume : Nat → Except Lapse Bytes → σ}
      (move : party state now = .read limit timeout resume) {data : Bytes} (any : data ≠ [])
      (bounded : data.length ≤ limit) (later : Nat) :
      Step party state (.heard data) (resume later (.ok data))
  | unheard {state : σ} {now limit timeout : Nat} {resume : Nat → Except Lapse Bytes → σ}
      (move : party state now = .read limit timeout resume) (lapse : Lapse) (later : Nat) :
      Step party state (.unheard lapse) (resume later (.error lapse))
  | said {state : σ} {now timeout : Nat} {data : Bytes} {resume : Nat → Except Lapse Unit → σ}
      (move : party state now = .write data timeout resume) (later : Nat) :
      Step party state (.said data) (resume later (.ok ()))
  | unsaid {state : σ} {now timeout : Nat} {data : Bytes} {resume : Nat → Except Lapse Unit → σ}
      (move : party state now = .write data timeout resume) {accepted : Bytes}
      (part : accepted <+: data) (lapse : Lapse) (later : Nat) :
      Step party state (.unsaid accepted lapse) (resume later (.error lapse))
  | paused {state : σ} {now duration : Nat} {resume : Nat → σ}
      (move : party state now = .pause duration resume) (later : Nat) :
      Step party state .paused (resume later)

theorem Step.of_read (timeout : Nat → Nat) {limit : Nat} {resume : Nat → Except Lapse Bytes → σ}
    (moves : ∀ now, party state now = .read limit (timeout now) resume)
    (step : Step party state event next) :
    (∃ data later, data ≠ [] ∧ data.length ≤ limit ∧ event = .heard data ∧
        next = resume later (.ok data)) ∨
      ∃ lapse later, event = .unheard lapse ∧ next = resume later (.error lapse) := by
  cases step with
  | heard move any bounded later =>
      rw [moves, Move.read.injEq] at move
      obtain ⟨rfl, _, rfl⟩ := move
      exact .inl ⟨_, later, any, bounded, rfl, rfl⟩
  | unheard move lapse later =>
      rw [moves, Move.read.injEq] at move
      obtain ⟨_, _, rfl⟩ := move
      exact .inr ⟨lapse, later, rfl, rfl⟩
  | said move _ | unsaid move _ _ _ | paused move _ =>
      rw [moves] at move
      cases move

theorem Step.of_read_byte (timeout : Nat → Nat) {resume : Nat → Except Lapse Bytes → σ}
    (moves : ∀ now, party state now = .read 1 (timeout now) resume)
    (step : Step party state event next) :
    (∃ byte later, event = .heard [byte] ∧ next = resume later (.ok [byte])) ∨
      ∃ lapse later, event = .unheard lapse ∧ next = resume later (.error lapse) := by
  obtain ⟨data, later, any, bounded, hears, leads⟩ | lapses := step.of_read timeout moves
  · obtain ⟨byte, rfl⟩ := List.length_eq_one_iff.mp
      (Nat.le_antisymm bounded (List.length_pos_iff.mpr any))
    exact .inl ⟨byte, later, hears, leads⟩
  · exact .inr lapses

theorem Step.of_write (timeout : Nat → Nat) {data : Bytes} {resume : Nat → Except Lapse Unit → σ}
    (moves : ∀ now, party state now = .write data (timeout now) resume)
    (step : Step party state event next) :
    (∃ later, event = .said data ∧ next = resume later (.ok ())) ∨
      ∃ accepted lapse later, accepted <+: data ∧ event = .unsaid accepted lapse ∧
        next = resume later (.error lapse) := by
  cases step with
  | said move later =>
      rw [moves, Move.write.injEq] at move
      obtain ⟨rfl, _, rfl⟩ := move
      exact .inl ⟨later, rfl, rfl⟩
  | unsaid move part lapse later =>
      rw [moves, Move.write.injEq] at move
      obtain ⟨rfl, _, rfl⟩ := move
      exact .inr ⟨_, lapse, later, part, rfl, rfl⟩
  | heard move _ _ _ | unheard move _ _ | paused move _ =>
      rw [moves] at move
      cases move

theorem Step.any_of_heard {data : Bytes} (step : Step party state (.heard data) next) :
    data ≠ [] := by
  cases step
  assumption

/-- What a step says is nothing, or a part of what the party wants to write. -/
theorem Step.output_cases (step : Step party state event next) :
    event.output = [] ∨ ∃ now data timeout resume,
      party state now = .write data timeout resume ∧ event.output <+: data := by
  cases step with
  | heard _ _ _ _ | unheard _ _ _ | paused _ _ => exact .inl rfl
  | said move _ => exact .inr ⟨_, _, _, _, move, List.prefix_refl _⟩
  | unsaid move part _ _ => exact .inr ⟨_, _, _, _, move, part⟩

theorem Step.not_of_done (moves : ∀ now, ∃ result, party state now = .done result)
    (step : Step party state event next) : False := by
  cases step with
  | heard move _ _ _ | unheard move _ _ | said move _ | unsaid move _ _ _ | paused move _ =>
      obtain ⟨_, stops⟩ := moves _
      rw [stops] at move
      cases move

end Steps

/-! ## Talks -/

section Talks

variable {σ ρ : Type} {party : Party σ ρ}

/-- Steps of a party in a row, with what they leave behind. -/
inductive Talk (party : Party σ ρ) (start : σ) : List Event → σ → Prop where
  | begin : Talk party start [] start
  | step {events : List Event} {state next : σ} {event : Event}
      (before : Talk party start events state) (last : Step party state event next) :
      Talk party start (events ++ [event]) next

/-- A talk after which the party is done. -/
def Ends (party : Party σ ρ) (start : σ) (events : List Event) (result : ρ) : Prop :=
  ∃ state, Talk party start events state ∧ ∃ now, party state now = .done result

/-- An event in the middle of a talk is left behind by a step in the middle of it. -/
theorem Talk.split {start final : σ} {early late : List Event} {event : Event}
    (talk : Talk party start (early ++ event :: late) final) :
    ∃ state next, Talk party start early state ∧ Step party state event next := by
  generalize whole : early ++ event :: late = events at talk
  induction talk generalizing late with
  | begin => simp at whole
  | step before last ih =>
      -- The event is that of the last step, or it is in the talk before.
      rcases List.eq_nil_or_concat late with rfl | ⟨fewer, final, rfl⟩
      · obtain ⟨rfl, same⟩ := List.append_inj' whole rfl
        obtain rfl := List.singleton_inj.mp same
        exact ⟨_, _, before, last⟩
      · rw [List.concat_eq_append, ← List.cons_append, ← List.append_assoc] at whole
        exact ih (List.append_inj' whole rfl).1

theorem Talk.of_done {start state : σ} {events : List Event}
    (moves : ∀ now, ∃ result, party start now = .done result)
    (talk : Talk party start events state) : events = [] ∧ state = start := by
  induction talk with
  | begin => exact ⟨rfl, rfl⟩
  | step _ last ih =>
      rw [ih.2] at last
      exact (last.not_of_done moves).elim

theorem Talk.cons {start state final : σ} {event : Event} {events : List Event}
    (first : Step party start event state) (rest : Talk party state events final) :
    Talk party start (event :: events) final := by
  induction rest with
  | begin => exact .step .begin first
  | step _ last ih => exact .step ih last

/-- **What every step without a lapse keeps holds after every talk without a lapse.** -/
theorem Talk.invariant {start state : σ} {events : List Event} (holds : List Event → σ → Prop)
    (talk : Talk party start events state) (begins : holds [] start)
    (smooth : ∀ event ∈ events, ¬ event.Lapsed)
    (keeps : ∀ {events state event next}, holds events state → ¬ event.Lapsed →
      Step party state event next → holds (events ++ [event]) next) : holds events state := by
  induction talk with
  | begin => exact begins
  | step _ last ih =>
      obtain ⟨earlier, latest⟩ := List.forall_mem_append.mp smooth
      exact keeps (ih earlier) (latest _ (List.mem_singleton.mpr rfl)) last

theorem Ends.cons {start state : σ} {event : Event} {events : List Event} {result : ρ}
    (first : Step party start event state) (rest : Ends party state events result) :
    Ends party start (event :: events) result := by
  obtain ⟨final, talk, stops⟩ := rest
  exact ⟨final, talk.cons first, stops⟩

end Talks

/-! ## Parties that make something of their result -/

section Concluding

variable {σ ρ ρ' : Type} {party : Party σ ρ} {conclude : ρ → ρ'}

/-- A party that does what another one does, and makes something of the result. -/
def concluding (party : Party σ ρ) (conclude : ρ → ρ') : Party σ ρ' :=
  fun state now => (party state now).embed (fun _ next => next) conclude

theorem concluding_eq_read_iff {state : σ} {now limit timeout : Nat}
    {resume : Nat → Except Lapse Bytes → σ} :
    party.concluding conclude state now = .read limit timeout resume ↔
      party state now = .read limit timeout resume := by
  rw [concluding]
  cases party state now with
  | read _ _ _ => simp only [Move.embed, Move.follow, Move.read.injEq]
  | write _ _ _ | pause _ _ | done _ => exact ⟨nofun, nofun⟩

theorem concluding_eq_write_iff {state : σ} {now timeout : Nat} {data : Bytes}
    {resume : Nat → Except Lapse Unit → σ} :
    party.concluding conclude state now = .write data timeout resume ↔
      party state now = .write data timeout resume := by
  rw [concluding]
  cases party state now with
  | write _ _ _ => simp only [Move.embed, Move.follow, Move.write.injEq]
  | read _ _ _ | pause _ _ | done _ => exact ⟨nofun, nofun⟩

theorem concluding_eq_pause_iff {state : σ} {now duration : Nat} {resume : Nat → σ} :
    party.concluding conclude state now = .pause duration resume ↔
      party state now = .pause duration resume := by
  rw [concluding]
  cases party state now with
  | pause _ _ => simp only [Move.embed, Move.follow, Move.pause.injEq]
  | read _ _ _ | write _ _ _ | done _ => exact ⟨nofun, nofun⟩

theorem concluding_eq_done_iff {state : σ} {now : Nat} {result : ρ'} :
    party.concluding conclude state now = .done result ↔
      ∃ outcome, party state now = .done outcome ∧ conclude outcome = result := by
  rw [concluding]
  cases party state now with
  | done outcome => simp only [Move.embed, Move.follow, Move.done.injEq, exists_eq_left']
  | read _ _ _ | write _ _ _ | pause _ _ => exact ⟨nofun, nofun⟩

/-- What is made of the result makes no difference to the steps. -/
theorem step_concluding_iff {state next : σ} {event : Event} :
    Step (party.concluding conclude) state event next ↔ Step party state event next := by
  constructor
  · intro step
    cases step with
    | heard move any bounded later =>
        exact .heard (concluding_eq_read_iff.mp move) any bounded later
    | unheard move lapse later => exact .unheard (concluding_eq_read_iff.mp move) lapse later
    | said move later => exact .said (concluding_eq_write_iff.mp move) later
    | unsaid move part lapse later =>
        exact .unsaid (concluding_eq_write_iff.mp move) part lapse later
    | paused move later => exact .paused (concluding_eq_pause_iff.mp move) later
  · intro step
    cases step with
    | heard move any bounded later =>
        exact .heard (concluding_eq_read_iff.mpr move) any bounded later
    | unheard move lapse later => exact .unheard (concluding_eq_read_iff.mpr move) lapse later
    | said move later => exact .said (concluding_eq_write_iff.mpr move) later
    | unsaid move part lapse later =>
        exact .unsaid (concluding_eq_write_iff.mpr move) part lapse later
    | paused move later => exact .paused (concluding_eq_pause_iff.mpr move) later

theorem talk_concluding_iff {start state : σ} {events : List Event} :
    Talk (party.concluding conclude) start events state ↔ Talk party start events state := by
  constructor
  · intro talk
    induction talk with
    | begin => exact .begin
    | step _ last ih => exact .step ih (step_concluding_iff.mp last)
  · intro talk
    induction talk with
    | begin => exact .begin
    | step _ last ih => exact .step ih (step_concluding_iff.mpr last)

/-- **A talk of the one party is a talk of the other, with something made of the
result.** -/
theorem ends_concluding_iff {start : σ} {events : List Event} {result : ρ'} :
    Ends (party.concluding conclude) start events result ↔
      ∃ outcome, Ends party start events outcome ∧ conclude outcome = result := by
  constructor
  · rintro ⟨state, talk, now, stops⟩
    obtain ⟨outcome, stops, made⟩ := concluding_eq_done_iff.mp stops
    exact ⟨outcome, ⟨state, talk_concluding_iff.mp talk, now, stops⟩, made⟩
  · rintro ⟨outcome, ⟨state, talk, now, stops⟩, made⟩
    exact ⟨state, talk_concluding_iff.mpr talk, now,
      concluding_eq_done_iff.mpr ⟨outcome, stops, made⟩⟩

end Concluding

end Overlay.Party
