import Overlay.Proofs.Link.Course

/-!
# Runs over a script

A run of a party over a script takes a number of moves that is given to it in advance.  It goes
the way of the course that the script leads to (`runScript_of_course`), so once a course has come
to its end, every run that is long enough comes to the same (`ComesTo`).

A party that has only so much left to say gets on over any script: it is done in the end, or a
read or a write of it lapses (`Limited.exists_course`).
-/

set_option autoImplicit false

namespace Overlay.Party

/-! ## Runs that are long enough -/

section Runs

variable {σ ρ : Type} {party : Party σ ρ} {start state next : σ} {link after : ScriptedLink}
variable {event : Event} {events : List Event}

theorem runScript_of_advance (advance : Advance party state link event next after) (fuel : Nat) :
    party.runScript (fuel + 1) state link = party.runScript fuel next after := by
  rw [runScript]
  cases advance with
  | heard move answer | unheard move answer | said move answer | unsaid move answer _ =>
      rw [move]
      dsimp only
      rw [answer]
  | paused move =>
      rw [move]

theorem done_or_advances (party : Party σ ρ) (state : σ) (link : ScriptedLink) :
    (∃ result, party state link.clock = .done result) ∨
      ∃ event next after, Advance party state link event next after := by
  cases move : party state link.clock with
  | done result => exact .inl ⟨result, rfl⟩
  | pause duration resume => exact .inr ⟨_, _, _, .paused move⟩
  | read limit timeout resume =>
      obtain ⟨event, advance⟩ := exists_advance_of_read move
      exact .inr ⟨event, _, _, advance⟩
  | write data timeout resume =>
      obtain ⟨event, advance⟩ := exists_advance_of_write move
      exact .inr ⟨event, _, _, advance⟩

theorem Advance.not_of_done (advance : Advance party state link event next after) {result : ρ}
    (stops : party state link.clock = .done result) : False := by
  cases advance with
  | heard move _ | unheard move _ | said move _ | unsaid move _ _ | paused move =>
      rw [stops] at move
      cases move

theorem runScript_of_course (course : Course party start link events state after) (fuel : Nat) :
    party.runScript (events.length + fuel) start link = party.runScript fuel state after := by
  induction course generalizing fuel with
  | begin => rw [List.length_nil, Nat.zero_add]
  | step _ last ih =>
      rw [List.length_append, List.length_singleton, Nat.add_assoc, Nat.add_comm 1 fuel, ih,
        runScript_of_advance last]

/-- **A course that ends is the course of every run that is long enough.** -/
theorem runScript_of_ended {result : ρ} (course : Course party start link events state after)
    (stops : party state after.clock = .done result) {fuel : Nat} (long : events.length < fuel) :
    party.runScript fuel start link = some (result, after) := by
  obtain ⟨more, rfl⟩ := Nat.exists_eq_add_of_le (Nat.succ_le_of_lt long)
  rw [Nat.succ_add_eq_add_succ, runScript_of_course course, runScript, stops]

/-- Every run of a party over a script that is long enough ends with a given result, and leaves
a given link. -/
def ComesTo (party : Party σ ρ) (start : σ) (link : ScriptedLink) (result : ρ)
    (after : ScriptedLink) : Prop :=
  ∃ moves, ∀ fuel, moves < fuel → party.runScript fuel start link = some (result, after)

theorem ComesTo.of_ended {result : ρ} (course : Course party start link events state after)
    (stops : party state after.clock = .done result) :
    party.ComesTo start link result after :=
  ⟨events.length, fun _ long => runScript_of_ended course stops long⟩

theorem ComesTo.exists_course {result : ρ} (comes : party.ComesTo start link result after) :
    ∃ events state, Course party start link events state after ∧
      party state after.clock = .done result := by
  obtain ⟨moves, runs⟩ := comes
  exact runScript_course (runs (moves + 1) (Nat.lt_succ_self moves))

theorem ComesTo.of_runScript {fuel : Nat} {result : ρ}
    (runs : party.runScript fuel start link = some (result, after)) :
    party.ComesTo start link result after := by
  obtain ⟨events, state, course, stops⟩ := runScript_course runs
  exact .of_ended course stops

/-- What a party comes to from the end of a course, it comes to from its beginning. -/
theorem ComesTo.of_course {between : ScriptedLink} {result : ρ}
    (course : Course party start link events state between)
    (comes : party.ComesTo state between result after) : party.ComesTo start link result after := by
  obtain ⟨moves, runs⟩ := comes
  refine ⟨events.length + moves, fun fuel long => ?_⟩
  obtain ⟨more, rfl⟩ := Nat.exists_eq_add_of_le (Nat.le_of_lt (Nat.lt_of_le_of_lt
    (Nat.le_add_right _ _) long))
  rw [runScript_of_course course]
  exact runs more (by omega)

/-- **What every move without a lapse keeps holds at the end of every course without a lapse.** -/
theorem Course.invariant (holds : List Event → σ → ScriptedLink → Prop)
    (course : Course party start link events state after) (begins : holds [] start link)
    (smooth : ∀ event ∈ events, ¬ event.Lapsed)
    (keeps : ∀ {events state event next link after}, holds events state link → ¬ event.Lapsed →
      Advance party state link event next after → holds (events ++ [event]) next after) :
    holds events state after := by
  induction course with
  | begin => exact begins
  | step _ last ih =>
      obtain ⟨earlier, latest⟩ := List.forall_mem_append.mp smooth
      exact keeps (ih earlier) (latest _ (List.mem_singleton.mpr rfl)) last

end Runs

/-! ## Parties that get on -/

section Limited

variable {σ ρ : Type} {party : Party σ ρ} {work : σ → Nat}

/-- A party that never pauses, and has only so much left to say, whatever it hears. -/
structure Limited (party : Party σ ρ) (work : σ → Nat) : Prop where
  restless : ∀ {state now duration resume}, party state now ≠ .pause duration resume
  heard : ∀ {state next data}, Step party state (.heard data) next → work next ≤ work state
  said : ∀ {state next data}, Step party state (.said data) next → work next < work state

/-- A party is done, or what it wants next lapses. -/
inductive Stalled (party : Party σ ρ) (state : σ) (link : ScriptedLink) : Prop where
  | done {result : ρ} (stops : party state link.clock = .done result)
  | lapsed {event : Event} {next : σ} {after : ScriptedLink} (lapses : event.Lapsed)
      (last : Advance party state link event next after)

/-- A move without a lapse leaves less to hear, or less to say. -/
theorem Limited.work_lt (limited : Limited party work) {state next : σ}
    {link after : ScriptedLink} {event : Event} (smooth : ¬ event.Lapsed)
    (advance : Advance party state link event next after) :
    after.incoming.length + work next < link.incoming.length + work state := by
  have effect := advance.effect
  have front := congrArg List.length effect.incoming
  rw [List.length_append] at front
  cases event with
  | heard data =>
      have any := List.length_pos_iff.mpr effect.step.any_of_heard
      have less := limited.heard effect.step
      rw [Event.input] at front
      omega
  | said data =>
      have less := limited.said effect.step
      simp only [Event.input, List.length_nil] at front
      omega
  | unheard _ | unsaid _ _ => exact absurd trivial smooth
  | paused =>
      cases effect.step with
      | paused move _ => exact absurd move limited.restless

/-- **A party with only so much to say goes on without a lapse over any script, until it is done
or what it wants next lapses.** -/
theorem Limited.exists_course (limited : Limited party work) (start : σ) (link : ScriptedLink) :
    ∃ events final after, Course party start link events final after ∧
      (∀ event ∈ events, ¬ event.Lapsed) ∧ Stalled party final after := by
  -- Every move takes from what is left to hear or to say.
  induction left : link.incoming.length + work start using Nat.strongRecOn
    generalizing start link with
  | ind size ih =>
      obtain ⟨result, stops⟩ | ⟨event, next, between, first⟩ := done_or_advances party start link
      · exact ⟨[], start, link, .begin, nofun, .done stops⟩
      · by_cases lapses : event.Lapsed
        · exact ⟨[], start, link, .begin, nofun, .lapsed lapses first⟩
        · have less := limited.work_lt lapses first
          obtain ⟨events, final, after, course, smooth, stalled⟩ :=
            ih _ (left ▸ less) next between rfl
          exact ⟨_, final, after, .cons first course,
            List.forall_mem_cons.mpr ⟨lapses, smooth⟩, stalled⟩

end Limited

end Overlay.Party
