import Overlay.Proofs.Link.Lockstep
import Overlay.Proofs.Link.Runs

/-!
# Parties inside parties

A party may do what another one does until this one is done, and see then how to go on: an upload
talks as its sender does, and a supervisor that serves talks as its receiver does.  Over a script
the outer party goes the way of the inner one (`Embeds.course`), and an outer run that comes to an
end has been through an inner one that has come to its end (`Embeds.exists_course`).
-/

set_option autoImplicit false

namespace Overlay.Party

/-! ## Parties that make something of their result -/

section Concluding

variable {σ ρ ρ' : Type} {party : Party σ ρ} {conclude : ρ → ρ'} {start : σ}
variable {link after : ScriptedLink}

theorem comesTo_concluding_iff {result : ρ'} :
    (party.concluding conclude).ComesTo start link result after ↔
      ∃ outcome, party.ComesTo start link outcome after ∧ conclude outcome = result := by
  constructor
  · rintro ⟨moves, runs⟩
    have run := runs (moves + 1) (Nat.lt_succ_self moves)
    rw [runScript_concluding, Option.map_eq_some_iff] at run
    obtain ⟨⟨outcome, _⟩, run, same⟩ := run
    cases same
    exact ⟨outcome, .of_runScript run, rfl⟩
  · rintro ⟨outcome, ⟨moves, runs⟩, rfl⟩
    refine ⟨moves, fun fuel long => ?_⟩
    rw [runScript_concluding, runs fuel long]
    rfl

end Concluding

/-! ## Parties that go on behind another one -/

section Embedding

variable {σ σ' ρ ρ' : Type} {outer : Party σ' ρ'} {inner : Party σ ρ} {onward : Nat → σ → σ'}
variable {start state next : σ} {link after : ScriptedLink} {event : Event} {events : List Event}

/-- A party does what another one does until this one is done.  Where the outer party is, given
the time, follows from where the inner one is. -/
def Embeds (outer : Party σ' ρ') (inner : Party σ ρ) (onward : Nat → σ → σ') : Prop :=
  ∀ state now, (∃ result, inner state now = .done result) ∨
    ∃ finish : ρ → Move σ' ρ', outer (onward now state) now = (inner state now).follow onward finish

theorem Embeds.advance (embeds : Embeds outer inner onward)
    (advance : Advance inner state link event next after) :
    Advance outer (onward link.clock state) link event (onward after.clock next) after := by
  obtain ⟨result, stops⟩ | ⟨finish, moves⟩ := embeds state link.clock
  · exact (advance.not_of_done stops).elim
  · cases advance with
    | heard move answer =>
        rw [move] at moves
        exact .of_heard moves answer rfl
    | unheard move answer =>
        rw [move] at moves
        exact .of_unheard moves answer rfl
    | said move answer =>
        rw [move] at moves
        exact .of_said moves answer rfl
    | unsaid move answer grown =>
        rw [move] at moves
        exact .unsaid moves answer grown
    | paused move =>
        rw [move] at moves
        exact .paused moves

/-- **The outer party goes the way of the inner one.** -/
theorem Embeds.course (embeds : Embeds outer inner onward)
    (course : Course inner start link events state after) :
    Course outer (onward link.clock start) link events (onward after.clock state) after := by
  induction course with
  | begin => exact .begin
  | step _ last ih => exact .step ih (embeds.advance last)

/-- **An outer run that comes to an end has been through an inner one**, and goes on from there
with the moves that are left. -/
theorem Embeds.exists_course (embeds : Embeds outer inner onward) {fuel : Nat}
    {ended : ρ' × ScriptedLink}
    (runs : outer.runScript fuel (onward link.clock start) link = some ended) :
    ∃ events state between result fewer, Course inner start link events state between ∧
      inner state between.clock = .done result ∧ events.length + fewer = fuel ∧
      outer.runScript fewer (onward between.clock state) between = some ended := by
  induction fuel generalizing start link with
  | zero => cases runs
  | succ fuel ih =>
      obtain ⟨result, stops⟩ | ⟨event, next, after, first⟩ := done_or_advances inner start link
      · exact ⟨[], start, link, result, fuel + 1, .begin, stops, Nat.zero_add _, runs⟩
      · rw [runScript_of_advance (embeds.advance first)] at runs
        obtain ⟨events, state, between, result, fewer, course, stops, total, runs⟩ := ih runs
        refine ⟨event :: events, state, between, result, fewer, .cons first course, stops, ?_, runs⟩
        rw [List.length_cons]
        omega

end Embedding

end Overlay.Party
