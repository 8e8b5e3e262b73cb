import Overlay.Proofs.Link.Course

/-!
# Parties in lockstep

Two parties keep in step when related states ask the same of the link, every answer to both
leads to related states again, and they are done together, with related results.  Over one
and the same script they then read and write the same at the same times, and leave the link
the same (`runScript_lockstep`): one comes to an end exactly when the other does.
-/

set_option autoImplicit false

namespace Overlay

/-! ## Moves that match -/

section Moves

variable {σ σ' ρ ρ' : Type}

/-- Two moves that ask the same of the link.  The same answer leads to related states, and
results are related. -/
inductive Move.Matches (states : σ → σ' → Prop) (results : ρ → ρ' → Prop) :
    Move σ ρ → Move σ' ρ' → Prop where
  | read {limit timeout : Nat} {resume : Nat → Except Lapse Bytes → σ}
      {resume' : Nat → Except Lapse Bytes → σ'}
      (next : ∀ now answer, states (resume now answer) (resume' now answer)) :
      Matches states results (.read limit timeout resume) (.read limit timeout resume')
  | write {data : Bytes} {timeout : Nat} {resume : Nat → Except Lapse Unit → σ}
      {resume' : Nat → Except Lapse Unit → σ'}
      (next : ∀ now answer, states (resume now answer) (resume' now answer)) :
      Matches states results (.write data timeout resume) (.write data timeout resume')
  | pause {duration : Nat} {resume : Nat → σ} {resume' : Nat → σ'}
      (next : ∀ now, states (resume now) (resume' now)) :
      Matches states results (.pause duration resume) (.pause duration resume')
  | done {result : ρ} {result' : ρ'} (same : results result result') :
      Matches states results (.done result) (.done result')

end Moves

/-! ## Runs over one script -/

namespace Party

variable {σ σ' ρ ρ' : Type} {party : Party σ ρ} {party' : Party σ' ρ'}

/-- **Parties in lockstep go over a script in the same way**: they come to an end together
or not at all, with related results and the same link. -/
theorem runScript_lockstep {states : σ → σ' → Prop} {results : ρ → ρ' → Prop}
    (step : ∀ state state' now, states state state' →
      Move.Matches states results (party state now) (party' state' now))
    {state : σ} {state' : σ'} (related : states state state') (fuel : Nat)
    (link : ScriptedLink) :
    Option.Rel (fun ended ended' => results ended.1 ended'.1 ∧ ended'.2 = ended.2)
      (party.runScript fuel state link) (party'.runScript fuel state' link) := by
  induction fuel generalizing state state' link with
  | zero => exact .none
  | succ fuel ih =>
      rw [runScript, runScript]
      -- Both ask the same of the same link, so they get the same answer at the same time.
      have matches' := step state state' link.clock related
      generalize party state link.clock = move, party' state' link.clock = move' at matches'
      cases matches' with
      | read next => exact ih (next _ _) _
      | write next => exact ih (next _ _) _
      | pause next => exact ih (next _) _
      | done same => exact .some ⟨same, rfl⟩

theorem runScript_concluding (conclude : ρ → ρ') (fuel : Nat) (state : σ)
    (link : ScriptedLink) :
    (party.concluding conclude).runScript fuel state link =
      (party.runScript fuel state link).map fun ended => (conclude ended.1, ended.2) := by
  induction fuel generalizing state link with
  | zero => rfl
  | succ fuel ih =>
      rw [runScript, runScript, concluding]
      cases party state link.clock with
      | read limit timeout resume => exact ih _ _
      | write data timeout resume => exact ih _ _
      | pause duration resume => exact ih _ _
      | done result => rfl

/-- Two parties that have left the link the same have heard the same. -/
theorem heard_eq_of_runScript {fuel : Nat} {state : σ} {state' : σ'}
    {link after : ScriptedLink} {result : ρ} {result' : ρ'}
    (runs : party.runScript fuel state link = some (result, after))
    (runs' : party'.runScript fuel state' link = some (result', after)) :
    ∃ events events', Ends party state events result ∧ Ends party' state' events' result' ∧
      heard events' = heard events := by
  obtain ⟨events, ends, hears, _⟩ := runScript_ends runs
  obtain ⟨events', ends', hears', _⟩ := runScript_ends runs'
  exact ⟨events, events', ends, ends', List.append_cancel_right (hears'.symm.trans hears)⟩

end Party

end Overlay
