import Overlay.Fault

/-!
# Parties on a link

A party is one end of a conversation over a link, told without the link: its
state says what it wants from the link next, and each answer of the link leads
to another state.  Waiting is part of the wish.  A read or a write names the
longest time that it may take, in milliseconds, and the answer comes with the
time at which it was given.
-/

set_option autoImplicit false

namespace Overlay

/-- Why a read brought no bytes, or a write did not go through. -/
inductive Lapse where
  /-- The other end has closed the link. -/
  | ended
  /-- The link failed. -/
  | failed (error : IoError)
  /-- The time was up. -/
  | expired
  deriving DecidableEq

/-- The fault that a lapse is in a given phase. -/
def Lapse.fault (phase : Phase) : Lapse → Fault
  | .ended => .disconnected phase
  | .failed error => .io error
  | .expired => .timeout phase

/-- What a party does next, and the state that each answer leads to. -/
inductive Move (σ ρ : Type) where
  /-- Read at least one byte and at most `limit` of them. -/
  | read (limit timeout : Nat) (resume : Nat → Except Lapse Bytes → σ)
  /-- Write and flush. -/
  | write (data : Bytes) (timeout : Nat) (resume : Nat → Except Lapse Unit → σ)
  /-- Leave the link alone for a while. -/
  | pause (duration : Nat) (resume : Nat → σ)
  /-- The conversation is over. -/
  | done (result : ρ)

namespace Move

variable {σ σ' ρ ρ' : Type}

/-- The same move of a party whose states are part of larger ones, and which has another move to
make where the first party is done. -/
def follow (state : Nat → σ → σ') (finish : ρ → Move σ' ρ') : Move σ ρ → Move σ' ρ'
  | .read limit timeout resume => .read limit timeout fun now answer => state now (resume now answer)
  | .write data timeout resume => .write data timeout fun now answer => state now (resume now answer)
  | .pause duration resume => .pause duration fun now => state now (resume now)
  | .done outcome => finish outcome

/-- The same move of a party whose states and results are part of larger ones. -/
def embed (state : Nat → σ → σ') (result : ρ → ρ') (move : Move σ ρ) : Move σ' ρ' :=
  move.follow state fun outcome => .done (result outcome)

end Move

/-- A party: what each of its states does next, given the time. -/
abbrev Party (σ ρ : Type) := σ → Nat → Move σ ρ

end Overlay
