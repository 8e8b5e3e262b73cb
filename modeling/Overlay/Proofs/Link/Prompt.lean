import Overlay.Proofs.Link.Flow
import Overlay.Proofs.Link.Runs

/-!
# Prompt links

A link is prompt when all that will arrive has arrived, in pieces of any size, and when
whatever is written is accepted at once.  Nothing is left open over such a link but how the
pieces are cut: a read that finds any bytes brings a part of them, and a read that finds none
lapses in one way.

What a party comes to over every such link is told backwards from its end, move by move
(`Yields.of_read`, `Yields.of_write`, `Yields.of_lapse`, `Yields.of_done`), and it is what a run
over the script comes to (`Yields.runScript`).  A party that has only so much to do is done in
the end, or it wants to read when nothing is left (`Diligent.exists_course`).
-/

set_option autoImplicit false

namespace Overlay

namespace ScriptedLink

/-! ## Reads and writes -/

/-- All that is to arrive has arrived, and whatever is written is accepted at once. -/
structure Prompt (link : ScriptedLink) : Prop where
  arrived : ∀ event ∈ link.arrivals, event.time ≤ link.clock ∧
    ∃ data, data ≠ [] ∧ event.arrival = .data data
  accepts : link.room = none
  flushes : link.flushing = .passes

/-- The lapse of a read that finds nothing left. -/
def absence (silent : Bool) : Lapse := if silent then .expired else .ended

section Prompt

variable {link : ScriptedLink}

theorem prompt_of_pieces {pieces : List Bytes} (any : ∀ piece ∈ pieces, piece ≠ [])
    (silent : Bool) :
    let link : ScriptedLink := { arrivals := pieces.map fun piece => ⟨0, .data piece⟩, silent }
    link.Prompt ∧ link.incoming = pieces.flatten := by
  intro link
  refine ⟨⟨fun event member => ?_, rfl, rfl⟩, ?_⟩
  · obtain ⟨piece, among, rfl⟩ := List.mem_map.mp member
    exact ⟨Nat.le_refl _, piece, any piece among, rfl⟩
  · rw [incoming, List.flatMap_map, ← List.flatMap_id]
    rfl

theorem Prompt.accepting (prompt : link.Prompt) : link.Accepting :=
  ⟨prompt.accepts, prompt.flushes⟩

theorem Prompt.flowing (prompt : link.Prompt) : link.Flowing :=
  ⟨prompt.accepting, fun event among => (prompt.arrived event among).2⟩

/-- A read that finds any bytes brings a part of them, and leaves the rest as prompt. -/
theorem Prompt.read_of_ne_nil (prompt : link.Prompt) {limit : Nat} (timeout : Nat)
    (asks : 0 < limit) (any : link.incoming ≠ []) :
    ∃ data after, link.read limit timeout = (.ok data, after) ∧ data ≠ [] ∧
      data.length ≤ limit ∧ link.incoming = data ++ after.incoming ∧ after.Prompt ∧
        after.clock = link.clock ∧ after.silent = link.silent ∧ after.accepted = link.accepted := by
  cases next : link.arrivals with
  | nil =>
      rw [incoming, next] at any
      exact absurd rfl any
  | cons event rest =>
      have arrived := prompt.arrived
      rw [next] at arrived
      obtain ⟨early, data, full, brings⟩ := arrived event List.mem_cons_self
      have due : max link.clock event.time = link.clock := Nat.max_eq_left early
      have answer : link.read limit timeout = _ := read_data next brings full asks
        (Nat.le_trans early (Nat.le_add_right _ _))
      refine ⟨_, _, answer, take_ne_nil full asks, List.length_take_le _ _, ?_,
        ⟨fun event' member => ?_, prompt.accepts, prompt.flushes⟩, due, rfl, rfl⟩
      · rw [incoming, next, List.flatMap_cons, incomingOf, brings, incoming, leaving]
        dsimp only
        rw [incoming_of_rest event, ← List.append_assoc, List.take_append_drop]
      · rw [leaving] at member ⊢
        dsimp only at member ⊢
        rw [due]
        split at member
        · exact arrived event' (List.mem_cons_of_mem _ member)
        · rename_i more
          rcases List.mem_cons.mp member with rfl | later
          · exact ⟨early, _, fun none => more (List.isEmpty_iff.mpr none), rfl⟩
          · exact arrived event' (List.mem_cons_of_mem _ later)

/-- A prompt link with nothing left to read has no more arrivals. -/
theorem Prompt.arrivals_of_nil (prompt : link.Prompt) (none : link.incoming = []) :
    link.arrivals = [] := by
  cases next : link.arrivals with
  | nil => rfl
  | cons event rest =>
      obtain ⟨_, data, full, brings⟩ := prompt.arrived event (next ▸ List.mem_cons_self)
      rw [incoming, next, List.flatMap_cons, incomingOf, brings] at none
      exact absurd (List.append_eq_nil_iff.mp none).1 full

theorem Prompt.read_of_nil (prompt : link.Prompt) (limit timeout : Nat)
    (none : link.incoming = []) :
    ∃ after, link.read limit timeout = (.error (absence link.silent), after) ∧ after.Prompt ∧
      after.incoming = [] ∧ after.silent = link.silent ∧ after.accepted = link.accepted := by
  have last := prompt.arrivals_of_nil none
  rw [read, absence]
  simp only [last]
  cases silent : link.silent with
  | true =>
      exact ⟨_, rfl, ⟨fun _ member => absurd member List.not_mem_nil, prompt.accepts,
        prompt.flushes⟩, rfl, rfl, rfl⟩
  | false => exact ⟨link, rfl, prompt, none, silent, rfl⟩

theorem Prompt.write (prompt : link.Prompt) (data : Bytes) (timeout : Nat) :
    link.write data timeout = (.ok (), link.accept data) ∧ (link.accept data).Prompt ∧
      (link.accept data).clock = link.clock ∧ (link.accept data).silent = link.silent := by
  obtain ⟨answer, accepts, flushes⟩ := prompt.accepting.write data timeout
  obtain ⟨accepted, noted⟩ := link.exists_accept data
  rw [noted] at answer accepts flushes ⊢
  exact ⟨answer, ⟨prompt.arrived, accepts, flushes⟩, rfl, rfl⟩

end Prompt

end ScriptedLink

namespace Party

/-! ## What a party comes to -/

/-- What a party has come to in the end: its result, what it has said meanwhile and what it has
left unread. -/
structure Account (ρ : Type) where
  result : ρ
  said : Bytes
  unread : Bytes
  deriving DecidableEq

/-- The same end, with something said before. -/
def Account.saying {ρ : Type} (account : Account ρ) (data : Bytes) : Account ρ :=
  { account with said := data ++ account.said }

@[simp] theorem Account.saying_nil {ρ : Type} (account : Account ρ) :
    account.saying [] = account := rfl

@[simp] theorem Account.saying_saying {ρ : Type} (account : Account ρ) (later earlier : Bytes) :
    (account.saying later).saying earlier = account.saying (earlier ++ later) := by
  rw [saying, saying, saying, List.append_assoc]

section Yields

variable {σ ρ : Type} {party : Party σ ρ} {silent : Bool} {now : Nat} {state : σ}
variable {arrived : Bytes} {account : Account ρ}

/-- Over every prompt link on which given bytes have arrived, however they are cut, a party
comes to the same end. -/
def Yields (party : Party σ ρ) (silent : Bool) (now : Nat) (state : σ) (arrived : Bytes)
    (account : Account ρ) : Prop :=
  ∀ link : ScriptedLink, link.Prompt → link.silent = silent → link.clock = now →
    link.incoming = arrived → ∃ events final after, Course party state link events final after ∧
      party final after.clock = .done account.result ∧ after.Prompt ∧ after.silent = silent ∧
        after.written = link.written ++ account.said ∧ after.incoming = account.unread

theorem Yields.of_done {result : ρ} (stops : party state now = .done result) :
    Yields party silent now state arrived ⟨result, [], arrived⟩ := by
  rintro link prompt rfl rfl rfl
  exact ⟨[], state, link, .begin, stops, prompt, rfl, (List.append_nil _).symm, rfl⟩

theorem Yields.of_read {limit timeout : Nat} {resume : Nat → Except Lapse Bytes → σ}
    (move : party state now = .read limit timeout resume) (asks : 0 < limit) (any : arrived ≠ [])
    (goes : ∀ data rest, data ≠ [] → data.length ≤ limit → arrived = data ++ rest →
      Yields party silent now (resume now (.ok data)) rest account) :
    Yields party silent now state arrived account := by
  rintro link prompt rfl rfl rfl
  obtain ⟨data, between, answer, some, bounded, front, prompt, clock, silent, same⟩ :=
    prompt.read_of_ne_nil timeout asks any
  have first : Advance party state link _ _ _ := .heard move answer
  rw [clock] at first
  obtain ⟨events, final, after, course, stops, prompt, quiet, written, unread⟩ :=
    goes data between.incoming some bounded front between prompt silent clock rfl
  refine ⟨_, final, after, .cons first course, stops, prompt, quiet, ?_, unread⟩
  rw [written, ScriptedLink.written, same, ScriptedLink.written]

/-- A party that wants to read one byte hears the first that has arrived. -/
theorem Yields.of_read_byte {timeout : Nat} {resume : Nat → Except Lapse Bytes → σ}
    {byte : UInt8} {rest : Bytes} (move : party state now = .read 1 timeout resume)
    (goes : Yields party silent now (resume now (.ok [byte])) rest account) :
    Yields party silent now state (byte :: rest) account := by
  refine .of_read move Nat.one_pos (List.cons_ne_nil _ _) fun data rest' any bounded front => ?_
  match data, any, bounded with
  | [_], _, _ =>
      cases front
      exact goes
  | _ :: _ :: _, _, bounded => simp at bounded

/-- A party that wants to read when nothing is left lapses, and may be done then. -/
theorem Yields.of_lapse {limit timeout : Nat} {resume : Nat → Except Lapse Bytes → σ} {result : ρ}
    (move : party state now = .read limit timeout resume)
    (stops : ∀ later later',
      party (resume later (.error (ScriptedLink.absence silent))) later' = .done result) :
    Yields party silent now state [] ⟨result, [], []⟩ := by
  rintro link prompt rfl rfl none
  obtain ⟨after, answer, prompt, unread, silent, same⟩ := prompt.read_of_nil limit timeout none
  refine ⟨_, _, after, .step .begin (.unheard move answer), stops _ _, prompt, silent, ?_, unread⟩
  rw [List.append_nil, ScriptedLink.written, same, ScriptedLink.written]

/-- What a party writes is said before all that it says later. -/
theorem Yields.of_write {timeout : Nat} {data : Bytes} {resume : Nat → Except Lapse Unit → σ}
    (move : party state now = .write data timeout resume)
    (goes : Yields party silent now (resume now (.ok ())) arrived account) :
    Yields party silent now state arrived (account.saying data) := by
  rintro link prompt rfl rfl rfl
  obtain ⟨answer, prompt, clock, silent⟩ := prompt.write data timeout
  have first : Advance party state link _ _ _ := .said move answer
  rw [clock] at first
  obtain ⟨events, final, after, course, stops, prompt, quiet, written, unread⟩ :=
    goes (link.accept data) prompt silent clock (link.incoming_accept data)
  refine ⟨_, final, after, .cons first course, stops, prompt, quiet, ?_, unread⟩
  rw [written, ScriptedLink.written_accept, List.append_assoc]
  rfl

end Yields

/-! ## Runs over the script -/

section Runs

variable {σ ρ : Type} {party : Party σ ρ} {start : σ} {link : ScriptedLink}

/-- **A run over a prompt link comes to what the party yields.** -/
theorem Yields.runScript {account : Account ρ}
    (yields : Yields party link.silent link.clock start link.incoming account)
    (prompt : link.Prompt) :
    ∃ moves after, (∀ fuel, moves < fuel →
        party.runScript fuel start link = some (account.result, after)) ∧
      after.Prompt ∧ after.silent = link.silent ∧
        after.written = link.written ++ account.said ∧ after.incoming = account.unread := by
  obtain ⟨events, final, after, course, stops, prompt, silent, written, unread⟩ :=
    yields link prompt rfl rfl rfl
  exact ⟨events.length, after, fun fuel long => runScript_of_ended course stops long, prompt,
    silent, written, unread⟩

end Runs

/-! ## Work -/

section Work

variable {σ ρ : Type} {party : Party σ ρ} {work : σ → Nat} {link : ScriptedLink}

/-- A party that never pauses, asks for at least one byte when it reads, and has only so much
left to say, whatever it hears. -/
structure Diligent (party : Party σ ρ) (work : σ → Nat) : Prop where
  restless : ∀ {state now duration resume}, party state now ≠ .pause duration resume
  asks : ∀ {state now limit timeout resume},
    party state now = .read limit timeout resume → 0 < limit
  heard : ∀ {state next data}, Step party state (.heard data) next → work next ≤ work state
  said : ∀ {state next data}, Step party state (.said data) next → work next < work state

/-- A party is done, or wants to read when nothing is left. -/
inductive Exhausted (party : Party σ ρ) (state : σ) (link : ScriptedLink) : Prop where
  | done {result : ρ} (stops : party state link.clock = .done result)
  | read {limit timeout : Nat} {resume : Nat → Except Lapse Bytes → σ}
      (move : party state link.clock = .read limit timeout resume) (none : link.incoming = [])

theorem Diligent.limited (diligent : Diligent party work) : Limited party work where
  restless := diligent.restless
  heard := diligent.heard
  said := diligent.said

/-- A move without a lapse leaves a prompt link prompt, and as silent as it was. -/
theorem Diligent.prompt_of_advance (diligent : Diligent party work) {state next : σ}
    {after : ScriptedLink} {event : Event} (prompt : link.Prompt) (smooth : ¬ event.Lapsed)
    (advance : Advance party state link event next after) :
    after.Prompt ∧ after.silent = link.silent := by
  have effect := advance.effect
  cases advance with
  | @heard _ _ timeout _ data move answer =>
      have any : link.incoming ≠ [] := by
        rw [effect.incoming]
        exact List.append_ne_nil_of_left_ne_nil effect.step.any_of_heard _
      obtain ⟨_, _, brings, _, _, _, prompt, _, same, _⟩ :=
        prompt.read_of_ne_nil timeout (diligent.asks move) any
      rw [answer] at brings
      cases brings
      exact ⟨prompt, same⟩
  | @said _ timeout data _ move answer =>
      obtain ⟨goes, prompt, _, same⟩ := prompt.write data timeout
      rw [answer] at goes
      cases goes
      exact ⟨prompt, same⟩
  | unheard _ _ | unsaid _ _ _ => exact absurd trivial smooth
  | paused move => exact absurd move diligent.restless

/-- Only a read that finds nothing left lapses over a prompt link. -/
theorem Diligent.exhausted (diligent : Diligent party work) {state : σ} (prompt : link.Prompt)
    (stalled : Stalled party state link) : Exhausted party state link := by
  cases stalled with
  | done stops => exact .done stops
  | lapsed lapses last =>
      cases last with
      | @unheard _ _ timeout _ _ move answer =>
          refine .read move (Classical.byContradiction fun any => ?_)
          obtain ⟨_, _, brings, _⟩ := prompt.read_of_ne_nil timeout (diligent.asks move) any
          rw [answer] at brings
          cases brings
      | @unsaid _ timeout data _ _ _ _ answer _ =>
          rw [(prompt.write data timeout).1] at answer
          cases answer
      | heard _ _ | said _ _ | paused _ => exact lapses.elim

/-- **A diligent party goes on over a prompt link without a lapse, until it is done or has heard
all that has arrived.** -/
theorem Diligent.exists_course (diligent : Diligent party work) (start : σ)
    (prompt : link.Prompt) :
    ∃ events final after, Course party start link events final after ∧
      (∀ event ∈ events, ¬ event.Lapsed) ∧ Exhausted party final after ∧
        after.Prompt ∧ after.silent = link.silent := by
  obtain ⟨events, final, after, course, smooth, stalled⟩ :=
    diligent.limited.exists_course start link
  have still : after.Prompt ∧ after.silent = link.silent :=
    course.invariant (fun _ _ between => between.Prompt ∧ between.silent = link.silent)
      ⟨prompt, rfl⟩ smooth fun before smooth advance => by
        obtain ⟨prompt, same⟩ := diligent.prompt_of_advance before.1 smooth advance
        exact ⟨prompt, same.trans before.2⟩
  exact ⟨events, final, after, course, smooth, diligent.exhausted still.1 stalled, still⟩

end Work

end Party

end Overlay
