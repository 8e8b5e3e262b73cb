import Overlay.Proofs.Link.Course

/-!
# Links that hold nothing back

A link is accepting when whatever is written goes through at once.  Such a link keeps no party
waiting but for what comes in: a read that finds nothing by its deadline expires there
(`QuietUntil.read`), and a read that data comes for in time brings the front of it
(`read_data`).

If nothing but data comes in at all, the link is flowing, and it stays so (`Flowing.read`).
-/

set_option autoImplicit false

namespace Overlay.ScriptedLink

/-! ## Writes that go through -/

/-- Whatever is written is accepted at once. -/
structure Accepting (link : ScriptedLink) : Prop where
  accepts : link.room = none
  flushes : link.flushing = .passes

section Writes

variable {link : ScriptedLink}

theorem accept_of_ne_nil {data : Bytes} (any : data ≠ []) :
    link.accept data = { link with accepted := (link.clock, data) :: link.accepted } := by
  rw [accept, if_neg]
  rwa [List.isEmpty_iff]

/-- What has been accepted is noted, and nothing else changes. -/
theorem exists_accept (link : ScriptedLink) (data : Bytes) :
    ∃ accepted, link.accept data = { link with accepted } := by
  rw [accept]
  split
  · exact ⟨link.accepted, rfl⟩
  · exact ⟨_, rfl⟩

theorem Accepting.write (accepting : link.Accepting) (data : Bytes) (timeout : Nat) :
    link.write data timeout = (.ok (), link.accept data) ∧ (link.accept data).Accepting := by
  obtain ⟨accepted, noted⟩ := link.exists_accept data
  constructor
  · simp only [ScriptedLink.write, accepting.accepts, noted, flush, accepting.flushes]
  · rw [noted]
    exact ⟨accepting.accepts, accepting.flushes⟩

end Writes

/-! ## Reads -/

/-- Nothing comes in up to a given time, that time included. -/
def QuietUntil (link : ScriptedLink) (time : Nat) : Prop :=
  match link.arrivals with
  | [] => link.silent = true
  | event :: _ => time < event.time

/-- The link once all but the given rest of its next arrival has been read. -/
def leaving (link : ScriptedLink) (event : Script.Event) (left : Bytes)
    (rest : List Script.Event) : ScriptedLink :=
  { link with
    clock := max link.clock event.time
    arrivals := if left.isEmpty then rest else { event with arrival := .data left } :: rest }

section Reads

variable {link : ScriptedLink} {event : Script.Event} {rest : List Script.Event}
variable {limit timeout : Nat}

theorem QuietUntil.mono {early late : Nat} (quiet : link.QuietUntil late) (before : early ≤ late) :
    link.QuietUntil early := by
  rw [QuietUntil] at quiet ⊢
  split at quiet
  · exact quiet
  · exact Nat.lt_of_le_of_lt before quiet

/-- A read that finds nothing by its deadline expires at its deadline. -/
theorem QuietUntil.read {time : Nat} (quiet : link.QuietUntil time)
    (early : link.clock + timeout ≤ time) (limit : Nat) :
    link.read limit timeout = (.error .expired, { link with clock := link.clock + timeout }) := by
  rw [QuietUntil] at quiet
  rw [ScriptedLink.read]
  split at quiet
  · rename_i none
    simp only [none, quiet, if_true]
  · rename_i event _ next
    have late : link.clock + timeout < max link.clock event.time := by omega
    simp only [next, if_pos late]

theorem take_ne_nil {data : Bytes} (any : data ≠ []) (asks : 0 < limit) : data.take limit ≠ [] := by
  rw [Ne, List.take_eq_nil_iff, not_or]
  exact ⟨Nat.ne_of_gt asks, any⟩

theorem read_data {data : Bytes} (next : link.arrivals = event :: rest)
    (brings : event.arrival = .data data) (any : data ≠ []) (asks : 0 < limit)
    (inTime : event.time ≤ link.clock + timeout) :
    link.read limit timeout =
      (.ok (data.take limit), link.leaving event (data.drop limit) rest) := by
  have due : ¬ link.clock + timeout < max link.clock event.time := by omega
  have taken : ¬ (data.take limit).isEmpty := by
    rw [List.isEmpty_iff]
    exact take_ne_nil any asks
  simp only [ScriptedLink.read, next, if_neg due, brings, if_neg taken]
  rfl

end Reads

/-! ## Flowing links -/

/-- Only data comes in, and whatever is written is accepted at once. -/
structure Flowing (link : ScriptedLink) : Prop extends Accepting link where
  brings : ∀ event ∈ link.arrivals, ∃ data, data ≠ [] ∧ event.arrival = .data data

section Flowing

variable {link : ScriptedLink} {event : Script.Event} {rest : List Script.Event}
variable {limit timeout : Nat}

theorem flowing_of_pieces {pieces : List (Nat × Bytes)} (any : ∀ piece ∈ pieces, piece.2 ≠ []) :
    let link : ScriptedLink :=
      { arrivals := pieces.map fun piece => ⟨piece.1, .data piece.2⟩ }
    link.Flowing ∧ link.incoming = pieces.flatMap Prod.snd := by
  intro link
  refine ⟨⟨⟨rfl, rfl⟩, fun event member => ?_⟩, ?_⟩
  · obtain ⟨piece, among, rfl⟩ := List.mem_map.mp member
    exact ⟨piece.2, any piece among, rfl⟩
  · rw [incoming, List.flatMap_map]
    rfl

/-- What is left of the data of a flowing link still flows. -/
theorem Flowing.leaving (flowing : link.Flowing) (next : link.arrivals = event :: rest)
    (left : Bytes) : (link.leaving event left rest).Flowing where
  toAccepting := ⟨flowing.accepts, flowing.flushes⟩
  brings := by
    have later : ∀ event ∈ rest, ∃ data, data ≠ [] ∧ event.arrival = .data data :=
      fun event among => flowing.brings event (next ▸ List.mem_cons_of_mem _ among)
    rw [ScriptedLink.leaving]
    split
    · exact later
    · rename_i some
      exact List.forall_mem_cons.mpr
        ⟨⟨left, fun none => some (List.isEmpty_iff.mpr none), rfl⟩, later⟩

/-- **A read from a flowing link that comes in time brings the front of the next arrival.** -/
theorem Flowing.read (flowing : link.Flowing) (next : link.arrivals = event :: rest)
    (asks : 0 < limit) (inTime : event.time ≤ link.clock + timeout) :
    ∃ data left, link.read limit timeout = (.ok data, link.leaving event left rest) ∧
      data ≠ [] ∧ data.length ≤ limit ∧ incomingOf event = data ++ left ∧
        (link.leaving event left rest).Flowing := by
  obtain ⟨data, any, brings⟩ := flowing.brings event (next ▸ List.mem_cons_self)
  refine ⟨data.take limit, data.drop limit, read_data next brings any asks inTime,
    take_ne_nil any asks, List.length_take_le _ _, ?_, flowing.leaving next _⟩
  rw [incomingOf, brings, List.take_append_drop]

theorem Flowing.of_read {data : Bytes} {after : ScriptedLink} (flowing : link.Flowing)
    (answer : link.read limit timeout = (.ok data, after)) :
    ∃ event rest left, link.arrivals = event :: rest ∧ event.time ≤ link.clock + timeout ∧
      incomingOf event = data ++ left ∧ after = link.leaving event left rest ∧ after.Flowing := by
  have brings := brings_read link limit timeout
  rw [answer] at brings
  cases brings with
  | data any bounded _ _ =>
      have asks : 0 < limit := Nat.lt_of_lt_of_le (List.length_pos_iff.mpr any) bounded
      cases next : link.arrivals with
      | nil =>
          rw [ScriptedLink.read, next] at answer
          dsimp only at answer
          split at answer <;> cases answer
      | cons event rest =>
          by_cases inTime : event.time ≤ link.clock + timeout
          · obtain ⟨_, left, same, _, _, front, flowing⟩ := flowing.read next asks inTime
            rw [answer] at same
            cases same
            exact ⟨event, rest, left, rfl, inTime, front, rfl, flowing⟩
          · have quiet : link.QuietUntil (link.clock + timeout) := by
              simp only [QuietUntil, next]
              omega
            rw [quiet.read (Nat.le_refl _)] at answer
            cases answer

theorem Flowing.write (flowing : link.Flowing) (data : Bytes) (timeout : Nat) :
    link.write data timeout = (.ok (), link.accept data) ∧ (link.accept data).Flowing := by
  obtain ⟨answer, accepting⟩ := flowing.toAccepting.write data timeout
  refine ⟨answer, accepting, ?_⟩
  obtain ⟨accepted, noted⟩ := link.exists_accept data
  rw [noted]
  exact flowing.brings

end Flowing

/-! ## Pace -/

/-- Every arrival comes within a given time of the one before. -/
def Paced (phase : Nat) : Nat → List Script.Event → Prop
  | _, [] => True
  | clock, event :: rest =>
      event.time ≤ clock + phase ∧ Paced phase (max clock event.time) rest

instance decidablePaced (phase : Nat) : (clock : Nat) → (arrivals : List Script.Event) →
    Decidable (Paced phase clock arrivals)
  | _, [] => .isTrue trivial
  | clock, event :: rest =>
      have := decidablePaced phase (max clock event.time) rest
      inferInstanceAs (Decidable (_ ∧ _))

section Pace

variable {link : ScriptedLink} {event : Script.Event} {rest : List Script.Event} {phase : Nat}

/-- What is left of an arrival has arrived already. -/
theorem leaving_cases (link : ScriptedLink) (event : Script.Event) (left : Bytes)
    (rest : List Script.Event) :
    left = [] ∧ (link.leaving event left rest).arrivals = rest ∨
      left ≠ [] ∧
        (link.leaving event left rest).arrivals = { event with arrival := .data left } :: rest := by
  by_cases none : left = []
  · exact .inl ⟨none, if_pos (List.isEmpty_iff.mpr none)⟩
  · exact .inr ⟨none, if_neg fun empty => none (List.isEmpty_iff.mp empty)⟩

theorem paced_leaving (paced : Paced phase (max link.clock event.time) rest) (left : Bytes) :
    Paced phase (link.leaving event left rest).clock (link.leaving event left rest).arrivals := by
  change Paced phase (max link.clock event.time) _
  obtain ⟨_, same⟩ | ⟨_, same⟩ := leaving_cases link event left rest
  · rw [same]
    exact paced
  · rw [same, Paced, Nat.max_assoc, Nat.max_self]
    exact ⟨Nat.le_trans (Nat.le_max_right _ _) (Nat.le_add_right _ _), paced⟩

theorem paced_of_arrived {clock : Nat} {arrivals : List Script.Event}
    (arrived : ∀ event ∈ arrivals, event.time ≤ clock) : Paced phase clock arrivals := by
  induction arrivals with
  | nil => trivial
  | cons event rest ih =>
      obtain ⟨early, later⟩ := List.forall_mem_cons.mp arrived
      rw [Paced, Nat.max_eq_left early]
      exact ⟨Nat.le_trans early (Nat.le_add_right _ _), ih later⟩

end Pace

end Overlay.ScriptedLink
