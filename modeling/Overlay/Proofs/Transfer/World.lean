import Mathlib.Logic.Relation
import Overlay.Proofs.Transfer.Turns

/-!
# Uploads over a reliable link

A host sends images one after another to a device that receives them one after
another, over two lines that lose and alter nothing.  A write goes into its line
piece by piece, a read takes any bytes from the front of what is queued, the two
ends take their moves in any order, and either may be a session ahead of the other.
The only wait that ever ends by itself is the receiver's wait for a sender, upon
which the receiver repeats that it is ready.
-/

set_option autoImplicit false

namespace Overlay.Transfer

open Party (Step)

/-! ## Lines -/

/-- One direction of the link: what can be read, and behind it what is left of the
write under way. -/
structure Line where
  queue : Bytes := []
  pending : Bytes := []

/-- All that is still to be read from a line. -/
def Line.owed (line : Line) : Bytes := line.queue ++ line.pending

/-- A move of a party that reads from one line and writes to the other. -/
inductive Acts {σ ρ : Type} (party : Party σ ρ) : σ → Line → Line → σ → Line → Line → Prop where
  /-- A read brings any part of the front of the queue. -/
  | hears {state next : σ} {data rest pending queue : Bytes}
      (step : Step party state (.heard data) next) :
      Acts party state ⟨data ++ rest, pending⟩ ⟨queue, []⟩ next ⟨rest, pending⟩ ⟨queue, []⟩
  /-- A write begins; the party goes on once all of it is in the queue. -/
  | tells {state next : σ} {data queue : Bytes} {incoming : Line}
      (step : Step party state (.said data) next) :
      Acts party state incoming ⟨queue, []⟩ next incoming ⟨queue, data⟩

/-- A piece of a write goes into the queue. -/
inductive Passes : Line → Line → Prop where
  | pass {queue piece rest : Bytes} (any : piece ≠ []) :
      Passes ⟨queue, piece ++ rest⟩ ⟨queue ++ piece, rest⟩

theorem Passes.owed_eq {line line' : Line} (passes : Passes line line') :
    line'.owed = line.owed := by
  cases passes with
  | pass _ => simp only [Line.owed, List.append_assoc]

/-- What an act takes from the one line and adds to the other, with the step behind it. -/
theorem Acts.event {σ ρ : Type} {party : Party σ ρ} {state next : σ}
    {incoming outgoing incoming' outgoing' : Line}
    (acts : Acts party state incoming outgoing next incoming' outgoing') :
    ∃ event, Step party state event next ∧ ¬ event.Lapsed ∧
      incoming.owed = event.input ++ incoming'.owed ∧
      outgoing'.owed = outgoing.owed ++ event.output := by
  cases acts with
  | hears step =>
      refine ⟨_, step, id, ?_, ?_⟩
      · exact List.append_assoc _ _ _
      · exact (List.append_nil _).symm
  | tells step =>
      refine ⟨_, step, id, rfl, ?_⟩
      simp only [Line.owed, List.append_nil]
      rfl

section Possible

variable {σ ρ : Type} {party : Party σ ρ} {state next : σ} {incoming outgoing : Line}

theorem Passes.of_pending {line : Line} (any : line.pending ≠ []) :
    ∃ line', Passes line line' := by
  obtain ⟨queue, pending⟩ := line
  have passes := @Passes.pass queue pending [] any
  rw [List.append_nil] at passes
  exact ⟨_, passes⟩

theorem Acts.of_said {data : Bytes} (incoming : Line)
    (step : Step party state (.said data) next) (written : outgoing.pending = []) :
    ∃ outgoing', Acts party state incoming outgoing next incoming outgoing' := by
  obtain ⟨queue, pending⟩ := outgoing
  cases written
  exact ⟨_, .tells step⟩

theorem Acts.of_heard {byte : UInt8} {rest : Bytes}
    (step : Step party state (.heard [byte]) next) (queued : incoming.queue = byte :: rest)
    (written : outgoing.pending = []) :
    ∃ incoming', Acts party state incoming outgoing next incoming' outgoing := by
  obtain ⟨_, _⟩ := outgoing
  obtain ⟨_, _⟩ := incoming
  cases written
  cases queued
  exact ⟨_, @Acts.hears _ _ _ _ _ [byte] rest _ _ step⟩

theorem Line.owed_eq_nil {line : Line} (empty : line.queue = []) (written : line.pending = []) :
    line.owed = [] := by
  rw [Line.owed, empty, written]
  rfl

end Possible

/-! ## Worlds -/

/-- An image to be sent, which a word can count, and what its sender is set to. -/
structure Upload where
  config : Sender.Config
  image : Bytes
  bounded : image.length < 4294967296

/-- Both ends and the lines between them.  An end without a state is between two of
its sessions. -/
structure World where
  host : Option Sender.State := none
  device : Option Receiver.State := none
  forth : Line := {}
  back : Line := {}
  /-- The destination as the last session of the device has left it. -/
  place : Buffer
  /-- How often readiness may still be repeated. -/
  repeats : Nat
  /-- How the sessions of the host have ended. -/
  reports : List (Except Fault Sender.Report) := []
  /-- How the sessions of the device have ended. -/
  receipts : List (Except Fault Received) := []

section Moves

variable (uploads : List Upload) (config : Receiver.Config)

/-- A move in a world in which given images are sent to a receiver. -/
inductive Move : World → World → Prop where
  | hostBegins {world : World} {upload : Upload} (idle : world.host = none)
      (due : uploads[world.reports.length]? = some upload) (progress : Progress) (now : Nat) :
      Move world { world with
        host := some (Sender.start upload.config upload.image progress now) }
  | hostActs {world : World} {upload : Upload} {state next : Sender.State} {back forth : Line}
      (active : world.host = some state) (due : uploads[world.reports.length]? = some upload)
      (acts : Acts (Sender.party upload.config upload.image) state world.back world.forth
        next back forth) :
      Move world { world with host := some next, back, forth }
  | hostEnds {world : World} {upload : Upload} {state : Sender.State}
      {result : Except Fault Sender.Report} {progress : Progress} {now : Nat}
      (active : world.host = some state) (due : uploads[world.reports.length]? = some upload)
      (stops : Sender.party upload.config upload.image state now = .done (result, progress))
      (written : world.forth.pending = []) :
      Move world { world with host := none, reports := world.reports ++ [result] }
  | deviceBegins {world : World} (idle : world.device = none)
      (due : world.receipts.length < uploads.length) (now : Nat) :
      Move world { world with device := some (Receiver.start config world.place now) }
  | deviceActs {world : World} {state next : Receiver.State} {forth back : Line}
      (active : world.device = some state)
      (acts : Acts (Receiver.party config) state world.forth world.back next forth back) :
      Move world { world with device := some next, forth, back }
  | deviceRepeats {world : World} {state next : Receiver.State} {repeats : Nat}
      (active : world.device = some state) (written : world.back.pending = [])
      (step : Step (Receiver.party config) state (.unheard .expired) next)
      (again : next.stage = .announcing) (left : world.repeats = repeats + 1) :
      Move world { world with device := some next, repeats }
  | deviceEnds {world : World} {state : Receiver.State} {result : Except Fault Received}
      {after : Buffer} {now : Nat} (active : world.device = some state)
      (stops : Receiver.party config state now = .done (result, after))
      (written : world.back.pending = []) :
      Move world { world with
        device := none, place := after, receipts := world.receipts ++ [result] }
  | forthPasses {world : World} {forth : Line} (passes : Passes world.forth forth) :
      Move world { world with forth }
  | backPasses {world : World} {back : Line} (passes : Passes world.back back) :
      Move world { world with back }

/-- A world that can be reached from the beginning. -/
def Reachable (place : Buffer) (repeats : Nat) : World → Prop :=
  Relation.ReflTransGen (Move uploads config) { place, repeats }

end Moves

/-! ## What happens on every run -/

section Runs

variable {α : Type} {move : α → α → Prop} {goal : α → Prop}

/-- Every run comes to the goal, and none stops before. -/
inductive Inevitably (move : α → α → Prop) (goal : α → Prop) : α → Prop where
  | now {state : α} (reached : goal state) : Inevitably move goal state
  | next {state : α} (possible : ∃ next, move state next)
      (all : ∀ next, move state next → Inevitably move goal next) : Inevitably move goal state

/-- Every run comes to the goal if every move keeps an invariant and takes away from a
measure, and some move is possible before the goal. -/
theorem inevitably_of_measure {invariant : α → Prop} (measure : α → Nat)
    (kept : ∀ {state next}, invariant state → move state next → invariant next)
    (less : ∀ {state next}, invariant state → move state next → measure next < measure state)
    (possible : ∀ {state}, invariant state → goal state ∨ ∃ next, move state next)
    {state : α} (holds : invariant state) : Inevitably move goal state := by
  induction size : measure state using Nat.strongRecOn generalizing state with
  | ind size ih =>
      obtain reached | possible := possible holds
      · exact .now reached
      · refine .next possible fun next goes => ih (measure next) ?_ (kept holds goes) rfl
        exact size ▸ less holds goes

end Runs

end Overlay.Transfer
