import Overlay.Proofs.Link.Talk

/-!
# Scripted links

A read takes the front of what is still to arrive, or it lapses and takes nothing
(`brings_read`).  A write has all of its bytes accepted, or it lapses with a part of them
accepted (`takes_write`).
-/

set_option autoImplicit false

namespace Overlay

namespace ScriptedLink

/-! ## What is still to arrive and what has been accepted -/

/-- The bytes that an arrival brings. -/
def incomingOf (event : Script.Event) : Bytes :=
  match event.arrival with
  | .data bytes => bytes
  | .ended | .failed _ => []

/-- The bytes that are still to arrive. -/
def incoming (link : ScriptedLink) : Bytes := link.arrivals.flatMap incomingOf

/-- The bytes that have been accepted. -/
def written (link : ScriptedLink) : Bytes := link.accepted.reverse.flatMap Prod.snd

theorem incoming_of_nil {link : ScriptedLink} (none : link.arrivals = []) : link.incoming = [] := by
  rw [incoming, none, List.flatMap_nil]

theorem written_accept (link : ScriptedLink) (data : Bytes) :
    (link.accept data).written = link.written ++ data := by
  rw [accept]
  split
  · rename_i none
    rw [List.isEmpty_iff.mp none, List.append_nil]
  · rw [written, written, List.reverse_cons, List.flatMap_append, List.flatMap_singleton]

theorem incoming_accept (link : ScriptedLink) (data : Bytes) :
    (link.accept data).incoming = link.incoming := by
  rw [accept]
  split <;> rfl

/-! ## Reads -/

/-- How a read ends: it takes the front of what is still to arrive, or it lapses and
takes nothing. -/
inductive Brings (link : ScriptedLink) (limit : Nat) :
    Except Lapse Bytes × ScriptedLink → Prop where
  | data {data : Bytes} {after : ScriptedLink} (any : data ≠ []) (bounded : data.length ≤ limit)
      (front : link.incoming = data ++ after.incoming) (same : after.written = link.written) :
      Brings link limit (.ok data, after)
  | lapse {lapse : Lapse} {after : ScriptedLink} (waits : after.incoming = link.incoming)
      (same : after.written = link.written) : Brings link limit (.error lapse, after)

theorem incoming_of_rest (event : Script.Event) (rest : List Script.Event) (left : Bytes) :
    (if left.isEmpty then rest else { event with arrival := .data left } :: rest).flatMap
      incomingOf = left ++ rest.flatMap incomingOf := by
  split
  · rename_i none
    rw [List.isEmpty_iff.mp none, List.nil_append]
  · exact List.flatMap_cons

theorem brings_read (link : ScriptedLink) (limit timeout : Nat) :
    Brings link limit (link.read limit timeout) := by
  rw [read]
  split
  · split
    · exact .lapse rfl rfl
    · exact .lapse rfl rfl
  · rename_i event rest next
    have whole : link.incoming = incomingOf event ++ rest.flatMap incomingOf := by
      rw [incoming, next, List.flatMap_cons]
    dsimp only
    split
    · exact .lapse rfl rfl
    split
    · rename_i ended
      rw [incomingOf, ended, List.nil_append] at whole
      exact .lapse whole.symm rfl
    · rename_i failed
      rw [incomingOf, failed, List.nil_append] at whole
      exact .lapse whole.symm rfl
    · rename_i bytes arrived
      rw [incomingOf, arrived, ← List.take_append_drop limit bytes, List.append_assoc,
        ← incoming_of_rest event] at whole
      split
      · rename_i none
        rw [List.isEmpty_iff.mp none, List.nil_append] at whole
        exact .lapse whole.symm rfl
      · rename_i some
        refine .data (fun none => some (List.isEmpty_iff.mpr none)) ?_ whole rfl
        rw [List.length_take]
        omega

/-! ## Writes -/

/-- How a write ends: it goes through, or it lapses with a part accepted. -/
inductive Takes (link : ScriptedLink) (data : Bytes) :
    Except Lapse Unit × ScriptedLink → Prop where
  | whole {after : ScriptedLink} (waits : after.incoming = link.incoming)
      (grown : after.written = link.written ++ data) : Takes link data (.ok (), after)
  | part {lapse : Lapse} {after : ScriptedLink} {accepted : Bytes} (part : accepted <+: data)
      (waits : after.incoming = link.incoming)
      (grown : after.written = link.written ++ accepted) : Takes link data (.error lapse, after)

section Writes

variable {link accepting : ScriptedLink} {data first second : Bytes}

/-- Once everything has been accepted, a flush ends the write. -/
theorem takes_flush (waits : accepting.incoming = link.incoming)
    (grown : accepting.written = link.written ++ data) (deadline : Nat) :
    Takes link data (accepting.flush deadline) := by
  rw [flush]
  split
  · exact .whole waits grown
  · exact .part (List.prefix_refl _) waits grown
  · exact .part (List.prefix_refl _) waits grown

/-- Once the room is full, the rest waits for more room, or is refused. -/
theorem takes_writeBeyond (waits : accepting.incoming = link.incoming)
    (grown : accepting.written = link.written ++ first) (deadline : Nat) :
    Takes link (first ++ second) (accepting.writeBeyond second deadline) := by
  have part : first <+: first ++ second := List.prefix_append _ _
  rw [writeBeyond]
  split
  · exact .part part waits grown
  · exact .part part waits grown
  · exact .part part waits grown
  · dsimp only
    split
    · exact .part part waits grown
    · refine takes_flush ?_ ?_ deadline
      · rw [incoming_accept]
        exact waits
      · rw [written_accept, ← List.append_assoc, ← grown]
        rfl

theorem takes_write (link : ScriptedLink) (data : Bytes) (timeout : Nat) :
    Takes link data (link.write data timeout) := by
  rw [write]
  split
  · exact takes_flush (incoming_accept link data) (written_accept link data) _
  · rename_i room _
    dsimp only
    generalize narrowed :
      { link.accept (data.take room) with room := some (room - data.length) } = accepting
    have waits : accepting.incoming = link.incoming := by
      rw [← narrowed]
      exact incoming_accept link _
    have grown : accepting.written = link.written ++ data.take room := by
      rw [← narrowed]
      exact written_accept link _
    split
    · rename_i none
      rw [← List.append_nil (data.take room), ← List.isEmpty_iff.mp none,
        List.take_append_drop] at grown
      exact takes_flush waits grown _
    · have takes := @takes_writeBeyond _ _ _ (data.drop room) waits grown
      rw [List.take_append_drop] at takes
      exact takes _

end Writes

end ScriptedLink

end Overlay
