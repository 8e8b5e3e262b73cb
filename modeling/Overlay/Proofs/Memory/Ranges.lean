import Overlay.Proofs.Memory.Window

/-!
# Ranges of a region

A region says of a range that it contains it, and device memory reads a range.  Both look at the
first address and at the end, but the region sums the end up in sixty-four bits.

A planned region contains the ranges that it encloses and no other ones, and the memory of the
layout reads each of them and looks at no byte outside the region (`containsRange_of_plan`).  What
the region does not always have is an answer: a range that begins in or behind it, and whose end
takes more than sixty-four bits, is not found to lie outside, although memory refuses to read it
(`not_encloses_of_overflow`).  The ranges that a loader asks about have words for their lengths,
and are all answered (`exists_containsRange_of_word`).
-/

set_option autoImplicit false

namespace Overlay

namespace Region

/-- A range lies in a region, from its first address to its end. -/
def Encloses (region : Region) (address : UInt32) (count : Nat) : Prop :=
  region.base.toNat ≤ address.toNat ∧ address.toNat + count ≤ region.limit

/-- A range begins in a region or behind it, and its end takes more than sixty-four bits. -/
structure Overflows (region : Region) (address : UInt32) (count : Nat) : Prop where
  above : region.base.toNat ≤ address.toNat
  beyond : 18446744073709551616 ≤ address.toNat + count

variable {region : Region} {address : UInt32} {count : Nat}

/-- **A region contains exactly the ranges that it encloses.** -/
theorem containsRange?_eq_true_iff {count : UInt64} :
    region.containsRange? address count = some true ↔ region.Encloses address count.toNat := by
  have base := region.base.toNat_lt
  have size := region.size.toNat_lt
  rw [containsRange?, Encloses, limit]
  split
  · exact iff_of_false nofun (by omega)
  · split
    · rw [Option.some_inj, decide_eq_true_iff]
      omega
    · exact iff_of_false nofun (by omega)

/-- **It has no answer exactly when the end of a range is too large to be summed up.** -/
theorem containsRange?_eq_none_iff {count : UInt64} :
    region.containsRange? address count = none ↔ region.Overflows address count.toNat := by
  rw [containsRange?]
  constructor
  · intro none
    split at none
    · cases none
    · split at none
      · cases none
      · exact ⟨by omega, by omega⟩
  · rintro ⟨above, beyond⟩
    rw [if_neg (by omega), if_neg (by omega)]

/-- A range whose length is a word has an end that is summed up. -/
theorem exists_containsRange_of_word (region : Region) (address length : UInt32) :
    ∃ answer, region.containsRange? address length.toUInt64 = some answer := by
  refine Option.ne_none_iff_exists'.mp fun none => ?_
  obtain ⟨_, beyond⟩ := containsRange?_eq_none_iff.mp none
  have first := address.toNat_lt
  have small := length.toNat_lt
  rw [UInt32.toNat_toUInt64] at beyond
  omega

theorem Encloses.covers (encloses : region.Encloses address count) {index : Nat}
    (inside : index < count) : region.plot.Covers (address.toNat + index) := by
  obtain ⟨above, below⟩ := encloses
  rw [Plot.Covers, limit_plot]
  exact ⟨above.trans (Nat.le_add_right _ _), by omega⟩

end Region

namespace DeviceMemory

variable {memory other : DeviceMemory} {address : UInt32} {count : Nat}

/-- Memories of one extent with the same bytes in a range read the same there. -/
theorem read_congr (base : other.base = memory.base) (size : other.bytes.size = memory.bytes.size)
    (same : ∀ index, index < count →
      other.byteAt? (address.toNat + index) = memory.byteAt? (address.toNat + index)) :
    other.read address count = memory.read address count := by
  by_cases inside : memory.base.toNat ≤ address.toNat ∧
      address.toNat + count ≤ memory.base.toNat + memory.bytes.size
  · obtain ⟨data, found⟩ := exists_read count inside.1 inside.2
    obtain ⟨data', found'⟩ : ∃ data, other.read address count = .ok data :=
      exists_read count (base ▸ inside.1) (base ▸ size ▸ inside.2)
    rw [found, found']
    refine congrArg Except.ok (eq_of_read found' (length_of_read found) fun index bounded => ?_)
    rw [same index bounded, byteAt?_of_read found bounded]
  · rw [read_eq_error inside, read_eq_error (by rwa [base, size])]

end DeviceMemory

/-! ## Ranges of planned regions -/

namespace Layout

section Ranges

variable {memory : AddressSpace} {safetyGap : UInt32} {requests : List RegionRequest}
variable {layout : Layout} {region : Region} {device : DeviceMemory}

/-- **What a planned region contains, and what device memory makes of it.**  It contains a range
exactly when it encloses the range, and has no answer exactly when the end of a range that does not
begin before it overflows.  A range that is enclosed is read whole, and the read is the same on any
memory of the layout that has the same bytes in the region.  A range without an answer is
refused. -/
theorem containsRange_of_plan (planned : plan memory safetyGap requests = .ok layout)
    (member : region ∈ layout.regions) (spans : device.Spans layout.memory) (address : UInt32)
    (count : UInt64) :
    (region.containsRange? address count = some true ↔ region.Encloses address count.toNat) ∧
      (region.containsRange? address count = none ↔ region.Overflows address count.toNat) ∧
      (region.Encloses address count.toNat →
        (∃ data, device.read address count.toNat = .ok data ∧ data.length = count.toNat) ∧
        ∀ other : DeviceMemory, other.Spans layout.memory →
          (∀ place, region.plot.Covers place → other.byteAt? place = device.byteAt? place) →
            other.read address count.toNat = device.read address count.toNat) ∧
      (region.Overflows address count.toNat →
        device.read address count.toNat = .error (.outOfBounds address count.toNat)) := by
  obtain ⟨floor, ceiling, -⟩ := inside_of_plan planned member spans
  refine ⟨Region.containsRange?_eq_true_iff, Region.containsRange?_eq_none_iff,
    fun encloses => ⟨?_, ?_⟩, fun overflows => ?_⟩
  · obtain ⟨above, below⟩ := encloses
    obtain ⟨data, found⟩ := DeviceMemory.exists_read count.toNat (floor.trans above)
      (below.trans ceiling)
    exact ⟨data, found, DeviceMemory.length_of_read found⟩
  · intro other alike same
    exact DeviceMemory.read_congr (alike.base.trans spans.base.symm)
      (alike.size.trans spans.size.symm) fun index inside => same _ (encloses.covers inside)
  · have base := device.base.toNat_lt
    have size := layout.memory.size.toNat_lt
    have beyond := overflows.beyond
    have extent := spans.size
    exact DeviceMemory.read_eq_error (by omega)

/-- A range of the code region, from three bytes behind its base to its very end. -/
theorem containsRange_to_end :
    let layout : Layout :=
      ⟨⟨0, 64⟩, 0, [⟨"code", .code, 0, 16⟩, ⟨"stack", .stack, 16, 16⟩]⟩
    let code : Region := ⟨"code", .code, 0, 16⟩
    let device : DeviceMemory := .zeroed ⟨0, 64⟩
    let count : UInt64 := 13
    plan ⟨0, 64⟩ 0 [⟨"code", .code, 16, none⟩, ⟨"stack", .stack, 16, none⟩] = .ok layout ∧
      code ∈ layout.regions ∧ device.Spans layout.memory ∧
      (code.containsRange? 3 count = some true ↔ code.Encloses 3 count.toNat) ∧
      (code.containsRange? 3 count = none ↔ code.Overflows 3 count.toNat) ∧
      (code.Encloses 3 count.toNat →
        (∃ data, device.read 3 count.toNat = .ok data ∧ data.length = count.toNat) ∧
        ∀ other : DeviceMemory, other.Spans layout.memory →
          (∀ place, code.plot.Covers place → other.byteAt? place = device.byteAt? place) →
            other.read 3 count.toNat = device.read 3 count.toNat) ∧
      (code.Overflows 3 count.toNat →
        device.read 3 count.toNat = .error (.outOfBounds 3 count.toNat)) := by
  intro layout code device count
  have planned :
      plan ⟨0, 64⟩ 0 [⟨"code", .code, 16, none⟩, ⟨"stack", .stack, 16, none⟩] = .ok layout := rfl
  have member : code ∈ layout.regions := List.mem_cons_self
  have spans : device.Spans layout.memory := DeviceMemory.spans_zeroed _
  exact ⟨planned, member, spans, containsRange_of_plan planned member spans 3 count⟩

/-- **A region may have no answer for a range that it does not enclose.**  The end of the longest
range there is, from the second address of the code region on, overflows.  Memory refuses to read
the range. -/
theorem not_encloses_of_overflow :
    let layout : Layout :=
      ⟨⟨0, 64⟩, 0, [⟨"code", .code, 0, 16⟩, ⟨"stack", .stack, 16, 16⟩]⟩
    let code : Region := ⟨"code", .code, 0, 16⟩
    let count : UInt64 := 0xFFFFFFFFFFFFFFFF
    plan ⟨0, 64⟩ 0 [⟨"code", .code, 16, none⟩, ⟨"stack", .stack, 16, none⟩] = .ok layout ∧
      code ∈ layout.regions ∧
      ¬(∃ answer, code.containsRange? 1 count = some answer ∧
        (answer = true ↔ code.Encloses 1 count.toNat)) ∧
      ¬ code.Encloses 1 count.toNat ∧
      (DeviceMemory.zeroed layout.memory).read 1 count.toNat =
        .error (.outOfBounds 1 count.toNat) := by
  intro layout code count
  refine ⟨rfl, List.mem_cons_self, ?_, ?_, rfl⟩
  · rintro ⟨answer, answered, -⟩
    cases answered
  · intro encloses
    exact absurd encloses.2 (by decide)

end Ranges

end Layout

end Overlay
