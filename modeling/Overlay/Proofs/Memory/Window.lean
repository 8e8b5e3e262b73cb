import Overlay.Proofs.Memory.Bytes
import Overlay.Proofs.Memory.Planning

/-!
# The window of a planned layout

A window takes the one code region, the one stack and the heap of its layout, and there is a
window exactly when none of these kinds leaves a choice (`window_eq_ok_iff`,
`exists_window_iff`).  A planned layout has all its regions inside memory and within thirty-two
bits, so the code region of its window lies inside any device memory of the same extent
(`code_inside_of_plan`).
-/

set_option autoImplicit false

namespace Overlay

/-- Memory has the extent of an address space. -/
structure DeviceMemory.Spans (memory : DeviceMemory) (space : AddressSpace) : Prop where
  base : memory.base = space.base
  size : memory.bytes.size = space.size.toNat

theorem DeviceMemory.spans_zeroed (space : AddressSpace) : (zeroed space).Spans space :=
  ⟨rfl, Array.size_replicate ..⟩

/-- A region lies inside memory, and its end within thirty-two bits. -/
structure Region.Inside (region : Region) (memory : DeviceMemory) : Prop where
  above : memory.base.toNat ≤ region.base.toNat
  below : region.limit ≤ memory.base.toNat + memory.bytes.size
  space : region.limit ≤ 4294967296

namespace Layout

variable {memory : AddressSpace} {safetyGap : UInt32} {requests : List RegionRequest}
variable {layout : Layout} {window : Window}

/-- The regions of a kind, in their order. -/
def ofKind (layout : Layout) (kind : RegionKind) : List Region :=
  layout.regions.filter fun region => decide (region.kind = kind)

theorem mem_ofKind {kind : RegionKind} {region : Region} :
    region ∈ layout.ofKind kind ↔ region ∈ layout.regions ∧ region.kind = kind := by
  rw [ofKind, List.mem_filter, decide_eq_true_eq]

/-- A region is the single one of its kind when there is no other, and there is none when there
is no region of the kind. -/
theorem single_eq_ok_iff {kind : RegionKind} {region? : Option Region} :
    layout.single kind = .ok region? ↔ layout.ofKind kind = region?.toList := by
  rw [single, ← ofKind]
  cases layout.ofKind kind with
  | nil => cases region? <;> simp
  | cons first others =>
      cases others with
      | nil => cases region? <;> simp
      | cons second others => cases region? <;> simp

theorem required_eq_ok_iff {kind : RegionKind} {region : Region} :
    layout.required kind = .ok region ↔ layout.ofKind kind = [region] := by
  rw [required, bind_eq_ok_iff]
  constructor
  · rintro ⟨region?, single, made⟩
    cases region? with
    | none => cases made
    | some other =>
        cases made
        exact single_eq_ok_iff.mp single
  · exact fun only => ⟨some region, single_eq_ok_iff.mpr only, rfl⟩

/-- **A window is the code, the stack and the heap of its layout**, with nothing else of these
kinds beside them. -/
theorem window_eq_ok_iff : layout.window = .ok window ↔
    layout.ofKind .code = [window.code] ∧ layout.ofKind .stack = [window.stack] ∧
      layout.ofKind .heap = window.heap.toList ∧ window.stackTop = window.stack.stackTop := by
  simp only [Layout.window, bind_eq_ok_iff, required_eq_ok_iff, single_eq_ok_iff]
  constructor
  · rintro ⟨code, onlyCode, stack, onlyStack, heap, onlyHeap, made⟩
    cases made
    exact ⟨onlyCode, onlyStack, onlyHeap, rfl⟩
  · rintro ⟨onlyCode, onlyStack, onlyHeap, top⟩
    exact ⟨_, onlyCode, _, onlyStack, _, onlyHeap, by rw [← top]; rfl⟩

/-- **A layout has a window exactly when it has one code region, one stack and at most one
heap.** -/
theorem exists_window_iff : (∃ window, layout.window = .ok window) ↔
    (layout.ofKind .code).length = 1 ∧ (layout.ofKind .stack).length = 1 ∧
      (layout.ofKind .heap).length ≤ 1 := by
  constructor
  · rintro ⟨window, windowed⟩
    obtain ⟨onlyCode, onlyStack, onlyHeap, _⟩ := window_eq_ok_iff.mp windowed
    rw [onlyCode, onlyStack, onlyHeap]
    exact ⟨rfl, rfl, Option.length_toList_le⟩
  · rintro ⟨oneCode, oneStack, fewHeaps⟩
    obtain ⟨code, onlyCode⟩ := List.length_eq_one_iff.mp oneCode
    obtain ⟨stack, onlyStack⟩ := List.length_eq_one_iff.mp oneStack
    have onlyHeap : layout.ofKind .heap = (layout.ofKind .heap).head?.toList := by
      cases heaps : layout.ofKind .heap with
      | nil => rfl
      | cons heap others =>
          rw [heaps, List.length_cons] at fewHeaps
          rw [List.length_eq_zero_iff.mp (show others.length = 0 by omega)]
          rfl
    exact ⟨⟨code, stack, _, stack.stackTop⟩,
      window_eq_ok_iff.mpr ⟨onlyCode, onlyStack, onlyHeap, rfl⟩⟩

/-- **A planned region lies inside memory of the extent that was planned for.** -/
theorem inside_of_plan (planned : plan memory safetyGap requests = .ok layout) {region : Region}
    (member : region ∈ layout.regions) {device : DeviceMemory}
    (spans : device.Spans layout.memory) : region.Inside device := by
  obtain ⟨feasible, same, -, placed⟩ := plan_eq_ok_iff_feasible.mp planned
  obtain ⟨above, below⟩ := feasible.inside region.plot (placed ▸ List.mem_map_of_mem member)
  rw [Region.limit_plot] at below
  rw [same] at spans
  refine ⟨spans.base ▸ above, ?_, below.trans feasible.space⟩
  rw [spans.base, spans.size]
  exact below

theorem inside_of_only (planned : plan memory safetyGap requests = .ok layout) {kind : RegionKind}
    {region : Region} (only : layout.ofKind kind = [region]) {device : DeviceMemory}
    (spans : device.Spans layout.memory) : region.Inside device := by
  have member : region ∈ layout.ofKind kind := by
    rw [only]
    exact List.mem_singleton_self _
  exact inside_of_plan planned (mem_ofKind.mp member).1 spans

/-- **The code region of a planned layout lies inside memory.** -/
theorem code_inside_of_plan (planned : plan memory safetyGap requests = .ok layout)
    (windowed : layout.window = .ok window) {device : DeviceMemory}
    (spans : device.Spans layout.memory) : window.code.Inside device :=
  inside_of_only planned (window_eq_ok_iff.mp windowed).1 spans

end Layout

end Overlay
