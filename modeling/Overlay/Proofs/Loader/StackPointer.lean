import Overlay.Proofs.Loader.Entry

/-!
# Where the stack of an overlay starts

The stack pointer of an overlay is the highest multiple of sixteen that is an address and not
above the end of the stack (`Region.stackTop_highest`).  So it lies in the stack, or at its end,
whenever some multiple of sixteen does, and any sixteen bytes of stack have one
(`Region.base_le_stackTop_iff`, `Region.base_le_stackTop`).  Every overlay that a loader runs
starts with it (`stackPointer_of_window`).

Nothing asks a stack for such a place: a planned stack between two multiples of sixteen has
none, and its overlays start with a stack pointer below it (`not_base_le_stackTop`).
-/

set_option autoImplicit false

namespace Overlay

/-! ## The top of a stack -/

section Tops

variable {stack : Region}

theorem Region.toNat_stackTop (stack : Region) :
    stack.stackTop.toNat = min stack.limit 0xFFFFFFFF / 16 * 16 := by
  rw [stackTop, UInt32.toNat_ofNat_of_lt' (by rw [UInt32.size]; omega)]

theorem Region.dvd_stackTop (stack : Region) : 16 ∣ stack.stackTop.toNat := by
  rw [toNat_stackTop]
  exact Nat.dvd_mul_left 16 _

theorem Region.stackTop_le (stack : Region) : stack.stackTop.toNat ≤ stack.limit := by
  rw [toNat_stackTop]
  omega

/-- **No address is a higher multiple of sixteen** and still not above the end of the stack. -/
theorem Region.stackTop_highest {place : Nat} (multiple : 16 ∣ place) (address : place < 2 ^ 32)
    (below : place ≤ stack.limit) : place ≤ stack.stackTop.toNat := by
  rw [toNat_stackTop]
  omega

/-- The end of the address space is no address, so a stack that ends there has its top sixteen
bytes below. -/
example : Region.stackTop ⟨"stack", .stack, 0xFFFFFFE0, 32⟩ = 0xFFFFFFF0 := rfl

/-- The top of a stack is less than sixteen bytes below its first address. -/
theorem Region.base_lt_stackTop (stack : Region) :
    stack.base.toNat < stack.stackTop.toNat + 16 := by
  have address := stack.base.toNat_lt
  rw [toNat_stackTop, limit]
  omega

/-- **The top of a stack is in the stack or at its end exactly when some multiple of sixteen
is.** -/
theorem Region.base_le_stackTop_iff : stack.base.toNat ≤ stack.stackTop.toNat ↔
    ∃ place, 16 ∣ place ∧ place < 2 ^ 32 ∧ stack.base.toNat ≤ place ∧ place ≤ stack.limit := by
  constructor
  · exact fun above => ⟨_, stack.dvd_stackTop, stack.stackTop.toNat_lt, above, stack.stackTop_le⟩
  · rintro ⟨place, multiple, address, above, below⟩
    exact above.trans (stackTop_highest multiple address below)

/-- Sixteen bytes of stack have room for the top. -/
theorem Region.base_le_stackTop (space : stack.limit ≤ 4294967296) (room : 16 ≤ stack.size.toNat) :
    stack.base.toNat ≤ stack.stackTop.toNat := by
  rw [limit] at space
  refine base_le_stackTop_iff.mpr ⟨(stack.base.toNat + 15) / 16 * 16, Nat.dvd_mul_left 16 _, ?_⟩
  rw [limit]
  omega

end Tops

namespace Loader

variable {σ : Type}

/-! ## The stack pointer of an overlay -/

/-- **An image that is run in any way starts with the stack pointer of its window.** -/
theorem run_stackPointer (loader : Loader σ) (window : Window) (device : Device σ) (load : Load) :
    Launched loader device.board (fun context _ => context.stackPointer = window.stackTop)
      (load.run loader window device) := by
  cases load with
  | given image => exact loadAndRun_launched_of fun _ _ _ _ _ _ => rfl
  | parsed bytes =>
      exact loadBytes_launched_of fun _ _ => loadAndRun_launched_of fun _ _ _ _ _ _ => rfl
  | inPlace length => exact runInPlace_launched_of fun _ _ _ _ _ _ _ _ => rfl

/-- Where the overlays of a window start their stack. -/
structure StartsStack (stack : Region) (top : UInt32) : Prop where
  /-- On a multiple of sixteen. -/
  aligned : 16 ∣ top.toNat
  /-- Not above the end of the stack. -/
  below : top.toNat ≤ stack.limit
  /-- As high as that allows. -/
  highest : ∀ place, 16 ∣ place → place < 2 ^ 32 → place ≤ stack.limit → place ≤ top.toNat
  /-- In the stack or at its end, if there is a multiple of sixteen, and only then. -/
  inside : stack.base.toNat ≤ top.toNat ↔
    ∃ place, 16 ∣ place ∧ place < 2 ^ 32 ∧ stack.base.toNat ≤ place ∧ place ≤ stack.limit
  /-- In particular if the stack has sixteen bytes. -/
  roomy : 16 ≤ stack.size.toNat → stack.base.toNat ≤ top.toNat
  /-- Never sixteen bytes or more below the stack. -/
  near : stack.base.toNat < top.toNat + 16

section Planned

variable {memory : AddressSpace} {safetyGap : UInt32} {requests : List RegionRequest}
variable {layout : Layout} {window : Window}

theorem startsStack_of_plan (planned : Layout.plan memory safetyGap requests = .ok layout)
    (windowed : layout.window = .ok window) : StartsStack window.stack window.stackTop := by
  obtain ⟨_, onlyStack, _, top⟩ := Layout.window_eq_ok_iff.mp windowed
  -- any memory of the planned extent will do, as only the end of the region is asked for
  have space : window.stack.limit ≤ 4294967296 :=
    (Layout.inside_of_only planned onlyStack (DeviceMemory.spans_zeroed _)).space
  rw [top]
  exact
    { aligned := window.stack.dvd_stackTop
      below := window.stack.stackTop_le
      highest := fun _ => Region.stackTop_highest
      inside := Region.base_le_stackTop_iff
      roomy := Region.base_le_stackTop space
      near := window.stack.base_lt_stackTop }

/-- **What the window of a planned layout is, and where its overlays start their stack.**  There
is a window exactly when the layout has one code region, one stack and at most one heap, and it
consists of these.  Its overlays start with a stack pointer that is the highest multiple of
sixteen up to the end of the stack; it is in the stack unless no multiple of sixteen is. -/
theorem stackPointer_of_window (planned : Layout.plan memory safetyGap requests = .ok layout) :
    ((∃ window, layout.window = .ok window) ↔
      (layout.ofKind .code).length = 1 ∧ (layout.ofKind .stack).length = 1 ∧
        (layout.ofKind .heap).length ≤ 1) ∧
    ∀ window, layout.window = .ok window →
      layout.ofKind .code = [window.code] ∧ layout.ofKind .stack = [window.stack] ∧
        layout.ofKind .heap = window.heap.toList ∧ StartsStack window.stack window.stackTop ∧
          ∀ (loader : Loader σ) (device : Device σ) (calls : List Call) (load : Load), ∃ more,
            (load.run loader.recording window (device.recording calls)).2.board.2 = calls ++ more ∧
              ∀ call ∈ more, call.context.stackPointer = window.stackTop := by
  refine ⟨Layout.exists_window_iff, fun window windowed => ?_⟩
  obtain ⟨onlyCode, onlyStack, onlyHeap, _⟩ := Layout.window_eq_ok_iff.mp windowed
  refine ⟨onlyCode, onlyStack, onlyHeap, startsStack_of_plan planned windowed, ?_⟩
  intro loader device calls load
  exact (run_stackPointer loader.recording window (device.recording calls) load).recorded

end Planned

/-- The layout at the top has a window, and its overlays start their stack at its end. -/
theorem stackPointer_of_top :
    topLayout.window = .ok topWindow ∧ StartsStack topWindow.stack topWindow.stackTop ∧
      ∃ call, (Load.run (Loader.recording ⟨Board.inspecting, false⟩) topWindow
          (topDevice.recording []) (.given topImage)).2.board.2 = [call] ∧
        call.context.stackPointer = 0xFFFFFFE0 := by
  have windowed : topLayout.window = .ok topWindow := rfl
  obtain ⟨_, _, _, starts, pointers⟩ :=
    (stackPointer_of_window (σ := Unit) topLayout_planned).2 topWindow windowed
  obtain ⟨more, ran, same⟩ := pointers ⟨Board.inspecting, false⟩ topDevice [] (.given topImage)
  refine ⟨windowed, starts, _, rfl, same _ ?_⟩
  rw [← List.nil_append more, ← ran]
  exact List.mem_singleton_self _

/-- A layout whose stack lies between two multiples of sixteen, right behind the code. -/
def narrowLayout : Layout :=
  ⟨⟨0, 64⟩, 0, [⟨"code", .code, 0, 20⟩, ⟨"stack", .stack, 20, 8⟩]⟩

/-- The window of the layout with the narrow stack. -/
def narrowWindow : Window := ⟨⟨"code", .code, 0, 20⟩, ⟨"stack", .stack, 20, 8⟩, none, 16⟩

/-- The layout is planned and has a window, and an overlay that is run in it starts with a stack
pointer that is below its stack, in the code region. -/
theorem not_base_le_stackTop :
    Layout.plan ⟨0, 64⟩ 0 [⟨"code", .code, 20, none⟩, ⟨"stack", .stack, 8, none⟩] =
        .ok narrowLayout ∧
      narrowLayout.window = .ok narrowWindow ∧
        ¬narrowWindow.stack.base ≤ narrowWindow.stackTop ∧
          ∃ call, (Load.run (Loader.recording ⟨Board.inspecting, false⟩) narrowWindow
              (Device.recording ⟨.zeroed narrowLayout.memory, ()⟩ [])
              (.given (.raw [0x13, 0x05, 0x10, 0x00]))).2.board.2 = [call] ∧
            call.context.stackPointer = 16 ∧
              narrowWindow.code.contains call.context.stackPointer = true :=
  ⟨rfl, rfl, by decide, _, rfl, rfl, rfl⟩

end Loader

end Overlay
