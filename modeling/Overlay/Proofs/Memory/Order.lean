import Overlay.Proofs.Memory.Window

/-!
# Planning in another order

Whether a request is feasible is read off its sequential places, and their order has no part in
it (`Feasible.of_perm`).  A planned region, asked for at the place that it has got, takes this
place again wherever it stands among the others (`plots_requests`).

So the regions of a plan are planned again in any order, each where it was, and they have the
same window (`plan_of_perm`).
-/

set_option autoImplicit false

namespace Overlay

/-- A region that has its place, asked for at this place. -/
def Region.request (region : Region) : RegionRequest where
  name := region.name
  kind := region.kind
  size := region.size
  base := some region.base

namespace Layout

/-! ## Feasible in any order -/

section Places

variable {memory : AddressSpace} {safetyGap : UInt32} {requests requests' : List RegionRequest}

/-- **A request is feasible by its places, in whatever order they are asked for.** -/
theorem Feasible.of_perm (feasible : Feasible memory safetyGap requests)
    (order : (plots memory.base.toNat requests').Perm (plots memory.base.toNat requests)) :
    Feasible memory safetyGap requests' where
  space := feasible.space
  sized request asked := by
    have size : request.size ∈ (plots memory.base.toNat requests').map Plot.size := by
      rw [sizes_plots]
      exact List.mem_map_of_mem asked
    obtain ⟨plot, member, same⟩ := List.mem_map.mp size
    exact same ▸ any_of_plots feasible.sized (order.mem_iff.mp member)
  named := by
    have names := (order.map Plot.name).nodup_iff
    rw [names_plots, names_plots] at names
    exact names.mpr feasible.named
  inside plot member := feasible.inside plot (order.mem_iff.mp member)
  apart := feasible.apart.perm order.symm Plot.Apart.symm
  below stack member grows other known :=
    feasible.below stack (order.mem_iff.mp member) grows other (order.mem_iff.mp known)
  above heap member grows other known :=
    feasible.above heap (order.mem_iff.mp member) grows other (order.mem_iff.mp known)

theorem plots_requests (cursor : Nat) (regions : List Region) :
    plots cursor (regions.map Region.request) = regions.map Region.plot := by
  induction regions generalizing cursor with
  | nil => rfl
  | cons region rest ih =>
      rw [List.map_cons, List.map_cons, plots, ih]
      rfl

end Places

/-! ## Windows in any order -/

section Windows

variable {layout layout' : Layout}

theorem single_perm (order : layout'.regions.Perm layout.regions) (kind : RegionKind) :
    layout'.single kind = layout.single kind := by
  have ofKind : (layout'.ofKind kind).Perm (layout.ofKind kind) := order.filter _
  rw [single, single, ← Layout.ofKind, ← Layout.ofKind]
  generalize layout'.ofKind kind = regions', layout.ofKind kind = regions at ofKind
  rcases regions with _ | ⟨region, _ | ⟨other, rest⟩⟩
  · rw [ofKind.eq_nil]
  · rw [ofKind.eq_singleton]
  · -- More than one region of a kind is refused, whichever of them comes first.
    have more := ofKind.length_eq
    rcases regions' with _ | ⟨_, _ | ⟨_, _⟩⟩
    · cases more
    · cases more
    · rfl

/-- **The window does not depend on the order of the regions**, and neither does the reason why
there is none. -/
theorem window_perm (order : layout'.regions.Perm layout.regions) :
    layout'.window = layout.window := by
  simp only [Layout.window, required, single_perm order]

end Windows

/-! ## Planning again -/

section Again

variable {memory : AddressSpace} {safetyGap : UInt32} {requests : List RegionRequest}
variable {layout : Layout} {regions : List Region}

/-- **The regions of a plan are planned again in any order, and stay where they are.**  Asked for
at the places that they have got, they are accepted and come out in the order in which they are
asked for.  The window, or the reason why there is none, stays the same. -/
theorem plan_of_perm (planned : plan memory safetyGap requests = .ok layout)
    (order : regions.Perm layout.regions) :
    plan memory safetyGap (regions.map Region.request) = .ok { layout with regions } ∧
      ({ layout with regions } : Layout).window = layout.window := by
  obtain ⟨feasible, same, same', placed⟩ := plan_eq_ok_iff_feasible.mp planned
  refine ⟨plan_eq_ok_iff_feasible.mpr ⟨?_, same, same', ?_⟩, window_perm order⟩
  · refine feasible.of_perm ?_
    rw [plots_requests, ← placed]
    exact order.map Region.plot
  · exact (plots_requests _ regions).symm

/-- A stack at the end of the address space is planned again before the code below it. -/
theorem plan_of_reverse :
    let requests : List RegionRequest :=
      [⟨"code", .code, 0x8000, none⟩, ⟨"gap", .gap, 0x1000, none⟩, ⟨"stack", .stack, 0x7000, none⟩]
    let regions : List Region :=
      [⟨"code", .code, 0xFFFF0000, 0x8000⟩, ⟨"gap", .gap, 0xFFFF8000, 0x1000⟩,
        ⟨"stack", .stack, 0xFFFF9000, 0x7000⟩]
    let layout : Layout := ⟨⟨0xFFFF0000, 0x10000⟩, 0x1000, regions⟩
    plan ⟨0xFFFF0000, 0x10000⟩ 0x1000 requests = .ok layout ∧
      regions.reverse.Perm regions ∧
      plan ⟨0xFFFF0000, 0x10000⟩ 0x1000 (regions.reverse.map Region.request) =
        .ok { layout with regions := regions.reverse } ∧
      ({ layout with regions := regions.reverse } : Layout).window = layout.window := by
  intro requests regions layout
  have planned : plan ⟨0xFFFF0000, 0x10000⟩ 0x1000 requests = .ok layout := rfl
  have order : regions.reverse.Perm regions := List.reverse_perm regions
  exact ⟨planned, order, plan_of_perm planned order⟩

end Again

end Layout

end Overlay
