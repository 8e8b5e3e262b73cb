import Mathlib.Algebra.GroupWithZero.Nat
import Mathlib.Order.Interval.Finset.Nat
import Overlay.Memory.Layout

/-!
# Sequential placement

Regions that are asked for take their places one after another: a region starts at its
fixed base, or where the one before it has ended.  The places are told in natural numbers,
so that a region may be asked for anywhere, and nothing here depends on the rules that a
planner checks.

Plots that lie apart and within given bounds are together no larger than what is between
the bounds (`sum_sizes_le`), wherever each of them lies.
-/

set_option autoImplicit false

namespace Overlay

/-! ## Plots -/

/-- A stretch of addresses with a name and a use. -/
structure Plot where
  name : String
  kind : RegionKind
  base : Nat
  size : UInt32

namespace Plot

/-- One past the last address. -/
def limit (plot : Plot) : Nat := plot.base + plot.size.toNat

/-- An address lies in a plot. -/
def Covers (plot : Plot) (address : Nat) : Prop := plot.base ≤ address ∧ address < plot.limit

/-- No address lies in both of two plots. -/
def Apart (first second : Plot) : Prop :=
  ∀ address, ¬ (first.Covers address ∧ second.Covers address)

/-- A plot lies between two bounds. -/
def Within (floor ceiling : Nat) (plot : Plot) : Prop := floor ≤ plot.base ∧ plot.limit ≤ ceiling

theorem Apart.symm {first second : Plot} (apart : first.Apart second) : second.Apart first :=
  fun address both => apart address both.symm

/-- Plots that are not empty lie apart when one ends before the other begins. -/
theorem apart_iff {first second : Plot} (any : 0 < first.size.toNat)
    (any' : 0 < second.size.toNat) :
    first.Apart second ↔ first.limit ≤ second.base ∨ second.limit ≤ first.base := by
  simp only [Apart, Covers, limit]
  constructor
  · intro apart
    have := apart (max first.base second.base)
    omega
  · intro beside address both
    omega

/-- **Plots that lie apart share out what is between their bounds**: the addresses of all
of them are as many as their sizes say. -/
theorem exists_addresses {plots : List Plot} (apart : plots.Pairwise Apart) :
    ∃ addresses : Finset Nat, addresses.card = (plots.map fun plot => plot.size.toNat).sum ∧
      ∀ address, address ∈ addresses ↔ ∃ plot ∈ plots, plot.Covers address := by
  induction plots with
  | nil => exact ⟨∅, rfl, by simp⟩
  | cons plot rest ih =>
      rw [List.pairwise_cons] at apart
      obtain ⟨others, count, covered⟩ := ih apart.2
      have separate : Disjoint (Finset.Ico plot.base plot.limit) others := by
        rw [Finset.disjoint_left]
        intro address here there
        obtain ⟨other, member, covers⟩ := (covered address).mp there
        exact apart.1 other member address ⟨Finset.mem_Ico.mp here, covers⟩
      refine ⟨Finset.Ico plot.base plot.limit ∪ others, ?_, ?_⟩
      · rw [Finset.card_union_of_disjoint separate, Nat.card_Ico, count, limit, List.map_cons,
          List.sum_cons, Nat.add_sub_cancel_left]
      · intro address
        simp only [Finset.mem_union, Finset.mem_Ico, covered, List.mem_cons, exists_eq_or_imp]
        rfl

/-- **Plots that lie apart between two bounds are together no larger than what is between
them.** -/
theorem sum_sizes_le {plots : List Plot} {floor ceiling : Nat} (apart : plots.Pairwise Apart)
    (inside : ∀ plot ∈ plots, plot.Within floor ceiling) :
    (plots.map fun plot => plot.size.toNat).sum ≤ ceiling - floor := by
  obtain ⟨addresses, count, covered⟩ := exists_addresses apart
  have bounded : addresses ⊆ Finset.Ico floor ceiling := by
    intro address member
    obtain ⟨plot, asked, above, below⟩ := (covered address).mp member
    obtain ⟨least, most⟩ := inside plot asked
    exact Finset.mem_Ico.mpr ⟨by omega, by omega⟩
  rw [← count, ← Nat.card_Ico]
  exact Finset.card_le_card bounded

end Plot

/-! ## Where regions are asked to lie -/

/-- The plot of a region that has its place. -/
def Region.plot (region : Region) : Plot :=
  ⟨region.name, region.kind, region.base.toNat, region.size⟩

/-- The region at a plot whose base is an address. -/
def Plot.region (plot : Plot) : Region :=
  ⟨plot.name, plot.kind, UInt32.ofNat plot.base, plot.size⟩

theorem Plot.plot_region {plot : Plot} (any : 0 < plot.size.toNat)
    (fits : plot.limit ≤ 4294967296) : plot.region.plot = plot := by
  have small : plot.base < UInt32.size := by
    rw [limit] at fits
    rw [UInt32.size]
    omega
  rw [region, Region.plot, UInt32.toNat_ofNat_of_lt' small]

namespace Region

@[simp] theorem limit_plot (region : Region) : region.plot.limit = region.limit := rfl

/-- A region is determined by its plot. -/
theorem plot_injective : Function.Injective plot := by
  rintro ⟨name, kind, base, size⟩ ⟨name', kind', base', size'⟩ same
  simp only [plot, Plot.mk.injEq] at same
  obtain ⟨rfl, rfl, base, rfl⟩ := same
  rw [UInt32.toNat_inj.mp base]

theorem contains_iff (region : Region) (address : UInt32) :
    region.contains address = true ↔ region.plot.Covers address.toNat := by
  simp only [contains, Bool.and_eq_true, decide_eq_true_eq]
  rfl

/-- A region that is not empty overlaps a plot that is not empty unless they lie apart. -/
theorem overlaps_iff {region : Region} {plot : Plot} (any : 0 < region.size.toNat)
    (any' : 0 < plot.size.toNat) :
    region.overlaps plot.base plot.limit = true ↔ ¬ region.plot.Apart plot := by
  rw [Plot.apart_iff any any', limit_plot, overlaps, Bool.and_eq_true, decide_eq_true_eq,
    decide_eq_true_eq]
  change region.base.toNat < plot.limit ∧ plot.base < region.limit ↔
    ¬ (region.limit ≤ plot.base ∨ plot.limit ≤ region.base.toNat)
  omega

end Region

/-- The place of a region that is asked for: at its fixed base, or without one at
`cursor`. -/
def RegionRequest.plot (request : RegionRequest) (cursor : Nat) : Plot :=
  ⟨request.name, request.kind, (request.base.map UInt32.toNat).getD cursor, request.size⟩

namespace Layout

/-- The places of regions that are asked for in turn, each behind the one before it unless
its base is fixed. -/
def plots (cursor : Nat) : List RegionRequest → List Plot
  | [] => []
  | request :: rest => request.plot cursor :: plots (request.plot cursor).limit rest

@[simp] theorem names_plots (cursor : Nat) (requests : List RegionRequest) :
    (plots cursor requests).map Plot.name = requests.map RegionRequest.name := by
  induction requests generalizing cursor with
  | nil => rfl
  | cons request rest ih => simp only [plots, List.map_cons, ih, RegionRequest.plot]

theorem sizes_plots (cursor : Nat) (requests : List RegionRequest) :
    (plots cursor requests).map Plot.size = requests.map RegionRequest.size := by
  induction requests generalizing cursor with
  | nil => rfl
  | cons request rest ih => simp only [plots, List.map_cons, ih, RegionRequest.plot]

theorem any_of_plots {cursor : Nat} {requests : List RegionRequest}
    (sized : ∀ request ∈ requests, 0 < request.size.toNat) {plot : Plot}
    (member : plot ∈ plots cursor requests) : 0 < plot.size.toNat := by
  have size := List.mem_map_of_mem (f := Plot.size) member
  rw [sizes_plots] at size
  obtain ⟨request, asked, same⟩ := List.mem_map.mp size
  exact same ▸ sized request asked

theorem total_eq_sum_plots (cursor : Nat) (requests : List RegionRequest) :
    total requests = ((plots cursor requests).map fun plot => plot.size.toNat).sum := by
  induction requests generalizing cursor with
  | nil => rfl
  | cons request rest ih =>
      simp only [total, plots, List.map_cons, List.sum_cons, ← ih, RegionRequest.plot]

end Layout

end Overlay
