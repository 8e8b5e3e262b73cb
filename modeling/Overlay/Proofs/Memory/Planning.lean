import Overlay.Proofs.Memory.Placement

/-!
# Which layouts are planned

A request is feasible when its address space ends within thirty-two bits, its regions have
sizes and names of their own, their sequential places lie inside memory and apart, and
every growing region keeps its distance to every solid region that it grows towards
(`Feasible`).

The planner looks at less than that: it compares the sum of the sizes with memory, each
place with those before it, and each growing region with its nearest neighbour.  It
accepts the feasible requests all the same, and no others, and puts every region exactly
at its sequential place (`plan_iff_feasible`).
-/

set_option autoImplicit false

namespace Overlay.Layout

/-! ## The rules before placement -/

section Rules

variable (memory : AddressSpace)

theorem checkSpace_eq_ok_iff : checkSpace memory = .ok () ↔ memory.limit ≤ 4294967296 := by
  rw [checkSpace]
  split
  · exact ⟨nofun, fun fits => by omega⟩
  · exact ⟨fun _ => by omega, fun _ => rfl⟩

theorem checkTotal_eq_ok_iff (requests : List RegionRequest) :
    checkTotal memory requests = .ok () ↔ total requests ≤ memory.size.toNat := by
  rw [checkTotal]
  split
  · exact ⟨nofun, fun fits => by omega⟩
  · exact ⟨fun _ => by omega, fun _ => rfl⟩

theorem size_ne_zero_iff (request : RegionRequest) : request.size ≠ 0 ↔ 0 < request.size.toNat := by
  rw [Nat.pos_iff_ne_zero, Ne, Ne, ← UInt32.toNat_inj]
  rfl

/-- Requests pass when each has a size, and a name that none before it has. -/
theorem checkRequests_eq_ok_iff (earlier : List String) (requests : List RegionRequest) :
    checkRequests earlier requests = .ok () ↔
      (∀ request ∈ requests, 0 < request.size.toNat) ∧
        (requests.map RegionRequest.name).Nodup ∧
          ∀ request ∈ requests, request.name ∉ earlier := by
  induction requests generalizing earlier with
  | nil => simp [checkRequests]
  | cons request rest ih =>
      rw [checkRequests]
      by_cases empty : request.size = 0
      · rw [if_pos empty]
        refine ⟨nofun, fun passes => ?_⟩
        exact absurd empty
          ((size_ne_zero_iff request).mpr (passes.1 request List.mem_cons_self))
      rw [if_neg empty]
      by_cases taken : request.name ∈ earlier
      · rw [if_pos (List.contains_iff_mem.mpr taken)]
        exact ⟨nofun, fun passes => absurd taken (passes.2.2 request List.mem_cons_self)⟩
      rw [if_neg (fun found => taken (List.contains_iff_mem.mp found)), ih]
      have any := (size_ne_zero_iff request).mp empty
      simp only [List.map_cons, List.nodup_cons, List.mem_map, List.mem_cons, not_or,
        forall_eq_or_imp, not_exists, not_and]
      constructor
      · rintro ⟨sized, named, fresh⟩
        exact ⟨⟨any, sized⟩, ⟨fun other member => (fresh other member).1, named⟩, taken,
          fun other member => (fresh other member).2⟩
      · rintro ⟨⟨_, sized⟩, ⟨single, named⟩, _, fresh⟩
        exact ⟨sized, named, fun other member => ⟨single other member, fresh other member⟩⟩

end Rules

/-! ## Placement -/

section Placement

variable {memory : AddressSpace}

/-- One region is placed when its place lies inside memory and apart from those of the
regions before it. -/
theorem place_cons_eq_ok_iff {request : RegionRequest}
    {rest : List RegionRequest} (any : 0 < request.size.toNat) {placed regions : List Region}
    (occupied : ∀ region ∈ placed, 0 < region.size.toNat) (cursor : Nat) :
    place memory placed cursor (request :: rest) = .ok regions ↔
      (request.plot cursor).Within memory.base.toNat memory.limit ∧
        (∀ region ∈ placed, region.plot.Apart (request.plot cursor)) ∧
          place memory (placed ++ [(request.plot cursor).region]) (request.plot cursor).limit
            rest = .ok regions := by
  have clear : placed.find? (fun region =>
      region.overlaps (request.plot cursor).base (request.plot cursor).limit) = none ↔
        ∀ region ∈ placed, region.plot.Apart (request.plot cursor) := by
    rw [List.find?_eq_none]
    refine forall₂_congr fun region member => ?_
    rw [Region.overlaps_iff (occupied region member) any, not_not]
  rw [place]
  simp only [RegionRequest.plot, Plot.region, Plot.limit, Plot.Within] at clear ⊢
  generalize (request.base.map UInt32.toNat).getD cursor = base at clear ⊢
  by_cases outside : base < memory.base.toNat ∨ memory.limit < base + request.size.toNat
  · rw [if_pos outside]
    constructor
    · intro goes
      cases goes
    · rintro ⟨⟨_, _⟩, _⟩
      omega
  rw [if_neg outside]
  cases found : placed.find? fun region => region.overlaps base (base + request.size.toNat) with
  | some other =>
      constructor
      · intro goes
        cases goes
      · rintro ⟨_, beside, _⟩
        rw [clear.mpr beside] at found
        cases found
  | none =>
      constructor
      · intro goes
        exact ⟨⟨by omega, by omega⟩, clear.mp found, goes⟩
      · rintro ⟨_, _, goes⟩
        exact goes

/-- **Placement succeeds exactly when the sequential places lie inside memory, apart from
one another and apart from what has been placed before**, and it puts the regions there. -/
theorem place_eq_ok_iff (space : memory.limit ≤ 4294967296) {requests : List RegionRequest}
    (sized : ∀ request ∈ requests, 0 < request.size.toNat) {placed regions : List Region}
    (occupied : ∀ region ∈ placed, 0 < region.size.toNat) (cursor : Nat) :
    place memory placed cursor requests = .ok regions ↔
      (∀ plot ∈ plots cursor requests, plot.Within memory.base.toNat memory.limit) ∧
        (plots cursor requests).Pairwise Plot.Apart ∧
          (∀ region ∈ placed, ∀ plot ∈ plots cursor requests, region.plot.Apart plot) ∧
            regions.map Region.plot = placed.map Region.plot ++ plots cursor requests := by
  induction requests generalizing placed cursor with
  | nil =>
      simp only [place, plots, Except.ok.injEq, List.append_nil, List.not_mem_nil,
        List.Pairwise.nil, false_implies, implies_true, true_and]
      rw [List.map_inj_right fun _ _ same => Region.plot_injective same]
      exact eq_comm
  | cons request rest ih =>
      rw [List.forall_mem_cons] at sized
      rw [place_cons_eq_ok_iff sized.1 occupied, plots]
      have any : 0 < (request.plot cursor).size.toNat := sized.1
      generalize request.plot cursor = plot at any ⊢
      simp only [List.forall_mem_cons, List.pairwise_cons]
      by_cases within : plot.Within memory.base.toNat memory.limit
      · -- The base is below the end of memory, so it keeps its value as a word.
        have put : plot.region.plot = plot := Plot.plot_region any (within.2.trans space)
        have filled : ∀ region ∈ placed ++ [plot.region], 0 < region.size.toNat :=
          List.forall_mem_append.mpr ⟨occupied, List.forall_mem_singleton.mpr any⟩
        rw [ih sized.2 filled, List.forall_mem_append, List.forall_mem_singleton, put,
          List.map_append, List.map_singleton, put, List.append_assoc, List.singleton_append]
        constructor
        · rintro ⟨_, beside, inside, apart, clear, whole⟩
          exact ⟨⟨within, inside⟩, ⟨clear.2, apart⟩,
            fun other member => ⟨beside other member, clear.1 other member⟩, whole⟩
        · rintro ⟨⟨_, inside⟩, ⟨first, apart⟩, beside, whole⟩
          exact ⟨within, fun other member => (beside other member).1, inside, apart,
            ⟨fun other member => (beside other member).2, first⟩, whole⟩
      · exact ⟨fun passes => absurd passes.1 within, fun passes => absurd passes.1.1 within⟩

end Placement

/-! ## Safety gaps -/

section Gaps

/-- Keeping the better of two in turn comes to one that none is better than. -/
theorem exists_best {choose : Option Region → Region → Option Region}
    {atMost : Region → Region → Prop}
    (trans : ∀ {first second third}, atMost first second → atMost second third →
      atMost first third)
    (starts : ∀ region, choose none region = some region ∧ atMost region region)
    (picks : ∀ best region, ∃ winner, choose (some best) region = some winner ∧
      (winner = best ∨ winner = region) ∧ atMost best winner ∧ atMost region winner)
    (regions : List Region) :
    (regions.foldl choose none = none ∧ regions = []) ∨
      ∃ best ∈ regions, regions.foldl choose none = some best ∧
        ∀ region ∈ regions, atMost region best := by
  induction regions using List.reverseRecOn with
  | nil => exact .inl ⟨rfl, rfl⟩
  | append_singleton earlier region ih =>
      right
      rw [List.foldl_append, List.foldl_cons, List.foldl_nil]
      obtain ⟨none, rfl⟩ | ⟨best, member, kept, bounds⟩ := ih
      · refine ⟨region, List.mem_singleton_self region, ?_, ?_⟩
        · rw [none]
          exact (starts region).1
        · intro other same
          rw [List.mem_singleton.mp same]
          exact (starts region).2
      · obtain ⟨winner, chosen, which, better, worthy⟩ := picks best region
        refine ⟨winner, ?_, by rw [kept, chosen], ?_⟩
        · obtain rfl | rfl := which
          · exact List.mem_append_left _ member
          · exact List.mem_append_right _ (List.mem_singleton_self _)
        · intro other found
          obtain before | last := List.mem_append.mp found
          · exact trans (bounds other before) better
          · rw [List.mem_singleton.mp last]
            exact worthy

theorem highest_cases (regions : List Region) :
    (highest regions = none ∧ regions = []) ∨
      ∃ best ∈ regions, highest regions = some best ∧
        ∀ region ∈ regions, region.limit ≤ best.limit := by
  rw [highest]
  refine @exists_best _ (fun first second => first.limit ≤ second.limit)
    (fun first second => Nat.le_trans first second) (fun region => ⟨rfl, Nat.le_refl _⟩)
    (fun best region => ?_) regions
  by_cases lower : region.limit < best.limit
  · exact ⟨best, if_pos lower, .inl rfl, Nat.le_refl _, Nat.le_of_lt lower⟩
  · exact ⟨region, if_neg lower, .inr rfl, Nat.le_of_not_lt lower, Nat.le_refl _⟩

theorem lowest_cases (regions : List Region) :
    (lowest regions = none ∧ regions = []) ∨
      ∃ best ∈ regions, lowest regions = some best ∧
        ∀ region ∈ regions, best.base.toNat ≤ region.base.toNat := by
  rw [lowest]
  refine @exists_best _ (fun first second => second.base.toNat ≤ first.base.toNat)
    (fun first second => Nat.le_trans second first) (fun region => ⟨rfl, Nat.le_refl _⟩)
    (fun best region => ?_) regions
  by_cases lower : region.base.toNat < best.base.toNat
  · exact ⟨region, if_pos lower, .inr rfl, Nat.le_of_lt lower, Nat.le_refl _⟩
  · exact ⟨best, if_neg lower, .inl rfl, Nat.le_refl _, Nat.le_of_not_lt lower⟩

theorem checkDistance_eq_ok_iff (required : UInt32) (region neighbour : Region) (gap : Nat) :
    checkDistance required region neighbour gap = .ok () ↔ required.toNat ≤ gap := by
  rw [checkDistance]
  split
  · exact ⟨nofun, fun enough => by omega⟩
  · exact ⟨fun _ => by omega, fun _ => rfl⟩

variable (required : UInt32) (regions : List Region) (region : Region)

theorem growsDown_iff (kind : RegionKind) : kind.flags.growsDown = true ↔ kind = .stack := by
  cases kind <;> simp [RegionKind.flags]

theorem growsUp_iff (kind : RegionKind) : kind.flags.growsUp = true ↔ kind = .heap := by
  cases kind <;> simp [RegionKind.flags]

/-- The nearest of some neighbours is far enough away exactly when all of them are. -/
theorem checkDistance_nearest_iff {neighbours : List Region} {nearest : Option Region}
    {distance : Region → Nat}
    (picked : (nearest = none ∧ neighbours = []) ∨
      ∃ best ∈ neighbours, nearest = some best ∧
        ∀ other ∈ neighbours, distance best ≤ distance other) :
    (match nearest with
      | some neighbour => checkDistance required region neighbour (distance neighbour)
      | none => .ok ()) = .ok () ↔
      ∀ other ∈ neighbours, required.toNat ≤ distance other := by
  rcases picked with ⟨rfl, rfl⟩ | ⟨best, member, rfl, least⟩
  · exact ⟨fun _ => List.forall_mem_nil _, fun _ => rfl⟩
  · rw [checkDistance_eq_ok_iff]
    constructor
    · intro enough other found
      exact enough.trans (least other found)
    · intro keeps
      exact keeps best member

/-- A look at the nearest neighbour below is a look at all solid regions below. -/
theorem checkBelow_eq_ok_iff :
    checkBelow required regions region = .ok () ↔
      (region.kind = .stack → ∀ other ∈ regions, other.kind ≠ .gap → other.name ≠ region.name →
        other.limit ≤ region.base.toNat →
          other.limit + required.toNat ≤ region.base.toNat) := by
  rw [checkBelow]
  by_cases grows : region.kind = .stack
  · rw [if_pos ((growsDown_iff _).mpr grows), below]
    refine (checkDistance_nearest_iff required region
      ((highest_cases _).imp_right fun ⟨best, member, found, bounds⟩ =>
        ⟨best, member, found, fun other known =>
          Nat.sub_le_sub_left (bounds other known) _⟩)).trans ?_
    simp only [solid, List.mem_filter, Bool.and_eq_true, decide_eq_true_eq]
    constructor
    · intro keeps _ other known firm named ends
      have := keeps other ⟨⟨known, firm⟩, named, ends⟩
      omega
    · rintro keeps other ⟨⟨known, firm⟩, named, ends⟩
      have := keeps grows other known firm named ends
      omega
  · rw [if_neg fun flag => grows ((growsDown_iff _).mp flag)]
    exact ⟨fun _ stack => absurd stack grows, fun _ => rfl⟩

/-- A look at the nearest neighbour above is a look at all solid regions above. -/
theorem checkAbove_eq_ok_iff :
    checkAbove required regions region = .ok () ↔
      (region.kind = .heap → ∀ other ∈ regions, other.kind ≠ .gap → other.name ≠ region.name →
        region.limit ≤ other.base.toNat →
          region.limit + required.toNat ≤ other.base.toNat) := by
  rw [checkAbove]
  by_cases grows : region.kind = .heap
  · rw [if_pos ((growsUp_iff _).mpr grows), above]
    refine (checkDistance_nearest_iff required region
      ((lowest_cases _).imp_right fun ⟨best, member, found, bounds⟩ =>
        ⟨best, member, found, fun other known =>
          Nat.sub_le_sub_right (bounds other known) _⟩)).trans ?_
    simp only [solid, List.mem_filter, Bool.and_eq_true, decide_eq_true_eq]
    constructor
    · intro keeps _ other known firm named begins
      have := keeps other ⟨⟨known, firm⟩, named, begins⟩
      omega
    · rintro keeps other ⟨⟨known, firm⟩, named, begins⟩
      have := keeps grows other known firm named begins
      omega
  · rw [if_neg fun flag => grows ((growsUp_iff _).mp flag)]
    exact ⟨fun _ heap => absurd heap grows, fun _ => rfl⟩

theorem checkGaps_eq_ok_iff (rest : List Region) :
    checkGaps required regions rest = .ok () ↔
      ∀ region ∈ rest, checkBelow required regions region = .ok () ∧
        checkAbove required regions region = .ok () := by
  induction rest with
  | nil => simp [checkGaps]
  | cons region rest ih =>
      rw [List.forall_mem_cons, ← ih, checkGaps]
      cases checkBelow required regions region with
      | error fault => exact ⟨nofun, nofun⟩
      | ok _ =>
          cases checkAbove required regions region with
          | error fault => exact ⟨nofun, nofun⟩
          | ok _ => exact ⟨fun passes => ⟨⟨rfl, rfl⟩, passes⟩, fun passes => passes.2⟩

end Gaps

/-! ## Planning -/

section Planning

variable (memory : AddressSpace) (safetyGap : UInt32) (requests : List RegionRequest)

/-- What may be asked of a planner. -/
structure Feasible : Prop where
  /-- The address space ends within thirty-two bits. -/
  space : memory.limit ≤ 4294967296
  /-- No region is empty. -/
  sized : ∀ request ∈ requests, 0 < request.size.toNat
  /-- No two regions have the same name. -/
  named : (requests.map RegionRequest.name).Nodup
  /-- Every place lies inside memory. -/
  inside : ∀ plot ∈ plots memory.base.toNat requests,
    plot.Within memory.base.toNat memory.limit
  /-- No two places share an address. -/
  apart : (plots memory.base.toNat requests).Pairwise Plot.Apart
  /-- A stack keeps its distance to every solid region below it. -/
  below : ∀ stack ∈ plots memory.base.toNat requests, stack.kind = .stack →
    ∀ other ∈ plots memory.base.toNat requests, other.kind ≠ .gap →
      other.limit ≤ stack.base → other.limit + safetyGap.toNat ≤ stack.base
  /-- A heap keeps its distance to every solid region above it. -/
  above : ∀ heap ∈ plots memory.base.toNat requests, heap.kind = .heap →
    ∀ other ∈ plots memory.base.toNat requests, other.kind ≠ .gap →
      heap.limit ≤ other.base → heap.limit + safetyGap.toNat ≤ other.base

variable {memory safetyGap requests}

theorem total_le (inside : ∀ plot ∈ plots memory.base.toNat requests,
      plot.Within memory.base.toNat memory.limit)
    (apart : (plots memory.base.toNat requests).Pairwise Plot.Apart) :
    total requests ≤ memory.size.toNat := by
  rw [total_eq_sum_plots memory.base.toNat]
  have share := Plot.sum_sizes_le apart inside
  rw [AddressSpace.limit, Nat.add_sub_cancel_left] at share
  exact share

theorem Feasible.total_le (feasible : Feasible memory safetyGap requests) :
    total requests ≤ memory.size.toNat :=
  Layout.total_le feasible.inside feasible.apart

theorem bind_eq_ok_iff {α β : Type} {first : Except LayoutError α}
    {next : α → Except LayoutError β} {result : β} :
    (first >>= next) = .ok result ↔ ∃ value, first = .ok value ∧ next value = .ok result := by
  cases first with
  | error fault => exact ⟨nofun, nofun⟩
  | ok value =>
      constructor
      · intro goes
        exact ⟨value, rfl, goes⟩
      · rintro ⟨_, ⟨⟩, goes⟩
        exact goes

/-- A plan comes of all the rules together. -/
theorem plan_eq_ok_iff {layout : Layout} :
    plan memory safetyGap requests = .ok layout ↔
      checkSpace memory = .ok () ∧ checkRequests [] requests = .ok () ∧
        checkTotal memory requests = .ok () ∧
          place memory [] memory.base.toNat requests = .ok layout.regions ∧
            checkGaps safetyGap layout.regions layout.regions = .ok () ∧
              layout.memory = memory ∧ layout.safetyGap = safetyGap := by
  obtain ⟨memory', safetyGap', regions'⟩ := layout
  simp only [plan, bind_eq_ok_iff, pure, Except.pure, Except.ok.injEq, Layout.mk.injEq]
  constructor
  · rintro ⟨⟨⟩, space, ⟨⟩, named, ⟨⟩, fits, regions, placed, ⟨⟩, gaps, rfl, rfl, rfl⟩
    exact ⟨space, named, fits, placed, gaps, rfl, rfl⟩
  · rintro ⟨space, named, fits, placed, gaps, rfl, rfl⟩
    exact ⟨(), space, (), named, (), fits, regions', placed, (), gaps, rfl, rfl, rfl⟩

theorem names_of_plots {regions : List Region} {cursor : Nat}
    (placed : regions.map Region.plot = plots cursor requests) :
    regions.map Region.name = requests.map RegionRequest.name := by
  rw [← names_plots cursor, ← placed, List.map_map]
  rfl

theorem checkGaps_iff_of_plots {regions : List Region} {cursor : Nat}
    (placed : regions.map Region.plot = plots cursor requests)
    (sized : ∀ request ∈ requests, 0 < request.size.toNat)
    (named : (requests.map RegionRequest.name).Nodup) :
    checkGaps safetyGap regions regions = .ok () ↔
      (∀ stack ∈ plots cursor requests, stack.kind = .stack →
        ∀ other ∈ plots cursor requests, other.kind ≠ .gap →
          other.limit ≤ stack.base → other.limit + safetyGap.toNat ≤ stack.base) ∧
      ∀ heap ∈ plots cursor requests, heap.kind = .heap →
        ∀ other ∈ plots cursor requests, other.kind ≠ .gap →
          heap.limit ≤ other.base → heap.limit + safetyGap.toNat ≤ other.base := by
  rw [← names_of_plots placed] at named
  -- Regions of one name are the same one, and a region does not end before it begins.
  have single : ∀ region ∈ regions, ∀ other ∈ regions, other.name = region.name →
      other = region := fun region member other found same =>
    List.inj_on_of_nodup_map named found member same
  have any : ∀ region ∈ regions, region.base.toNat < region.limit := by
    intro region member
    have size := any_of_plots sized (placed ▸ List.mem_map_of_mem member)
    exact Nat.lt_add_of_pos_right size
  rw [checkGaps_eq_ok_iff, ← placed]
  simp only [checkBelow_eq_ok_iff, checkAbove_eq_ok_iff, List.forall_mem_map]
  constructor
  · intro keeps
    refine ⟨fun stack member grows other found firm below => ?_,
      fun heap member grows other found firm above => ?_⟩
    · refine (keeps stack member).1 grows other found firm (fun same => ?_) below
      have := any stack member
      rw [single stack member other found same, Region.limit_plot] at below
      exact absurd below (Nat.not_le.mpr this)
    · refine (keeps heap member).2 grows other found firm (fun same => ?_) above
      have := any heap member
      rw [single heap member other found same, Region.limit_plot] at above
      exact absurd above (Nat.not_le.mpr this)
  · rintro ⟨below, above⟩ region member
    exact ⟨fun grows other found firm _ => below region member grows other found firm,
      fun grows other found firm _ => above region member grows other found firm⟩

/-- **A plan is the sequential placement of a feasible request.** -/
theorem plan_eq_ok_iff_feasible {layout : Layout} :
    plan memory safetyGap requests = .ok layout ↔
      Feasible memory safetyGap requests ∧ layout.memory = memory ∧
        layout.safetyGap = safetyGap ∧
          layout.regions.map Region.plot = plots memory.base.toNat requests := by
  rw [plan_eq_ok_iff, checkSpace_eq_ok_iff, checkRequests_eq_ok_iff, checkTotal_eq_ok_iff]
  constructor
  · rintro ⟨space, ⟨sized, named, -⟩, -, placement, gaps, same, same'⟩
    obtain ⟨inside, apart, -, placed⟩ :=
      (place_eq_ok_iff space sized (List.forall_mem_nil _) _).mp placement
    obtain ⟨below, above⟩ := (checkGaps_iff_of_plots placed sized named).mp gaps
    exact ⟨⟨space, sized, named, inside, apart, below, above⟩, same, same', placed⟩
  · rintro ⟨feasible, same, same', placed⟩
    refine ⟨feasible.space, ⟨feasible.sized, feasible.named, fun _ _ => List.not_mem_nil⟩,
      feasible.total_le, ?_, ?_, same, same'⟩
    · exact (place_eq_ok_iff feasible.space feasible.sized (List.forall_mem_nil _) _).mpr
        ⟨feasible.inside, feasible.apart, List.forall_mem_nil _, placed⟩
    · exact (checkGaps_iff_of_plots placed feasible.sized feasible.named).mpr
        ⟨feasible.below, feasible.above⟩

theorem exists_regions (space : memory.limit ≤ 4294967296)
    (sized : ∀ request ∈ requests, 0 < request.size.toNat) {cursor : Nat}
    (inside : ∀ plot ∈ plots cursor requests, plot.Within memory.base.toNat memory.limit) :
    ∃ regions : List Region, regions.map Region.plot = plots cursor requests := by
  refine ⟨(plots cursor requests).map Plot.region, ?_⟩
  rw [List.map_map]
  refine (List.map_congr_left fun plot member => ?_).trans (List.map_id _)
  exact Plot.plot_region (any_of_plots sized member) ((inside plot member).2.trans space)

theorem Feasible.exists_regions (feasible : Feasible memory safetyGap requests) :
    ∃ regions : List Region, regions.map Region.plot = plots memory.base.toNat requests :=
  Layout.exists_regions feasible.space feasible.sized feasible.inside

/-- An address lies in at most one of the regions whose places are apart. -/
theorem length_filter_contains_le {regions : List Region}
    (apart : (regions.map Region.plot).Pairwise Plot.Apart) (address : UInt32) :
    (regions.filter fun region => region.contains address).length ≤ 1 := by
  induction regions with
  | nil => exact Nat.zero_le _
  | cons region rest ih =>
      rw [List.map_cons, List.pairwise_cons] at apart
      rw [List.filter_cons]
      split
      · rename_i here
        have elsewhere : rest.filter (fun other => other.contains address) = [] := by
          rw [List.filter_eq_nil_iff]
          intro other member there
          exact apart.1 other.plot (List.mem_map_of_mem member) address.toNat
            ⟨(Region.contains_iff region address).mp here,
              (Region.contains_iff other address).mp there⟩
        rw [elsewhere, List.length_singleton]
      · exact ih apart.2

variable (memory safetyGap requests)

/-- **A request is planned exactly when it is feasible, and every region goes to its
sequential place.**  The comparison of the total with memory refuses nothing that is
feasible, and in a plan no address lies in two regions. -/
theorem plan_iff_feasible :
    ((∃ layout, plan memory safetyGap requests = .ok layout) ↔
        Feasible memory safetyGap requests) ∧
      (Feasible memory safetyGap requests → checkTotal memory requests = .ok ()) ∧
      ∀ layout, plan memory safetyGap requests = .ok layout →
        layout.memory = memory ∧ layout.safetyGap = safetyGap ∧
          layout.regions.map Region.plot = plots memory.base.toNat requests ∧
            ∀ address,
              (layout.regions.filter fun region => region.contains address).length ≤ 1 := by
  refine ⟨⟨?_, ?_⟩, ?_, ?_⟩
  · rintro ⟨layout, planned⟩
    exact (plan_eq_ok_iff_feasible.mp planned).1
  · intro feasible
    obtain ⟨regions, placed⟩ := feasible.exists_regions
    exact ⟨⟨memory, safetyGap, regions⟩,
      plan_eq_ok_iff_feasible.mpr ⟨feasible, rfl, rfl, placed⟩⟩
  · intro feasible
    exact (checkTotal_eq_ok_iff memory requests).mpr feasible.total_le
  · intro layout planned
    obtain ⟨feasible, same, same', placed⟩ := plan_eq_ok_iff_feasible.mp planned
    exact ⟨same, same', placed, length_filter_contains_le (placed ▸ feasible.apart)⟩

/-- A plan may end with the last address there is. -/
example : plan ⟨0xFFFF0000, 0x10000⟩ 0x1000
      [⟨"code", .code, 0x8000, none⟩, ⟨"gap", .gap, 0x1000, none⟩,
        ⟨"stack", .stack, 0x7000, none⟩] =
    .ok ⟨⟨0xFFFF0000, 0x10000⟩, 0x1000,
      [⟨"code", .code, 0xFFFF0000, 0x8000⟩, ⟨"gap", .gap, 0xFFFF8000, 0x1000⟩,
        ⟨"stack", .stack, 0xFFFF9000, 0x7000⟩]⟩ := rfl

end Planning

end Overlay.Layout
