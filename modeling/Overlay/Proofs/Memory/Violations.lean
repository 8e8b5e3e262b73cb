import Overlay.Proofs.Memory.Planning

/-!
# Which rule a refused request breaks first

The rules are looked at in a fixed order: the address space, every request for itself, the
total, every place against those before it, and last the distances of the growing regions.
Where a rule is about one region after another, what is wrong with one of them is a relation
(`RequestFault`, `PlaceFault`, `GapFault`), and the first region that has something wrong with
it is the one that is named.

A refusal is exactly that: the first rule that the request breaks, with the regions, places,
sums and distances that it is broken by (`plan_eq_error_iff`).  Places are the sequential
places, told in natural numbers, and the nearest neighbour of a growing region is nearest
among all solid regions, however the planner looks for it.
-/

set_option autoImplicit false

namespace Overlay

/-- A plot grows towards another, which is so many addresses away. -/
inductive Plot.Towards (plot other : Plot) (gap : Nat) : Prop where
  | down (grows : plot.kind = .stack) (beneath : other.limit + gap = plot.base)
  | up (grows : plot.kind = .heap) (above : plot.limit + gap = other.base)

namespace Layout

/-! ## What can be wrong -/

section Faults

/-- What is wrong with a request that follows requests with certain names. -/
inductive RequestFault (earlier : List String) (request : RegionRequest) : LayoutError → Prop where
  | zeroSize (empty : request.size.toNat = 0) :
      RequestFault earlier request (.zeroSize request.name)
  | duplicateName (any : 0 < request.size.toNat) (taken : request.name ∈ earlier) :
      RequestFault earlier request (.duplicateName request.name)

/-- What is wrong with a place that follows other places.  Of the places that it meets, the
earliest is named. -/
inductive PlaceFault (memory : AddressSpace) (earlier : List Plot) (plot : Plot) :
    LayoutError → Prop where
  | outOfMemory (outside : ¬plot.Within memory.base.toNat memory.limit) :
      PlaceFault memory earlier plot
        (.outOfMemory plot.name plot.base plot.limit memory.base.toNat memory.limit)
  | overlap {clear later : List Plot} {other : Plot}
      (within : plot.Within memory.base.toNat memory.limit)
      (split : earlier = clear ++ other :: later) (apart : ∀ before ∈ clear, before.Apart plot)
      (meets : ¬other.Apart plot) :
      PlaceFault memory earlier plot (.overlap plot.name other.name)

/-- What is wrong with a growing plot: its nearest solid neighbour is too near. -/
inductive GapFault (required : UInt32) (plots : List Plot) (plot : Plot) : LayoutError → Prop where
  | insufficientGap {neighbour : Plot} {gap : Nat} (member : neighbour ∈ plots)
      (solid : neighbour.kind ≠ .gap) (towards : plot.Towards neighbour gap)
      (nearest : ∀ other ∈ plots, other.kind ≠ .gap →
        ∀ further, plot.Towards other further → gap ≤ further)
      (near : gap < required.toNat) :
      GapFault required plots plot
        (.insufficientGap plot.name neighbour.name gap required)

end Faults

/-! ## The first of a list -/

/-- Some element of a list, told with the elements before it, is the first one or a later one. -/
theorem exists_split_cons_iff {α : Type} {first : α} {rest : List α} {p : List α → α → Prop} :
    (∃ before item after, first :: rest = before ++ item :: after ∧ p before item) ↔
      p [] first ∨
        ∃ before item after, rest = before ++ item :: after ∧ p (first :: before) item := by
  constructor
  · rintro ⟨before, item, after, split, holds⟩
    cases before with
    | nil =>
        cases split
        exact .inl holds
    | cons head before =>
        cases split
        exact .inr ⟨before, item, after, rfl, holds⟩
  · rintro (holds | ⟨before, item, after, rfl, holds⟩)
    · exact ⟨[], first, rest, rfl, holds⟩
    · exact ⟨first :: before, item, after, rfl, holds⟩

theorem bind_eq_error_iff {α β : Type} {first : Except LayoutError α}
    {next : α → Except LayoutError β} {fault : LayoutError} :
    (first >>= next) = .error fault ↔
      first = .error fault ∨ ∃ value, first = .ok value ∧ next value = .error fault := by
  cases first with
  | error other =>
      constructor
      · intro fails
        cases fails
        exact .inl rfl
      · rintro (fails | ⟨value, succeeds, _⟩)
        · cases fails
          rfl
        · cases succeeds
  | ok value =>
      constructor
      · intro fails
        exact .inr ⟨value, rfl, fails⟩
      · rintro (fails | ⟨other, succeeds, fails⟩)
        · cases fails
        · cases succeeds
          exact fails

theorem eq_ok_iff_forall_ne_error {check : Except LayoutError Unit} {value : Unit} :
    check = .ok value ↔ ∀ fault, ¬check = .error fault := by
  cases check with
  | error fault => exact ⟨nofun, fun passes => absurd rfl (passes fault)⟩
  | ok _ => exact ⟨fun _ => nofun, fun _ => rfl⟩

/-! ## The rules before placement -/

section Rules

variable {memory : AddressSpace} {fault : LayoutError}

theorem checkSpace_eq_error_iff : checkSpace memory = .error fault ↔
    4294967296 < memory.limit ∧ fault = .addressOverflow memory.base memory.limit := by
  rw [checkSpace]
  split
  · rename_i large
    simp only [Except.error.injEq, large, true_and, eq_comm]
  · rename_i fits
    simp only [reduceCtorEq, fits, false_and]

theorem total_eq_sum (requests : List RegionRequest) :
    total requests = (requests.map fun request => request.size.toNat).sum := by
  induction requests with
  | nil => rfl
  | cons request rest ih => rw [total, ih, List.map_cons, List.sum_cons]

theorem checkTotal_eq_error_iff {requests : List RegionRequest} :
    checkTotal memory requests = .error fault ↔
      memory.size.toNat < (requests.map fun request => request.size.toNat).sum ∧
        fault = .overcommitted (requests.map fun request => request.size.toNat).sum
          memory.size.toNat := by
  rw [checkTotal, total_eq_sum]
  split
  · rename_i large
    simp only [Except.error.injEq, large, true_and, eq_comm]
  · rename_i fits
    simp only [reduceCtorEq, fits, false_and]

/-- A request has nothing wrong with it, and the requests after it are looked at, or it has one
thing wrong with it, which is told. -/
theorem checkRequests_cons_cases (earlier : List String) (request : RegionRequest) :
    ((∀ fault, ¬RequestFault earlier request fault) ∧ ∀ rest,
        checkRequests earlier (request :: rest) = checkRequests (request.name :: earlier) rest) ∨
      ∃ fault, (∀ other, RequestFault earlier request other ↔ other = fault) ∧
        ∀ rest, checkRequests earlier (request :: rest) = .error fault := by
  by_cases empty : request.size = 0
  · refine .inr ⟨.zeroSize request.name, fun other => ⟨fun wrong => ?_, ?_⟩,
      fun _ => by rw [checkRequests, if_pos empty]⟩
    · cases wrong with
      | zeroSize _ => rfl
      | duplicateName any _ => exact absurd empty ((size_ne_zero_iff request).mpr any)
    · rintro rfl
      exact .zeroSize (by rw [empty]; rfl)
  have any := (size_ne_zero_iff request).mp empty
  by_cases taken : request.name ∈ earlier
  · refine .inr ⟨.duplicateName request.name, fun other => ⟨fun wrong => ?_, ?_⟩,
      fun _ => by rw [checkRequests, if_neg empty, if_pos (List.contains_iff_mem.mpr taken)]⟩
    · cases wrong with
      | zeroSize none => omega
      | duplicateName _ _ => rfl
    · rintro rfl
      exact .duplicateName any taken
  · refine .inl ⟨fun fault wrong => ?_, fun _ => by
      rw [checkRequests, if_neg empty, if_neg fun found => taken (List.contains_iff_mem.mp found)]⟩
    cases wrong with
    | zeroSize none => omega
    | duplicateName _ found => exact taken found

theorem RequestFault.congr {earlier earlier' : List String} {request : RegionRequest}
    (same : ∀ name, name ∈ earlier ↔ name ∈ earlier') :
    RequestFault earlier request fault ↔ RequestFault earlier' request fault := by
  constructor
  · intro wrong
    cases wrong with
    | zeroSize empty => exact .zeroSize empty
    | duplicateName any taken => exact .duplicateName any ((same _).mp taken)
  · intro wrong
    cases wrong with
    | zeroSize empty => exact .zeroSize empty
    | duplicateName any taken => exact .duplicateName any ((same _).mpr taken)

/-- **The first request that has something wrong with it is the one that is refused.** -/
theorem checkRequests_eq_error_iff (earlier : List String) (requests : List RegionRequest) :
    checkRequests earlier requests = .error fault ↔
      ∃ before request after, requests = before ++ request :: after ∧
        checkRequests earlier before = .ok () ∧
          RequestFault (before.map RegionRequest.name ++ earlier) request fault := by
  induction requests generalizing earlier with
  | nil => simp [checkRequests]
  | cons request rest ih =>
      rw [exists_split_cons_iff]
      rcases checkRequests_cons_cases earlier request with ⟨fine, passes⟩ | ⟨fault', wrong, fails⟩
      · simp only [passes, ih, List.map_nil, List.nil_append, fine, and_false, false_or]
        have same : ∀ (before : List RegionRequest) (name : String),
            name ∈ before.map RegionRequest.name ++ request.name :: earlier ↔
              name ∈ (request :: before).map RegionRequest.name ++ earlier := by
          intro before name
          simp only [List.map_cons, List.mem_append, List.mem_cons]
          tauto
        simp only [RequestFault.congr (same _)]
      · have nothing : checkRequests earlier [] = .ok () := rfl
        simp only [fails, wrong, nothing, reduceCtorEq, List.map_nil, List.nil_append, false_and,
          and_false, exists_false, or_false, true_and, Except.error.injEq]
        exact eq_comm

end Rules

/-! ## Placement -/

/-- Plots that have their places: inside memory, and apart from one another. -/
structure Settled (memory : AddressSpace) (plots : List Plot) : Prop where
  inside : ∀ plot ∈ plots, plot.Within memory.base.toNat memory.limit
  apart : plots.Pairwise Plot.Apart

section Placement

variable {memory : AddressSpace} {fault : LayoutError}

theorem PlaceFault.not_settled {earlier later : List Plot} {plot : Plot}
    (wrong : PlaceFault memory earlier plot fault) :
    ¬Settled memory (earlier ++ plot :: later) := by
  rintro ⟨inside, apart⟩
  cases wrong with
  | outOfMemory outside =>
      exact outside (inside plot (List.mem_append_right _ List.mem_cons_self))
  | @overlap clear between other _ split _ meets =>
      have member : other ∈ earlier := by
        rw [split]
        exact List.mem_append_right _ List.mem_cons_self
      exact meets ((List.pairwise_append.mp apart).2.2 other member plot List.mem_cons_self)

theorem find?_overlaps_iff {placed : List Region} {plot : Plot} {other : Region}
    (occupied : ∀ region ∈ placed, 0 < region.size.toNat) (any : 0 < plot.size.toNat) :
    placed.find? (fun region => region.overlaps plot.base plot.limit) = some other ↔
      ∃ clear later, placed = clear ++ other :: later ∧
        (∀ before ∈ clear, before.plot.Apart plot) ∧ ¬other.plot.Apart plot := by
  rw [List.find?_eq_some_iff_append]
  constructor
  · rintro ⟨meets, clear, later, rfl, apart⟩
    rw [List.forall_mem_append, List.forall_mem_cons] at occupied
    refine ⟨clear, later, rfl, fun before member => ?_, ?_⟩
    · have beside := apart before member
      rw [Bool.not_eq_true', ← Bool.not_eq_true,
        Region.overlaps_iff (occupied.1 before member) any, not_not] at beside
      exact beside
    · exact (Region.overlaps_iff occupied.2.1 any).mp meets
  · rintro ⟨clear, later, rfl, apart, meets⟩
    rw [List.forall_mem_append, List.forall_mem_cons] at occupied
    refine ⟨(Region.overlaps_iff occupied.2.1 any).mpr meets, clear, later, rfl, ?_⟩
    intro before member
    rw [Bool.not_eq_true', ← Bool.not_eq_true,
      Region.overlaps_iff (occupied.1 before member) any, not_not]
    exact apart before member

theorem place_cons (placed : List Region) (cursor : Nat) (request : RegionRequest)
    (rest : List RegionRequest) :
    let plot := request.plot cursor
    place memory placed cursor (request :: rest) =
      if plot.base < memory.base.toNat ∨ memory.limit < plot.limit then
        .error (.outOfMemory plot.name plot.base plot.limit memory.base.toNat memory.limit)
      else
        match placed.find? fun region => region.overlaps plot.base plot.limit with
        | some other => .error (.overlap plot.name other.name)
        | none => place memory (placed ++ [plot.region]) plot.limit rest := rfl

/-- A place is taken, or has one thing wrong with it, which is told. -/
theorem place_cons_cases {request : RegionRequest} {placed : List Region} (cursor : Nat)
    (any : 0 < request.size.toNat) (occupied : ∀ region ∈ placed, 0 < region.size.toNat) :
    (((request.plot cursor).Within memory.base.toNat memory.limit ∧
        ∀ region ∈ placed, region.plot.Apart (request.plot cursor)) ∧ ∀ rest,
        place memory placed cursor (request :: rest) =
          place memory (placed ++ [(request.plot cursor).region])
            (request.plot cursor).limit rest) ∨
      ∃ fault, (∀ other, PlaceFault memory (placed.map Region.plot) (request.plot cursor) other ↔
          other = fault) ∧
        ∀ rest, place memory placed cursor (request :: rest) = .error fault := by
  have any' : 0 < (request.plot cursor).size.toNat := any
  simp only [place_cons]
  generalize request.plot cursor = plot at any'
  by_cases outside : plot.base < memory.base.toNat ∨ memory.limit < plot.limit
  · have beyond : ¬plot.Within memory.base.toNat memory.limit := by
      rw [Plot.Within]
      omega
    refine .inr ⟨_, fun other => ⟨fun wrong => ?_, ?_⟩, fun _ => if_pos outside⟩
    · cases wrong with
      | outOfMemory _ => rfl
      | overlap within _ _ _ => exact absurd within beyond
    · rintro rfl
      exact .outOfMemory beyond
  have within : plot.Within memory.base.toNat memory.limit := by
    rw [Plot.Within]
    omega
  simp only [if_neg outside]
  cases found : placed.find? fun region => region.overlaps plot.base plot.limit with
  | none =>
      refine .inl ⟨⟨within, fun region member => ?_⟩, fun _ => rfl⟩
      have clear := List.find?_eq_none.mp found region member
      rwa [Region.overlaps_iff (occupied region member) any', not_not] at clear
  | some meeting =>
      refine .inr ⟨.overlap plot.name meeting.name, fun other => ⟨fun wrong => ?_, ?_⟩,
        fun _ => rfl⟩
      · cases wrong with
        | outOfMemory outside => exact absurd within outside
        | overlap _ split apart meets =>
            obtain ⟨clear, behind, rfl, rfl, tail⟩ := List.map_eq_append_iff.mp split
            obtain ⟨earliest, later, rfl, rfl, rfl⟩ := List.map_eq_cons_iff.mp tail
            have first := (find?_overlaps_iff occupied any').mpr
              ⟨clear, later, rfl, List.forall_mem_map.mp apart, meets⟩
            rw [found] at first
            cases first
            rfl
      · rintro rfl
        obtain ⟨clear, later, rfl, apart, meets⟩ := (find?_overlaps_iff occupied any').mp found
        have split : (clear ++ meeting :: later).map Region.plot =
            clear.map Region.plot ++ meeting.plot :: later.map Region.plot := by
          rw [List.map_append, List.map_cons]
        exact .overlap within split (List.forall_mem_map.mpr apart) meets

/-- **The first place that has something wrong with it is the one that is refused.** -/
theorem place_eq_error_iff (space : memory.limit ≤ 4294967296) {requests : List RegionRequest}
    (sized : ∀ request ∈ requests, 0 < request.size.toNat) {placed : List Region}
    (occupied : ∀ region ∈ placed, 0 < region.size.toNat)
    (settled : Settled memory (placed.map Region.plot)) (cursor : Nat) :
    place memory placed cursor requests = .error fault ↔
      ∃ before plot after, plots cursor requests = before ++ plot :: after ∧
        Settled memory (placed.map Region.plot ++ before) ∧
          PlaceFault memory (placed.map Region.plot ++ before) plot fault := by
  induction requests generalizing placed cursor with
  | nil => simp [place, plots]
  | cons request rest ih =>
      rw [List.forall_mem_cons] at sized
      rw [plots, exists_split_cons_iff, List.append_nil]
      rcases place_cons_cases cursor sized.1 occupied with
        ⟨⟨within, apart⟩, taken⟩ | ⟨fault', wrong, fails⟩
      · -- The base is below the end of memory, so it keeps its value as a word.
        have put := @Plot.plot_region (request.plot cursor) sized.1 (within.2.trans space)
        have settled' : Settled memory (placed.map Region.plot ++ [request.plot cursor]) := by
          refine ⟨?_, List.pairwise_append.mpr ⟨settled.apart, List.pairwise_singleton _ _, ?_⟩⟩
          · exact List.forall_mem_append.mpr ⟨settled.inside, List.forall_mem_singleton.mpr within⟩
          · rw [List.forall_mem_map]
            exact fun region member => List.forall_mem_singleton.mpr (apart region member)
        have fine : ¬PlaceFault memory (placed.map Region.plot) (request.plot cursor) fault :=
          fun wrong => wrong.not_settled settled'
        have grown : (placed ++ [(request.plot cursor).region]).map Region.plot =
            placed.map Region.plot ++ [request.plot cursor] := by
          rw [List.map_append, List.map_singleton, put]
        rw [taken, ih sized.2 (List.forall_mem_append.mpr
          ⟨occupied, List.forall_mem_singleton.mpr sized.1⟩) (grown ▸ settled')]
        simp only [fine, and_false, false_or, grown, List.append_assoc, List.singleton_append]
      · have stuck : ∀ before,
            ¬Settled memory (placed.map Region.plot ++ request.plot cursor :: before) :=
          fun before => ((wrong fault').mpr rfl).not_settled
        simp only [fails, wrong, stuck, settled, Except.error.injEq, true_and, false_and, and_false,
          exists_false, or_false]
        exact eq_comm

end Placement

/-! ## Safety gaps -/

section Gaps

variable {required : UInt32} {regions : List Region} {region : Region} {fault : LayoutError}

/-- **The nearest of the solid neighbours that a region grows towards is named when it is too
near**, if no two of them are at the same distance. -/
theorem checkDistance_nearest_eq_error_iff {neighbours : List Region} {nearest : Option Region}
    {distance : Region → Nat}
    (picked : (nearest = none ∧ neighbours = []) ∨
      ∃ best ∈ neighbours, nearest = some best ∧
        ∀ other ∈ neighbours, distance best ≤ distance other)
    (single : ∀ first ∈ neighbours, ∀ second ∈ neighbours, distance first = distance second →
      first = second)
    (told : ∀ other gap, other ∈ neighbours ∧ gap = distance other ↔
      other ∈ regions ∧ other.kind ≠ .gap ∧ region.plot.Towards other.plot gap) :
    (match nearest with
      | some neighbour => checkDistance required region neighbour (distance neighbour)
      | none => .ok ()) = .error fault ↔
      GapFault required (regions.map Region.plot) region.plot fault := by
  constructor
  · intro fails
    rcases picked with ⟨rfl, rfl⟩ | ⟨best, member, rfl, least⟩
    · cases fails
    dsimp only at fails
    rw [checkDistance] at fails
    split at fails
    · rename_i near
      cases fails
      obtain ⟨among, solid, towards⟩ := (told best _).mp ⟨member, rfl⟩
      refine .insufficientGap (List.mem_map_of_mem among) solid towards ?_ near
      rw [List.forall_mem_map]
      intro other found firm further ahead
      obtain ⟨known, rfl⟩ := (told other further).mpr ⟨found, firm, ahead⟩
      exact least other known
    · cases fails
  · intro wrong
    cases wrong with
    | @insufficientGap plot gap member solid towards closest near =>
        obtain ⟨neighbour, found, rfl⟩ := List.mem_map.mp member
        obtain ⟨known, rfl⟩ := (told neighbour gap).mpr ⟨found, solid, towards⟩
        rcases picked with ⟨_, rfl⟩ | ⟨best, member', rfl, least⟩
        · exact absurd known List.not_mem_nil
        obtain ⟨among, firm, ahead⟩ := (told best _).mp ⟨member', rfl⟩
        have same : distance best = distance neighbour := Nat.le_antisymm (least neighbour known)
          (closest best.plot (List.mem_map_of_mem among) firm _ ahead)
        obtain rfl := single best member' neighbour known same
        dsimp only
        rw [checkDistance, if_pos near]
        rfl

/-- Regions that have their places, under names of their own. -/
structure Standing (regions : List Region) : Prop where
  sized : ∀ region ∈ regions, 0 < region.size.toNat
  named : (regions.map Region.name).Nodup
  apart : (regions.map Region.plot).Pairwise Plot.Apart

section Neighbours

variable {first second : Region}

theorem Standing.eq_of_covers (standing : Standing regions) (member : first ∈ regions)
    (member' : second ∈ regions) {address : Nat} (covers : first.plot.Covers address)
    (covers' : second.plot.Covers address) : first = second := by
  by_contra different
  have : Std.Symm Plot.Apart := ⟨fun _ _ => Plot.Apart.symm⟩
  exact standing.apart.forall (List.mem_map_of_mem member) (List.mem_map_of_mem member')
    (fun same => different (Region.plot_injective same)) address ⟨covers, covers'⟩

/-- Regions that end together share their last address. -/
theorem Standing.eq_of_limit_eq (standing : Standing regions) (member : first ∈ regions)
    (member' : second ∈ regions) (same : first.limit = second.limit) : first = second := by
  have any := standing.sized first member
  have any' := standing.sized second member'
  have last : first.plot.Covers (first.limit - 1) := by
    change first.base.toNat ≤ first.limit - 1 ∧ first.limit - 1 < first.limit
    rw [Region.limit]
    omega
  have last' : second.plot.Covers (first.limit - 1) := by
    change second.base.toNat ≤ first.limit - 1 ∧ first.limit - 1 < second.limit
    rw [same, Region.limit]
    omega
  exact standing.eq_of_covers member member' last last'

theorem Standing.eq_of_base_eq (standing : Standing regions) (member : first ∈ regions)
    (member' : second ∈ regions) (same : first.base = second.base) : first = second := by
  have start : first.plot.Covers first.base.toNat :=
    ⟨Nat.le_refl _, Nat.lt_add_of_pos_right (standing.sized first member)⟩
  have start' : second.plot.Covers first.base.toNat := by
    rw [same]
    exact ⟨Nat.le_refl _, Nat.lt_add_of_pos_right (standing.sized second member')⟩
  exact standing.eq_of_covers member member' start start'

theorem Standing.name_ne (standing : Standing regions) (member : first ∈ regions)
    (member' : second ∈ regions)
    (beside : second.limit ≤ first.base.toNat ∨ first.limit ≤ second.base.toNat) :
    second.name ≠ first.name := by
  intro same
  obtain rfl := List.inj_on_of_nodup_map standing.named member' member same
  have any := standing.sized second member
  rw [Region.limit] at beside
  omega

end Neighbours

theorem checkBelow_eq_error_iff (standing : Standing regions) (member : region ∈ regions)
    (grows : region.kind = .stack) :
    checkBelow required regions region = .error fault ↔
      GapFault required (regions.map Region.plot) region.plot fault := by
  rw [checkBelow, if_pos ((growsDown_iff _).mpr grows), below]
  refine checkDistance_nearest_eq_error_iff
    ((highest_cases _).imp_right <| Exists.imp fun _ nearest =>
      ⟨nearest.1, nearest.2.1, fun other known => Nat.sub_le_sub_left (nearest.2.2 other known) _⟩)
    ?_ ?_
  · intro first among second among' same
    simp only [solid, List.mem_filter, Bool.and_eq_true, decide_eq_true_eq] at among among'
    exact standing.eq_of_limit_eq among.1.1 among'.1.1 (by omega)
  · intro other gap
    simp only [solid, List.mem_filter, Bool.and_eq_true, decide_eq_true_eq]
    constructor
    · rintro ⟨⟨⟨found, firm⟩, _, ends⟩, rfl⟩
      exact ⟨found, firm, .down grows (Nat.add_sub_of_le ends)⟩
    · rintro ⟨found, firm, towards⟩
      cases towards with
      | down _ beneath =>
          have ends : other.limit ≤ region.base.toNat := Nat.le.intro beneath
          exact ⟨⟨⟨found, firm⟩, standing.name_ne member found (.inl ends), ends⟩,
            Nat.eq_sub_of_add_eq' beneath⟩
      | up rises _ => cases grows.symm.trans rises

theorem checkAbove_eq_error_iff (standing : Standing regions) (member : region ∈ regions)
    (grows : region.kind = .heap) :
    checkAbove required regions region = .error fault ↔
      GapFault required (regions.map Region.plot) region.plot fault := by
  rw [checkAbove, if_pos ((growsUp_iff _).mpr grows), above]
  refine checkDistance_nearest_eq_error_iff
    ((lowest_cases _).imp_right <| Exists.imp fun _ nearest =>
      ⟨nearest.1, nearest.2.1, fun other known => Nat.sub_le_sub_right (nearest.2.2 other known) _⟩)
    ?_ ?_
  · intro first among second among' same
    simp only [solid, List.mem_filter, Bool.and_eq_true, decide_eq_true_eq] at among among'
    exact standing.eq_of_base_eq among.1.1 among'.1.1 (UInt32.toNat_inj.mp (by omega))
  · intro other gap
    simp only [solid, List.mem_filter, Bool.and_eq_true, decide_eq_true_eq]
    constructor
    · rintro ⟨⟨⟨found, firm⟩, _, begins⟩, rfl⟩
      exact ⟨found, firm, .up grows (Nat.add_sub_of_le begins)⟩
    · rintro ⟨found, firm, towards⟩
      cases towards with
      | down falls _ => cases grows.symm.trans falls
      | up _ above =>
          have begins : region.limit ≤ other.base.toNat := Nat.le.intro above
          exact ⟨⟨⟨found, firm⟩, standing.name_ne member found (.inr begins), begins⟩,
            Nat.eq_sub_of_add_eq' above⟩

theorem GapFault.grows {plots : List Plot} {plot : Plot}
    (wrong : GapFault required plots plot fault) :
    plot.kind = .stack ∨ plot.kind = .heap := by
  cases wrong with
  | insufficientGap _ _ towards _ _ =>
      cases towards with
      | down grows _ => exact .inl grows
      | up grows _ => exact .inr grows

theorem checkBoth_eq_error_iff (standing : Standing regions) (member : region ∈ regions) :
    (checkBelow required regions region >>= fun _ => checkAbove required regions region) =
        .error fault ↔
      GapFault required (regions.map Region.plot) region.plot fault := by
  have noBelow : region.kind ≠ .stack → checkBelow required regions region = .ok () :=
    fun other => (checkBelow_eq_ok_iff required regions region).mpr fun grows => absurd grows other
  have noAbove : region.kind ≠ .heap → checkAbove required regions region = .ok () :=
    fun other => (checkAbove_eq_ok_iff required regions region).mpr fun grows => absurd grows other
  rw [bind_eq_error_iff]
  by_cases down : region.kind = .stack
  · rw [checkBelow_eq_error_iff standing member down, noAbove (by rw [down]; nofun)]
    simp
  by_cases up : region.kind = .heap
  · rw [checkAbove_eq_error_iff standing member up, noBelow down]
    simp
  · rw [noBelow down, noAbove up]
    simp only [reduceCtorEq, and_false, exists_false, or_false, false_iff]
    exact fun wrong => wrong.grows.elim down up

/-- **The first region that has something wrong with it is the one that is refused.** -/
theorem checkGaps_eq_error_iff (standing : Standing regions) {rest : List Region}
    (among : ∀ region ∈ rest, region ∈ regions) :
    checkGaps required regions rest = .error fault ↔
      ∃ before region after, rest = before ++ region :: after ∧
        (∀ other ∈ before, ∀ fault, ¬GapFault required (regions.map Region.plot) other.plot fault) ∧
          GapFault required (regions.map Region.plot) region.plot fault := by
  induction rest with
  | nil => simp [checkGaps]
  | cons region rest ih =>
      rw [List.forall_mem_cons] at among
      have both := fun fault =>
        @checkBoth_eq_error_iff required regions region fault standing among.1
      have step : checkGaps required regions (region :: rest) =
          (checkBelow required regions region >>= fun _ => checkAbove required regions region) >>=
            fun _ => checkGaps required regions rest := by
        rw [checkGaps]
        cases checkBelow required regions region <;> rfl
      rw [step, bind_eq_error_iff, both fault, exists_split_cons_iff]
      simp only [eq_ok_iff_forall_ne_error, both, exists_const, ih among.2, List.forall_mem_cons]
      refine or_congr (by simp) ⟨?_, ?_⟩
      · rintro ⟨fine, before, other, after, split, clear, wrong⟩
        exact ⟨before, other, after, split, ⟨fine, clear⟩, wrong⟩
      · rintro ⟨before, other, after, split, ⟨fine, clear⟩, wrong⟩
        exact ⟨fine, before, other, after, split, clear, wrong⟩

end Gaps

/-! ## The first rule that is broken -/

/-- Requests that have nothing wrong with themselves. -/
structure Named (requests : List RegionRequest) : Prop where
  sized : ∀ request ∈ requests, 0 < request.size.toNat
  named : (requests.map RegionRequest.name).Nodup

section Planning

variable (memory : AddressSpace) (safetyGap : UInt32) (requests : List RegionRequest)

/-- **The first rule that a request breaks**, with what it is broken by. -/
inductive FirstViolation : LayoutError → Prop where
  /-- The address space does not end within thirty-two bits. -/
  | space (large : 4294967296 < memory.limit) :
      FirstViolation (.addressOverflow memory.base memory.limit)
  /-- A region has something wrong with itself, and none before it has. -/
  | request {before after : List RegionRequest} {request : RegionRequest} {fault : LayoutError}
      (space : memory.limit ≤ 4294967296) (split : requests = before ++ request :: after)
      (named : Named before)
      (wrong : RequestFault (before.map RegionRequest.name) request fault) : FirstViolation fault
  /-- The sizes are together larger than memory. -/
  | total (space : memory.limit ≤ 4294967296) (named : Named requests)
      (large : memory.size.toNat < (requests.map fun request => request.size.toNat).sum) :
      FirstViolation
        (.overcommitted (requests.map fun request => request.size.toNat).sum memory.size.toNat)
  /-- A place leaves memory or meets another, and all before it are inside and apart. -/
  | place {before after : List Plot} {plot : Plot} {fault : LayoutError}
      (space : memory.limit ≤ 4294967296) (named : Named requests)
      (fits : (requests.map fun request => request.size.toNat).sum ≤ memory.size.toNat)
      (split : plots memory.base.toNat requests = before ++ plot :: after)
      (settled : Settled memory before) (wrong : PlaceFault memory before plot fault) :
      FirstViolation fault
  /-- A growing region is too near to its nearest neighbour, and none before it is. -/
  | gap {before after : List Plot} {plot : Plot} {fault : LayoutError}
      (space : memory.limit ≤ 4294967296) (named : Named requests)
      (settled : Settled memory (plots memory.base.toNat requests))
      (split : plots memory.base.toNat requests = before ++ plot :: after)
      (clear : ∀ other ∈ before, ∀ fault,
        ¬GapFault safetyGap (plots memory.base.toNat requests) other fault)
      (wrong : GapFault safetyGap (plots memory.base.toNat requests) plot fault) :
      FirstViolation fault

variable {memory safetyGap requests} {fault : LayoutError}

/-- A planner fails where one of its rules does, all rules before it having passed. -/
theorem plan_eq_error_iff_rules :
    plan memory safetyGap requests = .error fault ↔
      checkSpace memory = .error fault ∨ checkSpace memory = .ok () ∧
        (checkRequests [] requests = .error fault ∨ checkRequests [] requests = .ok () ∧
          (checkTotal memory requests = .error fault ∨ checkTotal memory requests = .ok () ∧
            (place memory [] memory.base.toNat requests = .error fault ∨
              ∃ regions, place memory [] memory.base.toNat requests = .ok regions ∧
                checkGaps safetyGap regions regions = .error fault))) := by
  simp only [plan, bind_eq_error_iff, Unique.exists_iff, PUnit.default_eq_unit, pure, Except.pure,
    reduceCtorEq, and_false, or_false]

theorem checkRequests_eq_ok_iff_named : checkRequests [] requests = .ok () ↔ Named requests := by
  rw [checkRequests_eq_ok_iff]
  constructor
  · rintro ⟨sized, named, _⟩
    exact ⟨sized, named⟩
  · rintro ⟨sized, named⟩
    exact ⟨sized, named, fun _ _ => List.not_mem_nil⟩

theorem place_eq_ok_iff_settled (space : memory.limit ≤ 4294967296) (named : Named requests)
    {regions : List Region} :
    place memory [] memory.base.toNat requests = .ok regions ↔
      Settled memory (plots memory.base.toNat requests) ∧
        regions.map Region.plot = plots memory.base.toNat requests := by
  rw [place_eq_ok_iff space named.sized (List.forall_mem_nil _)]
  constructor
  · rintro ⟨inside, apart, _, placed⟩
    exact ⟨⟨inside, apart⟩, placed⟩
  · rintro ⟨⟨inside, apart⟩, placed⟩
    exact ⟨inside, apart, List.forall_mem_nil _, placed⟩

theorem standing_of_placed (named : Named requests)
    (settled : Settled memory (plots memory.base.toNat requests)) {regions : List Region}
    (placed : regions.map Region.plot = plots memory.base.toNat requests) : Standing regions := by
  refine ⟨fun region member => ?_, ?_, placed ▸ settled.apart⟩
  · exact any_of_plots named.sized (placed ▸ List.mem_map_of_mem member)
  · rw [names_of_plots placed]
    exact named.named

theorem checkGaps_eq_error_iff_of_placed (named : Named requests)
    (settled : Settled memory (plots memory.base.toNat requests)) {regions : List Region}
    (placed : regions.map Region.plot = plots memory.base.toNat requests) :
    checkGaps safetyGap regions regions = .error fault ↔
      ∃ before plot after, plots memory.base.toNat requests = before ++ plot :: after ∧
        (∀ other ∈ before, ∀ fault,
          ¬GapFault safetyGap (plots memory.base.toNat requests) other fault) ∧
          GapFault safetyGap (plots memory.base.toNat requests) plot fault := by
  rw [checkGaps_eq_error_iff (standing_of_placed named settled placed) fun _ => id, ← placed]
  constructor
  · rintro ⟨before, region, after, rfl, clear, wrong⟩
    exact ⟨_, _, _, List.map_append, List.forall_mem_map.mpr clear, wrong⟩
  · rintro ⟨before, plot, after, split, clear, wrong⟩
    obtain ⟨before, rest, rfl, rfl, tail⟩ := List.map_eq_append_iff.mp split
    obtain ⟨region, after, rfl, rfl, rfl⟩ := List.map_eq_cons_iff.mp tail
    exact ⟨before, region, after, rfl, List.forall_mem_map.mp clear, wrong⟩

variable (memory safetyGap requests fault)

/-- **A planner refuses a request with the first rule that the request breaks, and with what it
is broken by.**  It fails in no other way. -/
theorem plan_eq_error_iff :
    plan memory safetyGap requests = .error fault ↔
      FirstViolation memory safetyGap requests fault := by
  rw [plan_eq_error_iff_rules, checkSpace_eq_error_iff, checkSpace_eq_ok_iff,
    checkRequests_eq_error_iff, checkRequests_eq_ok_iff_named, checkTotal_eq_error_iff,
    checkTotal_eq_ok_iff, total_eq_sum]
  simp only [List.append_nil, checkRequests_eq_ok_iff_named]
  constructor
  · rintro (⟨large, rfl⟩ | ⟨space, ⟨before, request, after, split, fine, wrong⟩ |
      ⟨named, ⟨large, rfl⟩ | ⟨fits, wrong | ⟨regions, placed, wrong⟩⟩⟩⟩)
    · exact .space large
    · exact .request space split fine wrong
    · exact .total space named large
    · obtain ⟨before, plot, after, split, settled, wrong⟩ :=
        (place_eq_error_iff space named.sized (List.forall_mem_nil _)
          ⟨List.forall_mem_nil _, List.Pairwise.nil⟩ _).mp wrong
      exact .place space named fits split settled wrong
    · obtain ⟨settled, placed⟩ := (place_eq_ok_iff_settled space named).mp placed
      obtain ⟨before, plot, after, split, clear, wrong⟩ :=
        (checkGaps_eq_error_iff_of_placed named settled placed).mp wrong
      exact .gap space named settled split clear wrong
  · intro violation
    cases violation with
    | space large => exact .inl ⟨large, rfl⟩
    | request space split fine wrong => exact .inr ⟨space, .inl ⟨_, _, _, split, fine, wrong⟩⟩
    | total space named large => exact .inr ⟨space, .inr ⟨named, .inl ⟨large, rfl⟩⟩⟩
    | place space named fits split settled wrong =>
        refine .inr ⟨space, .inr ⟨named, .inr ⟨fits, .inl ?_⟩⟩⟩
        exact (place_eq_error_iff space named.sized (List.forall_mem_nil _)
          ⟨List.forall_mem_nil _, List.Pairwise.nil⟩ _).mpr ⟨_, _, _, split, settled, wrong⟩
    | gap space named settled split clear wrong =>
        obtain ⟨regions, placed⟩ := exists_regions space named.sized settled.inside
        have committed := total_eq_sum requests ▸ total_le settled.inside settled.apart
        refine .inr ⟨space, .inr ⟨named, .inr ⟨committed, .inr ⟨regions, ?_, ?_⟩⟩⟩⟩
        · exact (place_eq_ok_iff_settled space named).mpr ⟨settled, placed⟩
        · exact (checkGaps_eq_error_iff_of_placed named settled placed).mpr
            ⟨_, _, _, split, clear, wrong⟩

/-- Both the heap and the stack are ten bytes from each other, and the heap was asked for first. -/
example : plan ⟨0, 1000⟩ 16
      [⟨"code", .code, 100, none⟩, ⟨"heap", .heap, 50, none⟩, ⟨"stack", .stack, 20, some 160⟩] =
    .error (.insufficientGap "heap" "stack" 10 16) := rfl

end Planning

end Layout

end Overlay
