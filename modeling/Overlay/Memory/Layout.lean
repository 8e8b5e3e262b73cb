import Overlay.Memory.Region

/-!
# Planning a memory layout

A layout is asked for as a list of regions, each with a size and perhaps a fixed
base.  The planner gives every region its place or says which rule the request
breaks first: the address space, the names and sizes, the total, the places in
order, and last the distance that a growing region keeps to what it grows
towards.
-/

set_option autoImplicit false

namespace Overlay

/-- A region that is asked for. -/
structure RegionRequest where
  name : String
  kind : RegionKind
  size : UInt32
  /-- A fixed base; without one the region follows the one before it. -/
  base : Option UInt32 := none
  deriving DecidableEq

/-- Why a layout cannot be used. -/
inductive LayoutError where
  | duplicateName (name : String)
  | zeroSize (name : String)
  | overcommitted (total limit : Nat)
  | addressOverflow (base : UInt32) (limit : Nat)
  | outOfMemory (region : String) (base limit floor ceiling : Nat)
  | overlap (region other : String)
  | insufficientGap (region neighbour : String) (gap : Nat) (required : UInt32)
  | missingRegion (kind : RegionKind)
  | ambiguousRegion (kind : RegionKind)
  deriving DecidableEq

/-- The wording of a layout error. -/
def LayoutError.message : LayoutError → String
  | .duplicateName name => s!"region '{name}' is declared more than once"
  | .zeroSize name => s!"region '{name}' has zero size"
  | .overcommitted total limit =>
      s!"regions need {total} bytes but memory has only {limit}"
  | .addressOverflow base limit =>
      s!"memory [{hex base.toNat}, {hex limit}) does not fit a 32-bit address space"
  | .outOfMemory region base limit floor ceiling =>
      s!"region '{region}' spans [{hex base}, {hex limit}), outside memory [{hex floor}, {hex ceiling})"
  | .overlap region other => s!"region '{region}' overlaps region '{other}'"
  | .insufficientGap region neighbour gap required =>
      s!"growing region '{region}' is {gap} bytes from '{neighbour}', needs a {required.toNat} byte safety gap"
  | .missingRegion kind => s!"layout has no {kind.text} region"
  | .ambiguousRegion kind => s!"layout has more than one {kind.text} region"

/-- Every region in its place, in the order of the requests. -/
structure Layout where
  memory : AddressSpace
  safetyGap : UInt32
  regions : List Region
  deriving DecidableEq

namespace Layout

/-! ## The rules, one by one -/

/-- The address space ends within thirty-two bits. -/
def checkSpace (memory : AddressSpace) : Except LayoutError Unit :=
  if 4294967296 < memory.limit then .error (.addressOverflow memory.base memory.limit) else .ok ()

/-- Every region has a size, and a name that none before it has. -/
def checkRequests (earlier : List String) : List RegionRequest → Except LayoutError Unit
  | [] => .ok ()
  | request :: rest =>
      if request.size = 0 then .error (.zeroSize request.name)
      else if earlier.contains request.name then .error (.duplicateName request.name)
      else checkRequests (request.name :: earlier) rest

/-- The sum of the sizes asked for. -/
def total : List RegionRequest → Nat
  | [] => 0
  | request :: rest => request.size.toNat + total rest

/-- The regions asked for are no larger than memory. -/
def checkTotal (memory : AddressSpace) (requests : List RegionRequest) :
    Except LayoutError Unit :=
  if memory.size.toNat < total requests then
    .error (.overcommitted (total requests) memory.size.toNat)
  else .ok ()

/-- Place the remaining requests behind those already placed.  A request without
a base goes to `cursor`, where the region before it ended. -/
def place (memory : AddressSpace) (placed : List Region) (cursor : Nat) :
    List RegionRequest → Except LayoutError (List Region)
  | [] => .ok placed
  | request :: rest =>
      let base := (request.base.map UInt32.toNat).getD cursor
      let limit := base + request.size.toNat
      if base < memory.base.toNat ∨ memory.limit < limit then
        .error (.outOfMemory request.name base limit memory.base.toNat memory.limit)
      else
        match placed.find? fun region => region.overlaps base limit with
        | some other => .error (.overlap request.name other.name)
        | none =>
            let region : Region :=
              { name := request.name, kind := request.kind, base := UInt32.ofNat base,
                size := request.size }
            place memory (placed ++ [region]) limit rest

/-! ## Safety gaps -/

/-- The regions that a growing region must keep away from. -/
def solid (regions : List Region) : List Region :=
  regions.filter fun region => decide (region.kind ≠ .gap)

/-- Of some regions the one that ends highest. -/
def highest (regions : List Region) : Option Region :=
  regions.foldl
    (fun best region =>
      match best with
      | none => some region
      | some other => if region.limit < other.limit then some other else some region)
    none

/-- Of some regions the one that starts lowest. -/
def lowest (regions : List Region) : Option Region :=
  regions.foldl
    (fun best region =>
      match best with
      | none => some region
      | some other => if region.base.toNat < other.base.toNat then some region else some other)
    none

/-- The nearest solid neighbour below a region. -/
def below (regions : List Region) (region : Region) : Option Region :=
  highest ((solid regions).filter fun other =>
    decide (other.name ≠ region.name) && decide (other.limit ≤ region.base.toNat))

/-- The nearest solid neighbour above a region. -/
def above (regions : List Region) (region : Region) : Option Region :=
  lowest ((solid regions).filter fun other =>
    decide (other.name ≠ region.name) && decide (region.limit ≤ other.base.toNat))

/-- A distance to a neighbour is at least the safety gap. -/
def checkDistance (required : UInt32) (region neighbour : Region) (gap : Nat) :
    Except LayoutError Unit :=
  if gap < required.toNat then
    .error (.insufficientGap region.name neighbour.name gap required)
  else .ok ()

/-- A region that grows down keeps its distance to the neighbour below. -/
def checkBelow (required : UInt32) (regions : List Region) (region : Region) :
    Except LayoutError Unit :=
  if region.kind.flags.growsDown then
    match below regions region with
    | some neighbour =>
        checkDistance required region neighbour (region.base.toNat - neighbour.limit)
    | none => .ok ()
  else .ok ()

/-- A region that grows up keeps its distance to the neighbour above. -/
def checkAbove (required : UInt32) (regions : List Region) (region : Region) :
    Except LayoutError Unit :=
  if region.kind.flags.growsUp then
    match above regions region with
    | some neighbour =>
        checkDistance required region neighbour (neighbour.base.toNat - region.limit)
    | none => .ok ()
  else .ok ()

/-- Every growing region keeps its distance. -/
def checkGaps (required : UInt32) (regions : List Region) :
    List Region → Except LayoutError Unit
  | [] => .ok ()
  | region :: rest => do
      checkBelow required regions region
      checkAbove required regions region
      checkGaps required regions rest

/-- Give every request its place, or say which rule is broken first. -/
def plan (memory : AddressSpace) (safetyGap : UInt32) (requests : List RegionRequest) :
    Except LayoutError Layout := do
  checkSpace memory
  checkRequests [] requests
  checkTotal memory requests
  let regions ← place memory [] memory.base.toNat requests
  checkGaps safetyGap regions regions
  return { memory, safetyGap, regions }

/-! ## Questions to a layout -/

/-- The region with a given name. -/
def get? (layout : Layout) (name : String) : Option Region :=
  layout.regions.find? fun region => region.name == name

/-- Whether an address lies in the region with a given name. -/
def contains (layout : Layout) (name : String) (address : UInt32) : Bool :=
  (layout.get? name).any fun region => region.contains address

/-- The one region of a kind, if there is any. -/
def single (layout : Layout) (kind : RegionKind) : Except LayoutError (Option Region) :=
  match layout.regions.filter fun region => decide (region.kind = kind) with
  | [] => .ok none
  | [region] => .ok (some region)
  | _ => .error (.ambiguousRegion kind)

/-- The one region of a kind, which must be there. -/
def required (layout : Layout) (kind : RegionKind) : Except LayoutError Region := do
  match ← layout.single kind with
  | some region => return region
  | none => throw (.missingRegion kind)

end Layout

/-! ## The window of an overlay -/

/-- Where an overlay lives: its code, its stack and perhaps a heap. -/
structure Window where
  code : Region
  stack : Region
  heap : Option Region
  /-- The first stack pointer: the end of the stack, on a multiple of sixteen. -/
  stackTop : UInt32
  deriving DecidableEq

/-- The largest image that a window takes. -/
def Window.capacity (window : Window) : UInt32 := window.code.size

/-- The highest multiple of sixteen that is an address and not above the end of
the stack. -/
def Region.stackTop (stack : Region) : UInt32 :=
  UInt32.ofNat (min stack.limit 0xFFFFFFFF / 16 * 16)

/-- The window of a layout with one code region, one stack and at most one heap. -/
def Layout.window (layout : Layout) : Except LayoutError Window := do
  let code ← layout.required .code
  let stack ← layout.required .stack
  let heap ← layout.single .heap
  return { code, stack, heap, stackTop := stack.stackTop }

end Overlay
