import Overlay.Proofs.Memory.Bytes

/-!
# Device memory is a byte map

A byte map is an address space with a record of all that has been written to it.  It has a
byte at every address of the space: the one that was written there last, or zero if none was
(`ByteMap.byte`).  An access to a byte map goes through when all its addresses are in the space,
and is refused and forgotten otherwise (`ByteMap.access`).

Device memory and a byte map of the same space answer every access alike and still agree
afterwards (`Refines.access`), so no sequence of accesses tells new memory and an empty byte map
apart (`perform_zeroed`).  The space may be any, also one that does not end within thirty-two
bits.
-/

set_option autoImplicit false

namespace Overlay

/-! ## Accesses -/

/-- What may be done to memory at once. -/
inductive Access where
  | read (address : UInt32) (count : Nat)
  | readWord (address : UInt32)
  | write (address : UInt32) (data : Bytes)
  | fill (address : UInt32) (count : Nat) (value : UInt8)
  | revise (address : UInt32) (count : Nat) (revision : Revision)
  | reviseRegion (region : Region) (revision : Revision)

/-- What an access hands back. -/
inductive Found where
  | nothing
  | bytes (data : Bytes)
  | word (value : UInt32)
  deriving DecidableEq

namespace Access

/-- The first address of an access. -/
def address : Access → UInt32
  | .read address _ | .readWord address | .write address _ | .fill address _ _
  | .revise address _ _ => address
  | .reviseRegion region _ => region.base

/-- How many addresses an access has. -/
def count : Access → Nat
  | .read _ count | .fill _ count _ | .revise _ count _ => count
  | .readWord _ => 4
  | .write _ data => data.length
  | .reviseRegion region _ => region.size.toNat

end Access

/-- Addresses that all lie in an address space, none of them included. -/
def AddressSpace.Holds (space : AddressSpace) (address : UInt32) (count : Nat) : Prop :=
  space.base.toNat ≤ address.toNat ∧ address.toNat + count ≤ space.limit

instance (space : AddressSpace) (address : UInt32) (count : Nat) :
    Decidable (space.Holds address count) := instDecidableAnd

/-- Make accesses in turn: what each comes to, and the state after all of them. -/
def perform {σ : Type} (access : σ → Access → Except Fault Found × σ) (state : σ) :
    List Access → List (Except Fault Found) × σ
  | [] => ([], state)
  | next :: rest =>
      let (answer, state) := access state next
      let (answers, state) := perform access state rest
      (answer :: answers, state)

/-! ## Accesses to device memory -/

namespace DeviceMemory

/-- A change that is refused leaves memory as it is. -/
def settle (memory : DeviceMemory) : Except Fault DeviceMemory → Except Fault Found × DeviceMemory
  | .ok after => (.ok .nothing, after)
  | .error fault => (.error fault, memory)

/-- Make an access to device memory. -/
def access (memory : DeviceMemory) : Access → Except Fault Found × DeviceMemory
  | .read address count => ((memory.read address count).map .bytes, memory)
  | .readWord address => ((memory.readWord address).map .word, memory)
  | .write address data => memory.settle (memory.write address data)
  | .fill address count value => memory.settle (memory.fill address count value)
  | .revise address count revision => memory.settle (memory.revise address count revision)
  | .reviseRegion region revision => memory.settle (memory.reviseRegion region revision)

end DeviceMemory

/-! ## Byte maps -/

/-- A byte map: an address space and what has been written to it, the latest first, each with
the address that it begins at. -/
structure ByteMap where
  space : AddressSpace
  written : List (Nat × Bytes)

namespace ByteMap

/-- The byte that was written last at an address, and zero if there was none. -/
def lastWritten : List (Nat × Bytes) → Nat → UInt8
  | [], _ => 0
  | (start, data) :: earlier, place =>
      if start ≤ place ∧ place < start + data.length then data.getD (place - start) 0
      else lastWritten earlier place

/-- The byte at an address. -/
def byte (map : ByteMap) (place : Nat) : UInt8 := lastWritten map.written place

/-- The bytes from an address on. -/
def bytes (map : ByteMap) (address : UInt32) (count : Nat) : Bytes :=
  (List.range count).map fun index => map.byte (address.toNat + index)

/-- Write bytes from an address on. -/
def write (map : ByteMap) (address : UInt32) (data : Bytes) : ByteMap :=
  { map with written := (address.toNat, data) :: map.written }

/-- What an access hands back. -/
def found (map : ByteMap) : Access → Found
  | .read address count => .bytes (map.bytes address count)
  | .readWord address =>
      .word (Word.join (map.byte address.toNat) (map.byte (address.toNat + 1))
        (map.byte (address.toNat + 2)) (map.byte (address.toNat + 3)))
  | .write _ _ | .fill _ _ _ | .revise _ _ _ | .reviseRegion _ _ => .nothing

/-- What an access leaves behind. -/
def after (map : ByteMap) : Access → ByteMap
  | .read _ _ | .readWord _ => map
  | .write address data => map.write address data
  | .fill address count value => map.write address (List.replicate count value)
  | .revise address count revision =>
      map.write address (revision.change (map.bytes address count))
  | .reviseRegion region revision =>
      map.write region.base (revision.change (map.bytes region.base region.size.toNat))

/-- Make an access to a byte map: it goes through when all its addresses are in the space. -/
def access (map : ByteMap) (access : Access) : Except Fault Found × ByteMap :=
  if map.space.Holds access.address access.count then (.ok (map.found access), map.after access)
  else (.error (.outOfBounds access.address access.count), map)

end ByteMap

/-! ## Agreement -/

/-- Device memory has the bounds and the bytes of a byte map. -/
structure Refines (memory : DeviceMemory) (map : ByteMap) : Prop where
  base : memory.base = map.space.base
  size : memory.bytes.size = map.space.size.toNat
  bytes : ∀ place, memory.byteAt? place =
    if map.space.base.toNat ≤ place ∧ place < map.space.limit then some (map.byte place) else none

namespace Refines

variable {memory after : DeviceMemory} {map : ByteMap} {address : UInt32} {count : Nat}
variable {data : Bytes}

theorem zeroed (space : AddressSpace) : Refines (.zeroed space) ⟨space, []⟩ := by
  refine ⟨rfl, Array.size_replicate .., fun place => ?_⟩
  change (if space.base.toNat ≤ place then
      (Array.replicate space.size.toNat (0 : UInt8))[place - space.base.toNat]? else none) =
    if space.base.toNat ≤ place ∧ place < space.limit then some 0 else none
  rw [Array.getElem?_replicate, AddressSpace.limit]
  by_cases above : space.base.toNat ≤ place
  · by_cases below : place < space.base.toNat + space.size.toNat
    · rw [if_pos above, if_pos (by omega), if_pos ⟨above, below⟩]
    · rw [if_pos above, if_neg (by omega), if_neg fun inside => below inside.2]
  · rw [if_neg above, if_neg fun inside => above inside.1]

theorem read_of_holds (refines : Refines memory map) (holds : map.space.Holds address count) :
    memory.read address count = .ok (map.bytes address count) := by
  obtain ⟨above, below⟩ := holds
  rw [AddressSpace.limit] at below
  obtain ⟨data, found⟩ := DeviceMemory.exists_read count (refines.base ▸ above)
    (refines.base ▸ refines.size ▸ below)
  rw [found]
  refine congrArg Except.ok (DeviceMemory.eq_of_read found ?_ fun index inside => ?_)
  · rw [ByteMap.bytes, List.length_map, List.length_range]
  · rw [refines.bytes, AddressSpace.limit, if_pos (by omega), ByteMap.bytes, List.getElem?_map,
      List.getElem?_range inside]
    rfl

/-- What the space does not hold is not all inside memory. -/
theorem outside_of_not_holds (refines : Refines memory map)
    (outside : ¬map.space.Holds address count) :
    ¬(memory.base.toNat ≤ address.toNat ∧
      address.toNat + count ≤ memory.base.toNat + memory.bytes.size) := by
  rwa [refines.base, refines.size]

theorem write_of_not_holds (refines : Refines memory map)
    (outside : ¬map.space.Holds address data.length) :
    memory.write address data = .error (.outOfBounds address data.length) := by
  rw [DeviceMemory.write, DeviceMemory.offset_eq_error (refines.outside_of_not_holds outside)]
  rfl

theorem write (refines : Refines memory map) (written : memory.write address data = .ok after) :
    Refines after (map.write address data) := by
  obtain ⟨base, size⟩ := DeviceMemory.bounds_of_write written
  obtain ⟨above, below⟩ := DeviceMemory.reach_of_write written
  refine ⟨base.trans refines.base, size.trans refines.size, fun place => ?_⟩
  rw [refines.base] at above
  rw [refines.base, refines.size] at below
  rw [DeviceMemory.byteAt?_of_write written, refines.bytes]
  simp only [ByteMap.write, ByteMap.byte, ByteMap.lastWritten]
  by_cases covered : address.toNat ≤ place ∧ place < address.toNat + data.length
  · rw [if_pos covered, if_pos covered, AddressSpace.limit, if_pos (by omega),
      List.getD_eq_getElem?_getD, List.getElem?_eq_getElem (by omega), Option.getD_some]
  · rw [if_neg covered, if_neg covered]

theorem write_of_holds (refines : Refines memory map)
    (holds : map.space.Holds address data.length) :
    ∃ after, memory.write address data = .ok after ∧ Refines after (map.write address data) := by
  obtain ⟨above, below⟩ := holds
  rw [AddressSpace.limit] at below
  obtain ⟨after, written⟩ := DeviceMemory.exists_write data (refines.base ▸ above)
    (refines.base ▸ refines.size ▸ below)
  exact ⟨after, written, refines.write written⟩

theorem readWord_of_holds (refines : Refines memory map) (holds : map.space.Holds address 4) :
    memory.readWord address =
      .ok (Word.join (map.byte address.toNat) (map.byte (address.toNat + 1))
        (map.byte (address.toNat + 2)) (map.byte (address.toNat + 3))) := by
  rw [DeviceMemory.readWord, refines.read_of_holds holds]
  rfl

theorem revise_of_not_holds (refines : Refines memory map)
    (outside : ¬map.space.Holds address count) (revision : Revision) :
    memory.revise address count revision = .error (.outOfBounds address count) := by
  rw [DeviceMemory.revise, DeviceMemory.offset_eq_error (refines.outside_of_not_holds outside)]
  rfl

/-- A look at the addresses of an access, refused when they are not all inside, is the access. -/
theorem answer (refines : Refines memory map) {access : Access} {result : Except Fault Found}
    (finds : map.space.Holds access.address access.count → result = .ok (map.found access))
    (refused : ¬map.space.Holds access.address access.count →
      result = .error (.outOfBounds access.address access.count))
    (after : map.after access = map) :
    result = (map.access access).1 ∧ Refines memory (map.access access).2 := by
  rw [ByteMap.access, after]
  by_cases holds : map.space.Holds access.address access.count
  · rw [if_pos holds, finds holds]
    exact ⟨rfl, refines⟩
  · rw [if_neg holds, refused holds]
    exact ⟨rfl, refines⟩

/-- A write to the addresses of an access, refused when they are not all inside, is the access. -/
theorem settle (refines : Refines memory map) {access : Access}
    {change : Except Fault DeviceMemory} (length : data.length = access.count)
    (writes : map.space.Holds access.address access.count →
      change = memory.write access.address data)
    (refused : ¬map.space.Holds access.address access.count →
      change = .error (.outOfBounds access.address access.count))
    (found : map.found access = .nothing)
    (after : map.after access = map.write access.address data) :
    (memory.settle change).1 = (map.access access).1 ∧
      Refines (memory.settle change).2 (map.access access).2 := by
  rw [ByteMap.access, found, after]
  by_cases holds : map.space.Holds access.address access.count
  · obtain ⟨later, written, refines'⟩ := refines.write_of_holds (length ▸ holds)
    rw [if_pos holds, writes holds, written]
    exact ⟨rfl, refines'⟩
  · rw [if_neg holds, refused holds]
    exact ⟨rfl, refines⟩

/-- A change in place writes what the bytes of the map are changed to. -/
theorem settle_revise (refines : Refines memory map) (access : Access) (revision : Revision)
    (found : map.found access = .nothing)
    (after : map.after access =
      map.write access.address (revision.change (map.bytes access.address access.count))) :
    let change := memory.revise access.address access.count revision
    (memory.settle change).1 = (map.access access).1 ∧
      Refines (memory.settle change).2 (map.access access).2 := by
  refine refines.settle ?_ (fun holds => ?_) (fun outside => ?_) found after
  · rw [revision.length_change, ByteMap.bytes, List.length_map, List.length_range]
  · exact DeviceMemory.revise_eq_write_of_read (refines.read_of_holds holds) revision
  · exact refines.revise_of_not_holds outside revision

/-- **Device memory answers every access as its byte map does, and goes on as its byte map
does.** -/
theorem access (refines : Refines memory map) (access : Access) :
    (memory.access access).1 = (map.access access).1 ∧
      Refines (memory.access access).2 (map.access access).2 := by
  cases access with
  | read address count =>
      refine refines.answer (fun holds => ?_) (fun outside => ?_) rfl
      · exact congrArg (Except.map Found.bytes) (refines.read_of_holds holds)
      · have refused := refines.outside_of_not_holds outside
        exact congrArg (Except.map Found.bytes) (DeviceMemory.read_eq_error refused)
  | readWord address =>
      refine refines.answer (fun holds => ?_) (fun outside => ?_) rfl
      · exact congrArg (Except.map Found.word) (refines.readWord_of_holds holds)
      · have refused := refines.outside_of_not_holds outside
        exact congrArg (Except.map Found.word) (DeviceMemory.readWord_eq_error refused)
  | write address data =>
      exact refines.settle rfl (fun _ => rfl) refines.write_of_not_holds rfl rfl
  | fill address count value =>
      have length : (List.replicate count value).length = count := List.length_replicate
      rw [DeviceMemory.access, DeviceMemory.fill_eq_write]
      refine refines.settle length (fun _ => rfl) (fun outside => ?_) rfl rfl
      have refused := refines.write_of_not_holds (length.symm ▸ outside)
      rwa [length] at refused
  | revise address count revision =>
      exact refines.settle_revise (.revise address count revision) revision rfl rfl
  | reviseRegion region revision =>
      exact refines.settle_revise (.reviseRegion region revision) revision rfl rfl

end Refines

/-- **Device memory answers every sequence of accesses as its byte map does.** -/
theorem Refines.perform {memory : DeviceMemory} {map : ByteMap} (refines : Refines memory map)
    (accesses : List Access) :
    (perform DeviceMemory.access memory accesses).1 = (perform ByteMap.access map accesses).1 ∧
      Refines (perform DeviceMemory.access memory accesses).2
        (perform ByteMap.access map accesses).2 := by
  induction accesses generalizing memory map with
  | nil => exact ⟨rfl, refines⟩
  | cons next rest ih =>
      obtain ⟨answer, refines'⟩ := refines.access next
      obtain ⟨answers, last⟩ := ih refines'
      exact ⟨congr (congrArg List.cons answer) answers, last⟩

namespace ByteMap

theorem space_access (map : ByteMap) (access : Access) :
    (map.access access).2.space = map.space := by
  rw [ByteMap.access]
  split
  · cases access <;> rfl
  · rfl

theorem space_perform (map : ByteMap) (accesses : List Access) :
    (perform access map accesses).2.space = map.space := by
  induction accesses generalizing map with
  | nil => rfl
  | cons next rest ih => exact (ih _).trans (map.space_access next)

end ByteMap

/-- **New memory and an empty byte map of the same space cannot be told apart**, whatever is done
to them: every access comes to the same, memory keeps its bounds, and afterwards it has at every
address of the space the byte that was written there last, or zero. -/
theorem perform_zeroed (space : AddressSpace) (accesses : List Access) :
    let real := perform DeviceMemory.access (.zeroed space) accesses
    let ideal := perform ByteMap.access ⟨space, []⟩ accesses
    real.1 = ideal.1 ∧ real.2.base = space.base ∧ real.2.bytes.size = space.size.toNat ∧
      ∀ place, real.2.byteAt? place =
        if space.base.toNat ≤ place ∧ place < space.limit then
          some (ByteMap.lastWritten ideal.2.written place)
        else none := by
  intro real ideal
  obtain ⟨answers, refines⟩ := (Refines.zeroed space).perform accesses
  have same : ideal.2.space = space := ByteMap.space_perform ⟨space, []⟩ accesses
  refine ⟨answers, ?_, ?_, fun place => ?_⟩
  · rw [← same]
    exact refines.base
  · rw [← same]
    exact refines.size
  · rw [← same]
    exact refines.bytes place

end Overlay
