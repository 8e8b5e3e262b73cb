import Overlay.Memory.Device
import Overlay.Proofs.Buffer

/-!
# The bytes of device memory

Reads, writes and fills told byte by byte: a read finds the bytes that stand at its
addresses, and a write or a fill puts its bytes there and leaves all others alone.  None
of them fails inside memory, and none moves its bounds.
-/

set_option autoImplicit false

namespace Overlay

namespace DeviceMemory

/-- The byte at an address, if there is one. -/
def byteAt? (memory : DeviceMemory) (address : Nat) : Option UInt8 :=
  if memory.base.toNat ≤ address then memory.bytes[address - memory.base.toNat]? else none

section Accesses

variable {memory after : DeviceMemory} {address : UInt32} {count start : Nat} {data : Bytes}

theorem of_offset (inside : memory.offset address count = .ok start) :
    memory.base.toNat ≤ address.toNat ∧ start = address.toNat - memory.base.toNat ∧
      start + count ≤ memory.bytes.size := by
  rw [offset] at inside
  split at inside
  · cases inside
    exact ⟨‹_ ∧ _›.1, rfl, ‹_ ∧ _›.2⟩
  · cases inside

theorem offset_eq_ok (above : memory.base.toNat ≤ address.toNat)
    (room : address.toNat + count ≤ memory.base.toNat + memory.bytes.size) :
    memory.offset address count = .ok (address.toNat - memory.base.toNat) := by
  rw [offset, if_pos ⟨above, by omega⟩]

/-- An access is refused when not all of it is inside. -/
theorem offset_eq_error (outside : ¬(memory.base.toNat ≤ address.toNat ∧
    address.toNat + count ≤ memory.base.toNat + memory.bytes.size)) :
    memory.offset address count = .error (.outOfBounds address count) := by
  rw [offset, if_neg (by omega)]

/-- What a read that goes through has read, and where. -/
theorem eq_slice_of_read (found : memory.read address count = .ok data) :
    memory.offset address count = .ok (address.toNat - memory.base.toNat) ∧
      data = Buffer.slice memory.bytes (address.toNat - memory.base.toNat) count := by
  rw [read] at found
  cases inside : memory.offset address count with
  | error fault =>
      rw [inside] at found
      cases found
  | ok start =>
      rw [inside] at found
      cases found
      obtain ⟨_, rfl, _⟩ := of_offset inside
      exact ⟨rfl, rfl⟩

/-- What a write that goes through has made of memory, and where. -/
theorem eq_store_of_write (written : memory.write address data = .ok after) :
    memory.offset address data.length = .ok (address.toNat - memory.base.toNat) ∧
      after = { memory with
        bytes := Buffer.store memory.bytes (address.toNat - memory.base.toNat) data } := by
  rw [write] at written
  cases inside : memory.offset address data.length with
  | error fault =>
      rw [inside] at written
      cases written
  | ok start =>
      rw [inside] at written
      cases written
      obtain ⟨_, rfl, _⟩ := of_offset inside
      exact ⟨rfl, rfl⟩

theorem length_of_read (found : memory.read address count = .ok data) : data.length = count := by
  obtain ⟨inside, rfl⟩ := eq_slice_of_read found
  exact Buffer.length_slice _ _ _ (of_offset inside).2.2

theorem exists_read (count : Nat) (above : memory.base.toNat ≤ address.toNat)
    (room : address.toNat + count ≤ memory.base.toNat + memory.bytes.size) :
    ∃ data, memory.read address count = .ok data := by
  rw [read, offset_eq_ok above room]
  exact ⟨_, rfl⟩

theorem read_eq_error (outside : ¬(memory.base.toNat ≤ address.toNat ∧
    address.toNat + count ≤ memory.base.toNat + memory.bytes.size)) :
    memory.read address count = .error (.outOfBounds address count) := by
  rw [read, offset_eq_error outside]
  rfl

/-- A read has one way to fail. -/
theorem fault_of_read {fault : Fault} (failed : memory.read address count = .error fault) :
    fault = .outOfBounds address count := by
  by_cases inside : memory.base.toNat ≤ address.toNat ∧
      address.toNat + count ≤ memory.base.toNat + memory.bytes.size
  · obtain ⟨data, found⟩ := exists_read count inside.1 inside.2
    rw [failed] at found
    cases found
  · rw [read_eq_error inside] at failed
    cases failed
    rfl

theorem exists_readWord (above : memory.base.toNat ≤ address.toNat)
    (room : address.toNat + 4 ≤ memory.base.toNat + memory.bytes.size) :
    ∃ word, memory.readWord address = .ok word := by
  obtain ⟨data, found⟩ := exists_read 4 above room
  rw [readWord, found]
  match data, length_of_read found with
  | [_, _, _, _], _ => exact ⟨_, rfl⟩

theorem readWord_eq_error (outside : ¬(memory.base.toNat ≤ address.toNat ∧
    address.toNat + 4 ≤ memory.base.toNat + memory.bytes.size)) :
    memory.readWord address = .error (.outOfBounds address 4) := by
  rw [readWord, read_eq_error outside]
  rfl

theorem byteAt?_of_read (found : memory.read address count = .ok data) {index : Nat}
    (bounded : index < count) : memory.byteAt? (address.toNat + index) = data[index]? := by
  obtain ⟨inside, rfl⟩ := eq_slice_of_read found
  obtain ⟨above, -, room⟩ := of_offset inside
  rw [Buffer.getElem?_slice _ _ _ _ room, if_pos bounded, byteAt?, if_pos (by omega)]
  congr 1
  omega

/-- A read finds what stands at its addresses. -/
theorem eq_of_read {standing : Bytes} (found : memory.read address count = .ok data)
    (length : standing.length = count)
    (stands : ∀ index, index < count →
      memory.byteAt? (address.toNat + index) = standing[index]?) : data = standing := by
  have found_length := length_of_read found
  refine List.ext_getElem? fun index => ?_
  rcases Nat.lt_or_ge index count with inside | outside
  · rw [← byteAt?_of_read found inside, stands index inside]
  · rw [List.getElem?_eq_none (by omega), List.getElem?_eq_none (by omega)]

/-- A write puts its bytes at its addresses and leaves the others alone. -/
theorem byteAt?_of_write (written : memory.write address data = .ok after) (place : Nat) :
    after.byteAt? place =
      if address.toNat ≤ place ∧ place < address.toNat + data.length then
        data[place - address.toNat]?
      else memory.byteAt? place := by
  obtain ⟨inside, rfl⟩ := eq_store_of_write written
  obtain ⟨above, -, room⟩ := of_offset inside
  simp only [byteAt?]
  by_cases inMemory : memory.base.toNat ≤ place
  · rw [if_pos inMemory, if_pos inMemory, Buffer.getElem?_store]
    by_cases covered : address.toNat ≤ place ∧ place < address.toNat + data.length
    · rw [if_pos covered, if_pos (by omega)]
      congr 1
      omega
    · rw [if_neg covered, if_neg (by omega)]
  · rw [if_neg inMemory, if_neg inMemory, if_neg (by omega)]

theorem exists_write (data : Bytes) (above : memory.base.toNat ≤ address.toNat)
    (room : address.toNat + data.length ≤ memory.base.toNat + memory.bytes.size) :
    ∃ after, memory.write address data = .ok after := by
  rw [write, offset_eq_ok above room]
  exact ⟨_, rfl⟩

theorem bounds_of_write (written : memory.write address data = .ok after) :
    after.base = memory.base ∧ after.bytes.size = memory.bytes.size := by
  obtain ⟨_, rfl⟩ := eq_store_of_write written
  exact ⟨rfl, Buffer.size_store _ _ _⟩

theorem reach_of_write (written : memory.write address data = .ok after) :
    memory.base.toNat ≤ address.toNat ∧
      address.toNat + data.length ≤ memory.base.toNat + memory.bytes.size := by
  obtain ⟨above, -, room⟩ := of_offset (eq_store_of_write written).1
  exact ⟨above, by omega⟩

theorem read_of_write (written : memory.write address data = .ok after) :
    after.read address data.length = .ok data := by
  obtain ⟨above, room⟩ := reach_of_write written
  obtain ⟨base, size⟩ := bounds_of_write written
  rw [← base] at above room
  rw [← size] at room
  obtain ⟨found, read⟩ := exists_read data.length above room
  rw [read]
  refine congrArg Except.ok (eq_of_read read rfl fun index inside => ?_)
  rw [byteAt?_of_write written, if_pos (by omega), Nat.add_sub_cancel_left]

/-- A write reaches as far as a read does. -/
theorem exists_write_of_read (found : memory.read address count = .ok data) {data' : Bytes}
    (fits : data'.length ≤ count) : ∃ after, memory.write address data' = .ok after := by
  obtain ⟨above, -, room⟩ := of_offset (eq_slice_of_read found).1
  exact exists_write data' above (by omega)

theorem fill_eq_write (memory : DeviceMemory) (address : UInt32) (count : Nat) (value : UInt8) :
    memory.fill address count value = memory.write address (List.replicate count value) := by
  rw [fill, write, List.length_replicate]

theorem exists_fill (count : Nat) (value : UInt8) (above : memory.base.toNat ≤ address.toNat)
    (room : address.toNat + count ≤ memory.base.toNat + memory.bytes.size) :
    ∃ after, memory.fill address count value = .ok after := by
  rw [fill_eq_write]
  exact exists_write _ above (by rwa [List.length_replicate])

theorem bounds_of_fill {value : UInt8} (filled : memory.fill address count value = .ok after) :
    after.base = memory.base ∧ after.bytes.size = memory.bytes.size := by
  rw [fill_eq_write] at filled
  exact bounds_of_write filled

theorem byteAt?_of_fill {value : UInt8} (filled : memory.fill address count value = .ok after)
    (place : Nat) :
    after.byteAt? place =
      if address.toNat ≤ place ∧ place < address.toNat + count then some value
      else memory.byteAt? place := by
  rw [fill_eq_write] at filled
  rw [byteAt?_of_write filled, List.length_replicate]
  by_cases covered : address.toNat ≤ place ∧ place < address.toNat + count
  · rw [if_pos covered, if_pos covered, List.getElem?_replicate, if_pos (by omega)]
  · rw [if_neg covered, if_neg covered]

/-- Memory is determined by its first address and its bytes. -/
theorem ext_byteAt? (base : after.base = memory.base)
    (same : ∀ place, after.byteAt? place = memory.byteAt? place) : after = memory := by
  obtain ⟨start, bytes⟩ := memory
  obtain ⟨start', bytes'⟩ := after
  cases base
  congr 1
  refine Array.ext_getElem? fun index => ?_
  have here := same (start.toNat + index)
  simp only [byteAt?, if_pos (Nat.le_add_right _ _), Nat.add_sub_cancel_left] at here
  exact here

theorem eq_of_write (written : memory.write address data = .ok after)
    (stands : ∀ index, index < data.length →
      memory.byteAt? (address.toNat + index) = data[index]?) : after = memory := by
  refine ext_byteAt? (bounds_of_write written).1 fun place => ?_
  rw [byteAt?_of_write written]
  by_cases covered : address.toNat ≤ place ∧ place < address.toNat + data.length
  · obtain ⟨index, rfl⟩ := Nat.exists_eq_add_of_le covered.1
    rw [if_pos covered, Nat.add_sub_cancel_left, stands index (by omega)]
  · rw [if_neg covered]

/-- Writing back what has been read, with other bytes at its front, is writing these. -/
theorem write_store_of_read (found : memory.read address count = .ok data) {front : Bytes}
    (fits : front.length ≤ count) :
    memory.write address (Buffer.store data.toArray 0 front).toList =
      memory.write address front := by
  have length := length_of_read found
  have whole : (Buffer.store data.toArray 0 front).toList.length = count := by
    rw [Array.length_toList, Buffer.size_store, List.size_toArray, length]
  obtain ⟨all, written⟩ := exists_write_of_read found (Nat.le_of_eq whole)
  obtain ⟨part, written'⟩ := exists_write_of_read found fits
  rw [written, written']
  refine congrArg Except.ok (ext_byteAt? ?_ fun place => ?_)
  · rw [(bounds_of_write written).1, (bounds_of_write written').1]
  rw [byteAt?_of_write written, byteAt?_of_write written', whole]
  by_cases covered : address.toNat ≤ place ∧ place < address.toNat + count
  · obtain ⟨index, rfl⟩ := Nat.exists_eq_add_of_le covered.1
    rw [if_pos covered, Nat.add_sub_cancel_left, Array.getElem?_toList, Buffer.getElem?_store,
      List.size_toArray, length, Nat.sub_zero, byteAt?_of_read found (by omega)]
    by_cases front' : index < front.length
    · rw [if_pos (by omega), if_pos (by omega)]
    · rw [if_neg (by omega), if_neg (by omega), List.getElem?_toArray]
  · rw [if_neg covered, if_neg (by omega)]

/-- To change bytes in their place is to write back what they are changed to. -/
theorem revise_eq_write_of_read (found : memory.read address count = .ok data)
    (revision : Revision) :
    memory.revise address count revision = memory.write address (revision.change data) := by
  have length := length_of_read found
  obtain ⟨inside, rfl⟩ := eq_slice_of_read found
  rw [revise, write, revision.length_change, length, inside]
  rfl

end Accesses

end DeviceMemory

end Overlay
