import Overlay.Bytes

/-!
# What a buffer holds after a store

A store changes the bytes from its start on, as far as the data and the buffer
reach, and no others (`getElem?_store`).  Storing two pieces behind one another
is storing them together (`store_append`), and what has been stored at the front
is found there (`slice_store`).
-/

set_option autoImplicit false

namespace Overlay.Buffer

/-- A byte of a buffer after a store: from the data inside the stretch, as it was
outside. -/
theorem getElem?_store (buffer : Buffer) (start : Nat) (data : Bytes) (index : Nat) :
    (store buffer start data)[index]? =
      if start ≤ index ∧ index < start + data.length ∧ index < buffer.size then
        data[index - start]?
      else buffer[index]? := by
  induction data generalizing buffer start with
  | nil =>
      rw [store_nil, if_neg]
      simp only [List.length_nil]
      omega
  | cons byte rest ih =>
      rw [store, ih, Array.getElem?_setIfInBounds, Array.size_setIfInBounds, List.length_cons]
      by_cases first : start = index
      · subst first
        by_cases inside : start < buffer.size
        · rw [if_neg (by omega), if_pos rfl, if_pos inside, if_pos (by omega)]
          simp
        · rw [if_neg (by omega), if_pos rfl, if_neg inside, if_neg (by omega)]
          exact (Array.getElem?_eq_none (by omega)).symm
      · by_cases later : start + 1 ≤ index ∧ index < start + 1 + rest.length ∧ index < buffer.size
        · rw [if_pos later, if_pos (by omega)]
          have shifted : index - start = (index - (start + 1)) + 1 := by omega
          rw [shifted, List.getElem?_cons_succ]
        · rw [if_neg later, if_neg first, if_neg (by omega)]

theorem store_append (buffer : Buffer) (start : Nat) (first second : Bytes) :
    store buffer start (first ++ second) =
      store (store buffer start first) (start + first.length) second := by
  induction first generalizing buffer start with
  | nil => rfl
  | cons byte rest ih =>
      rw [List.cons_append, store, store, ih, List.length_cons]
      have shifted : start + 1 + rest.length = start + (rest.length + 1) := by omega
      rw [shifted]

theorem getElem?_slice (buffer : Buffer) (start count index : Nat)
    (room : start + count ≤ buffer.size) :
    (slice buffer start count)[index]? =
      if index < count then buffer[start + index]? else none := by
  rw [slice, Array.getElem?_toList, Array.getElem?_extract]
  have inside : index < min (start + count) buffer.size - start ↔ index < count := by omega
  simp only [inside]

@[simp] theorem length_slice (buffer : Buffer) (start count : Nat)
    (room : start + count ≤ buffer.size) : (slice buffer start count).length = count := by
  rw [slice, Array.length_toList, Array.size_extract]
  omega

theorem slice_store (buffer : Buffer) (data : Bytes) (room : data.length ≤ buffer.size) :
    slice (store buffer 0 data) 0 data.length = data := by
  refine List.ext_getElem? fun index => ?_
  rw [getElem?_slice _ _ _ _ (by rw [size_store]; omega), Nat.zero_add,
    getElem?_store, Nat.zero_add, Nat.sub_zero]
  by_cases inside : index < data.length
  · rw [if_pos inside, if_pos ⟨Nat.zero_le _, inside, by omega⟩]
  · rw [if_neg inside, List.getElem?_eq_none (by omega)]

end Overlay.Buffer
