import Overlay.Word

/-!
# Words at the front of a sequence

A word buffer that has taken the bytes of a sequence so far holds its first four
bytes, however the sequence was cut, and knows the word as soon as there is one
(`WordBuffer.value?_fill`).
-/

set_option autoImplicit false

namespace Overlay

namespace Word

theorem toNat_min (first second : UInt32) :
    (min first second).toNat = min first.toNat second.toNat := by
  change (if first ≤ second then first else second).toNat = _
  split
  · have := UInt32.le_iff_toNat_le.mp ‹_›
    omega
  · have := UInt32.lt_iff_toNat_lt.mp (UInt32.not_le.mp ‹_›)
    omega

/-- The sum of two words that has thirty-two bits is their sum as numbers. -/
theorem add?_cases (left right : UInt32) :
    (∃ sum, add? left right = some sum ∧ sum = left + right ∧
        sum.toNat = left.toNat + right.toNat ∧ left.toNat + right.toNat < 4294967296) ∨
      add? left right = none ∧ 4294967296 ≤ left.toNat + right.toNat := by
  rw [add?]
  split
  · rename_i small
    exact .inl ⟨_, rfl, rfl, by rw [UInt32.toNat_add, Nat.mod_eq_of_lt small], small⟩
  · exact .inr ⟨rfl, by omega⟩

theorem take?_of_short {data : Bytes} (short : data.length < 4) : take? data = none := by
  match data, short with
  | [], _ => rfl
  | [_], _ => rfl
  | [_, _], _ => rfl
  | [_, _, _], _ => rfl

theorem exists_take? {data : Bytes} (long : 4 ≤ data.length) :
    ∃ value rest, take? data = some (value, rest) := by
  match data, long with
  | first :: second :: third :: fourth :: rest, _ => exact ⟨_, rest, rfl⟩

theorem ofBytes?_take (data : Bytes) : ofBytes? (data.take 4) = (take? data).map Prod.fst := by
  match data with
  | [] => rfl
  | [_] => rfl
  | [_, _] => rfl
  | [_, _, _] => rfl
  | _ :: _ :: _ :: _ :: _ => rfl

/-- What a taken word leaves is what stands behind four bytes. -/
theorem take?_eq_some {data rest : Bytes} {value : UInt32}
    (taken : take? data = some (value, rest)) :
    4 ≤ data.length ∧ rest = data.drop 4 := by
  match data, taken with
  | _ :: _ :: _ :: _ :: _, taken =>
      simp only [take?, Option.some.injEq, Prod.mk.injEq] at taken
      exact ⟨by simp, by simp [taken.2]⟩

/-- Four bytes are the encoding of the word that they make up. -/
theorem encode_join (first second third fourth : UInt8) :
    encode (join first second third fourth) = [first, second, third, fourth] := by
  have firstBound := first.toNat_lt
  have secondBound := second.toNat_lt
  have thirdBound := third.toNat_lt
  have fourthBound := fourth.toNat_lt
  have value : (join first second third fourth).toNat =
      first.toNat + 256 * second.toNat + 65536 * third.toNat + 16777216 * fourth.toNat := by
    rw [join, UInt32.toNat_ofNat_of_lt' (by simp only [UInt32.size]; omega)]
  rw [encode, value, List.cons.injEq, List.cons.injEq, List.cons.injEq, List.cons.injEq]
  refine ⟨?_, ?_, ?_, ?_, rfl⟩ <;> apply UInt8.toNat_inj.mp <;> rw [UInt8.toNat_ofNat'] <;> omega

theorem eq_encode_append {data rest : Bytes} {value : UInt32}
    (taken : take? data = some (value, rest)) : data = encode value ++ rest := by
  match data, taken with
  | _ :: _ :: _ :: _ :: _, taken =>
      simp only [take?, Option.some.injEq, Prod.mk.injEq] at taken
      rw [← taken.1, ← taken.2, encode_join]
      rfl

theorem take?_append {data : Bytes} (more : Bytes) {value : UInt32} {rest : Bytes}
    (taken : take? data = some (value, rest)) :
    take? (data ++ more) = some (value, rest ++ more) := by
  match data, taken with
  | _ :: _ :: _ :: _ :: _, taken =>
      simp only [take?, Option.some.injEq, Prod.mk.injEq] at taken
      simp [take?, taken.1, taken.2]

@[simp] theorem take?_encode (value : UInt32) (rest : Bytes) :
    take? (encode value ++ rest) = some (value, rest) := by
  have whole : take? (encode value) = some (value, []) := by
    have back := ofBytes?_encode value
    simp only [encode, ofBytes?, Option.some.injEq] at back
    simp only [encode, take?, back]
  simpa using take?_append rest whole

/-- Sequences that begin with encoded words agree in the words and behind them. -/
theorem encode_append_inj {left right : UInt32} {rest rest' : Bytes}
    (same : encode left ++ rest = encode right ++ rest') : left = right ∧ rest = rest' := by
  have taken := take?_encode left rest
  rw [same, take?_encode, Option.some.injEq, Prod.mk.injEq] at taken
  exact ⟨taken.1.symm, taken.2.symm⟩

end Word

namespace WordBuffer

@[simp] theorem bytes_empty : empty.bytes = [] := rfl

theorem ext_bytes {left right : WordBuffer} (same : left.bytes = right.bytes) : left = right := by
  cases left
  cases right
  cases same
  rfl

/-- After a fill a buffer holds the first four bytes of all that has come. -/
theorem bytes_fill (word : WordBuffer) (input : Bytes) :
    (word.fill input).bytes = (word.bytes ++ input).take 4 := by
  have bounded := word.bounded
  rw [List.take_append, List.take_of_length_le bounded]
  rfl

/-- What a buffer that has taken `start` still takes. -/
theorem room_fill {start : Bytes} (short : start.length < 4) :
    (empty.fill start).room = 4 - start.length := by
  rw [room, bytes_fill, bytes_empty, List.nil_append, List.take_of_length_le (Nat.le_of_lt short)]

/-- A buffer knows the word at the front of all that has come. -/
theorem value?_fill (word : WordBuffer) (input : Bytes) :
    (word.fill input).value? = (Word.take? (word.bytes ++ input)).map Prod.fst := by
  rw [value?, bytes_fill, Word.ofBytes?_take]

theorem fill_fill (word : WordBuffer) (first second : Bytes) :
    (word.fill first).fill second = word.fill (first ++ second) := by
  apply ext_bytes
  simp only [bytes_fill, ← List.append_assoc]
  generalize word.bytes ++ first = start
  rw [List.take_append, List.take_append, List.take_take, Nat.min_self, List.length_take]
  congr 2
  omega

/-- A buffer that has taken `start` and not yet a whole word either takes all of an
input and still has no word, or takes what is missing and has one. -/
theorem fill_cases {start : Bytes} (short : start.length < 4) (input : Bytes) :
    ((empty.fill start).uses input = input.length ∧
        (empty.fill (start ++ input)).value? = none ∧ (start ++ input).length < 4) ∨
      ∃ value, (empty.fill start).uses input = 4 - start.length ∧ 4 - start.length ≤ input.length ∧
        (empty.fill (start ++ input)).value? = some value ∧
        Word.take? (start ++ input.take (4 - start.length)) = some (value, []) := by
  have uses : (empty.fill start).uses input = min (4 - start.length) input.length := by
    rw [WordBuffer.uses, room_fill short]
  have known : (empty.fill (start ++ input)).value? =
      (Word.take? (start ++ input)).map Prod.fst := by
    rw [value?_fill, bytes_empty, List.nil_append]
  rw [uses, known]
  by_cases long : 4 ≤ (start ++ input).length
  · right
    rw [List.length_append] at long
    have length : (start ++ input.take (4 - start.length)).length = 4 := by
      rw [List.length_append, List.length_take]
      omega
    obtain ⟨value, rest, taken⟩ := Word.exists_take? (Nat.le_of_eq length.symm)
    rw [(Word.take?_eq_some taken).2, List.drop_eq_nil_of_le (by omega)] at taken
    refine ⟨value, by omega, by omega, ?_, taken⟩
    have whole := Word.take?_append (input.drop (4 - start.length)) taken
    rw [List.append_assoc, List.take_append_drop] at whole
    rw [whole]
    rfl
  · left
    rw [Word.take?_of_short (by omega)]
    rw [List.length_append] at long ⊢
    exact ⟨by omega, rfl, by omega⟩

end WordBuffer

end Overlay
