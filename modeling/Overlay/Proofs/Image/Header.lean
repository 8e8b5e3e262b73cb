import Mathlib.Data.Option.Basic
import Overlay.Image.Header
import Overlay.Proofs.Words

/-!
# Reading a header

A sequence has the fields of a header at its front exactly when it is long enough and opens
with the magic (`fields?_body`, `fields?_eq_none_iff`).  What it is read as then hangs on
the stored checksum first and on the range to clear after that; a relation with one case for
each answer says so (`Decodes`), and the decoder is that relation (`decode_eq_iff`).

So a header reads back from its bytes, whatever stands behind them, and nothing that does not
begin with the bytes of a header is read as that header (`decode_exact`).
-/

set_option autoImplicit false

namespace Overlay

theorem Word.exists_encode_append {data : Bytes} (long : 4 ≤ data.length) :
    ∃ value rest, data = encode value ++ rest ∧ data.length = 4 + rest.length := by
  obtain ⟨value, rest, taken⟩ := exists_take? long
  have whole := eq_encode_append taken
  refine ⟨value, rest, whole, ?_⟩
  rw [whole, List.length_append, length_encode]

namespace ImageHeader

/-! ## Finding the fields -/

section Fields

variable {data : Bytes} {header : ImageHeader} {stored : UInt32}

@[simp] theorem length_body (header : ImageHeader) : header.body.length = 16 := rfl

theorem fields?_body (header : ImageHeader) (stored : UInt32) (rest : Bytes) :
    fields? (header.body ++ (Word.encode stored ++ rest)) = some (header, stored) := by
  have opens (rest : Bytes) : (magic ++ rest).take 4 = magic := rfl
  have behind (rest : Bytes) : (magic ++ rest).drop 4 = rest := rfl
  simp only [body, List.append_assoc]
  rw [fields?, opens, behind, guard, if_pos rfl]
  simp only [bind, pure, Option.bind_some, Word.take?_encode]

theorem eq_body_append (found : fields? data = some (header, stored)) :
    ∃ rest, data = header.body ++ (Word.encode stored ++ rest) := by
  rw [fields?] at found
  by_cases opens : data.take 4 ≠ magic
  · rw [guard, if_neg opens] at found
    cases found
  rw [not_not] at opens
  rw [guard, if_pos opens] at found
  simp only [bind, Option.bind_eq_some_iff, Prod.exists] at found
  obtain ⟨_, -, entry, first, takesEntry, start, second, takesStart, limit, third, takesLimit,
    sum, rest, takesSum, made⟩ := found
  cases made
  refine ⟨rest, ?_⟩
  rw [← List.take_append_drop 4 data, opens, Word.eq_encode_append takesEntry,
    Word.eq_encode_append takesStart, Word.eq_encode_append takesLimit,
    Word.eq_encode_append takesSum]
  simp only [body, List.append_assoc]

/-- Behind the magic, sixteen bytes and more begin with fields. -/
theorem exists_body_append (long : length ≤ data.length) (opens : data.take 4 = magic) :
    ∃ (header : ImageHeader) (stored : UInt32) (rest : Bytes),
      data = header.body ++ (Word.encode stored ++ rest) := by
  rw [length] at long
  have room : 16 ≤ (data.drop 4).length := by
    rw [List.length_drop]
    omega
  obtain ⟨entry, first, isEntry, countEntry⟩ :=
    Word.exists_encode_append (show 4 ≤ (data.drop 4).length by omega)
  obtain ⟨start, second, isStart, countStart⟩ :=
    Word.exists_encode_append (show 4 ≤ first.length by omega)
  obtain ⟨limit, third, isLimit, countLimit⟩ :=
    Word.exists_encode_append (show 4 ≤ second.length by omega)
  obtain ⟨stored, rest, isSum, _⟩ := Word.exists_encode_append (show 4 ≤ third.length by omega)
  refine ⟨⟨entry, ⟨start, limit⟩⟩, stored, rest, ?_⟩
  rw [← List.take_append_drop 4 data, opens, isEntry, isStart, isLimit, isSum]
  simp only [body, List.append_assoc]

theorem length_le_of_body {rest : Bytes}
    (whole : data = header.body ++ (Word.encode stored ++ rest)) :
    length ≤ data.length ∧ data.take 4 = magic := by
  subst whole
  refine ⟨?_, rfl⟩
  rw [List.length_append, List.length_append, length_body, Word.length_encode, length]
  omega

theorem fields?_eq_none_iff :
    fields? data = none ↔ data.length < length ∨ data.take 4 ≠ magic := by
  constructor
  · intro missing
    rcases Nat.lt_or_ge data.length length with short | long
    · exact .inl short
    refine .inr fun opens => ?_
    obtain ⟨header, stored, rest, whole⟩ := exists_body_append long opens
    rw [whole, fields?_body] at missing
    cases missing
  · intro lacks
    cases found : fields? data with
    | none => rfl
    | some fields =>
        obtain ⟨rest, whole⟩ := eq_body_append found
        obtain ⟨long, opens⟩ := length_le_of_body whole
        rcases lacks with short | other
        · exact absurd long (Nat.not_le_of_lt short)
        · exact absurd opens other

end Fields

/-! ## What is read -/

/-- What a sequence of bytes is read as. -/
inductive Decodes : Bytes → Except Rejection (Option ImageHeader) → Prop where
  /-- There is no header. -/
  | bare {data : Bytes} (lacks : data.length < length ∨ data.take 4 ≠ magic) :
      Decodes data (.ok none)
  /-- The stored checksum is not that of the fields. -/
  | broken (header : ImageHeader) {stored : UInt32} (rest : Bytes)
      (differs : stored ≠ checksum header.body) :
      Decodes (header.body ++ (Word.encode stored ++ rest))
        (.error (.badHeaderChecksum stored (checksum header.body)))
  /-- The header is whole, but its range to clear ends before it begins. -/
  | inverted (header : ImageHeader) (rest : Bytes)
      (inverted : header.bss.limit < header.bss.start) :
      Decodes (header.encode ++ rest) (.error (.invalidBss header.bss.start header.bss.limit))
  /-- The header is in order. -/
  | whole (header : ImageHeader) (rest : Bytes) (ordered : header.bss.start ≤ header.bss.limit) :
      Decodes (header.encode ++ rest) (.ok (some header))

section Decoding

variable {data : Bytes}

theorem take_body_append (header : ImageHeader) (rest : Bytes) :
    (header.body ++ rest).take 16 = header.body := List.take_left' (length_body header)

/-- What fields with a stored checksum behind them are read as. -/
theorem decode_body (header : ImageHeader) (stored : UInt32) (rest : Bytes) :
    decode (header.body ++ (Word.encode stored ++ rest)) =
      if stored ≠ checksum header.body then
        .error (.badHeaderChecksum stored (checksum header.body))
      else if header.bss.limit < header.bss.start then
        .error (.invalidBss header.bss.start header.bss.limit)
      else .ok (some header) := by
  rw [decode, fields?_body, take_body_append]

theorem encode_append (header : ImageHeader) (rest : Bytes) :
    header.encode ++ rest = header.body ++ (Word.encode (checksum header.body) ++ rest) := by
  rw [encode, List.append_assoc]

/-- **A header reads back from its bytes**, if its range to clear is in order. -/
theorem decode_encode (header : ImageHeader) (rest : Bytes) :
    decode (header.encode ++ rest) =
      if header.bss.start ≤ header.bss.limit then .ok (some header)
      else .error (.invalidBss header.bss.start header.bss.limit) := by
  rw [encode_append, decode_body, if_neg (not_not.mpr rfl)]
  by_cases ordered : header.bss.start ≤ header.bss.limit
  · rw [if_pos ordered, if_neg (UInt32.not_lt.mpr ordered)]
  · rw [if_neg ordered, if_pos (UInt32.not_le.mp ordered)]

/-- **The decoder is the relation.** -/
theorem decode_eq_iff {result : Except Rejection (Option ImageHeader)} :
    decode data = result ↔ Decodes data result := by
  constructor
  · rintro rfl
    cases found : fields? data with
    | none =>
        rw [decode, found]
        exact .bare (fields?_eq_none_iff.mp found)
    | some fields =>
        obtain ⟨header, stored⟩ := fields
        obtain ⟨rest, rfl⟩ := eq_body_append found
        rw [decode_body]
        by_cases differs : stored ≠ checksum header.body
        · rw [if_pos differs]
          exact .broken header rest differs
        obtain rfl := not_not.mp differs
        rw [if_neg differs, ← encode_append]
        by_cases inverted : header.bss.limit < header.bss.start
        · rw [if_pos inverted]
          exact .inverted header rest inverted
        · rw [if_neg inverted]
          exact .whole header rest (UInt32.not_lt.mp inverted)
  · intro decodes
    cases decodes with
    | bare lacks => rw [decode, fields?_eq_none_iff.mpr lacks]
    | broken header rest differs => rw [decode_body, if_pos differs]
    | inverted header rest inverted =>
        rw [decode_encode, if_neg (UInt32.not_le.mpr inverted)]
    | whole header rest ordered => rw [decode_encode, if_pos ordered]

theorem take_length_append (header : ImageHeader) (stored : UInt32) (rest : Bytes) :
    (header.body ++ (Word.encode stored ++ rest)).take length =
      header.body ++ Word.encode stored := by
  rw [← List.append_assoc]
  exact List.take_left' rfl

theorem decode_eq_header_iff {header : ImageHeader} : decode data = .ok (some header) ↔
    length ≤ data.length ∧ data.take length = header.encode ∧
      header.bss.start ≤ header.bss.limit := by
  rw [decode_eq_iff]
  constructor
  · intro decodes
    cases decodes with
    | whole _ rest ordered =>
        rw [encode_append]
        exact ⟨(length_le_of_body rfl).1, take_length_append _ _ rest, ordered⟩
  · rintro ⟨_, front, ordered⟩
    rw [← List.take_append_drop length data, front]
    exact .whole header _ ordered

theorem decode_eq_none_iff :
    decode data = .ok none ↔ data.length < length ∨ data.take 4 ≠ magic := by
  rw [decode_eq_iff]
  constructor
  · intro decodes
    cases decodes with
    | bare lacks => exact lacks
  · exact .bare

theorem decode_eq_error_iff {reason : Rejection} : decode data = .error reason ↔
    ∃ (header : ImageHeader) (stored : UInt32),
      data.take length = header.body ++ Word.encode stored ∧
        (stored ≠ checksum (data.take 16) ∧
            reason = .badHeaderChecksum stored (checksum (data.take 16)) ∨
          stored = checksum (data.take 16) ∧ header.bss.limit < header.bss.start ∧
            reason = .invalidBss header.bss.start header.bss.limit) := by
  rw [decode_eq_iff]
  constructor
  · intro decodes
    cases decodes with
    | @broken header stored rest differs =>
        refine ⟨header, stored, take_length_append header stored rest, .inl ?_⟩
        rw [take_body_append]
        exact ⟨differs, rfl⟩
    | inverted header rest inverted =>
        rw [encode_append]
        refine ⟨header, _, take_length_append header _ rest, .inr ?_⟩
        rw [take_body_append]
        exact ⟨rfl, inverted, rfl⟩
  · rintro ⟨header, stored, front, verdict⟩
    have cut : data = header.body ++ (Word.encode stored ++ data.drop length) := by
      rw [← List.append_assoc, ← front, List.take_append_drop]
    rw [cut, take_body_append] at verdict
    rw [cut]
    rcases verdict with ⟨differs, rfl⟩ | ⟨rfl, inverted, rfl⟩
    · exact .broken header _ differs
    · rw [← encode_append]
      exact .inverted header _ inverted

end Decoding

/-- **Headers and their bytes determine each other.**  A header in order is read from its own
twenty bytes with anything behind them, and from nothing else; there is no header exactly where
there are too few bytes or another magic; all else is refused, for a stored checksum that is not
the one of the sixteen bytes before it, or for a range to clear that ends before it begins. -/
theorem decode_exact :
    (∀ (header : ImageHeader) (rest : Bytes), decode (header.encode ++ rest) =
      if header.bss.start ≤ header.bss.limit then .ok (some header)
      else .error (.invalidBss header.bss.start header.bss.limit)) ∧
    ∀ data : Bytes,
      (∀ header : ImageHeader, decode data = .ok (some header) ↔
        length ≤ data.length ∧ data.take length = header.encode ∧
          header.bss.start ≤ header.bss.limit) ∧
      (decode data = .ok none ↔ data.length < length ∨ data.take 4 ≠ magic) ∧
      ∀ reason : Rejection, decode data = .error reason ↔
        ∃ (header : ImageHeader) (stored : UInt32),
          data.take length = header.body ++ Word.encode stored ∧
            (stored ≠ checksum (data.take 16) ∧
                reason = .badHeaderChecksum stored (checksum (data.take 16)) ∨
              stored = checksum (data.take 16) ∧ header.bss.limit < header.bss.start ∧
                reason = .invalidBss header.bss.start header.bss.limit) :=
  ⟨decode_encode, fun _ => ⟨fun _ => decode_eq_header_iff, decode_eq_none_iff,
    fun _ => decode_eq_error_iff⟩⟩

end ImageHeader

end Overlay
