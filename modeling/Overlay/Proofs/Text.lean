import Mathlib.Data.List.Basic
import Overlay.Text

/-!
# Text and its bytes

The bytes of a text are those of its characters, one after the other (`utf8_eq_spell`), and they
tell the text (`Utf8.spell_injective`).  A character below 128 is one byte, its own number; the
bytes of every other character lie apart from these, and some bytes belong to no character at all
(`Utf8.bounds_of_mem`).

What is shown for the bytes of a text is the text (`shownText_utf8`), so only bytes that are no text
are shown with replacements.
-/

set_option autoImplicit false

namespace Overlay

namespace Utf8

/-- The bytes of characters, one character after the other. -/
def spell (chars : List Char) : Bytes := chars.flatMap String.utf8EncodeChar

theorem spell_cons (char : Char) (rest : List Char) :
    spell (char :: rest) = String.utf8EncodeChar char ++ spell rest :=
  List.flatMap_cons

end Utf8

theorem utf8_eq_spell (text : String) : utf8 text = Utf8.spell text.toList := by
  rw [utf8, String.toUTF8_eq_toByteArray, ← String.utf8Encode_toList, List.utf8Encode,
    List.toList_data_toByteArray]
  rfl

namespace Utf8

theorem spell_injective : Function.Injective spell := by
  intro front back same
  have texts : utf8 (String.ofList front) = utf8 (String.ofList back) := by
    rw [utf8_eq_spell, utf8_eq_spell, String.toList_ofList, String.toList_ofList, same]
  have arrays := ByteArray.ext (Array.toList_inj.mp texts)
  exact String.ofList_injective (String.toByteArray_inj.mp arrays)

theorem toNat_lt (char : Char) : char.val.toNat < 0x110000 := by
  rcases char.valid with low | ⟨_, high⟩
  · exact Nat.lt_trans low (by decide)
  · exact high

/-- A byte of a character is the character itself, or one of the bytes that only longer spellings
use. -/
theorem bounds_of_mem {byte : UInt8} {char : Char} (inside : byte ∈ String.utf8EncodeChar char) :
    (byte.toNat = char.val.toNat ∧ byte.toNat < 0x80) ∨
      (0x80 ≤ byte.toNat ∧ byte.toNat < 0xC0) ∨ 0xC2 ≤ byte.toNat ∧ byte.toNat < 0xF5 := by
  have bounded := toNat_lt char
  have number {value : Nat} (small : value < 256) : (UInt8.ofNat value).toNat = value :=
    UInt8.toNat_ofNat_of_lt' small
  rw [String.utf8EncodeChar] at inside
  split at inside
  · rw [List.mem_singleton] at inside
    rw [inside, number (by omega)]
    omega
  split at inside
  · simp only [List.mem_cons, List.not_mem_nil, or_false] at inside
    rcases inside with rfl | rfl <;> rw [number (by omega)] <;> omega
  split at inside
  · simp only [List.mem_cons, List.not_mem_nil, or_false] at inside
    rcases inside with rfl | rfl | rfl <;> rw [number (by omega)] <;> omega
  · simp only [List.mem_cons, List.not_mem_nil, or_false] at inside
    rcases inside with rfl | rfl | rfl | rfl <;> rw [number (by omega)] <;> omega

/-! ## Showing -/

/-! ### Leading bytes -/

theorem begin_two : ∀ high < 32, 2 ≤ high →
    begin? (high + 0xC0) = some { value := high } := by
  decide

theorem begin_three : ∀ high < 16, begin? (high + 0xE0) = some {
    value := high
    behind := 1
    least := if high = 0 then 0xA0 else 0x80
    greatest := if high = 13 then 0x9F else 0xBF } := by
  decide

theorem begin_four : ∀ high < 5, begin? (high + 0xF0) = some {
    value := high
    behind := 2
    least := if high = 0 then 0x90 else 0x80
    greatest := if high = 4 then 0x8F else 0xBF } := by
  decide

/-! ### Characters -/

variable {begun : Begun} (rest : Bytes)

theorem shown_of_begin {lead : Nat} (leading : 0xC2 ≤ lead ∧ lead < 0xF5)
    (found : begin? lead = some begun) :
    shown none (UInt8.ofNat lead :: rest) = shown (some begun) rest := by
  have number : (UInt8.ofNat lead).toNat = lead :=
    UInt8.toNat_ofNat_of_lt' (Nat.lt_trans leading.2 (by decide))
  rw [shown, first, number, if_neg (by omega), found]
  rfl

/-- A byte within its bounds brings the number of its character six bits further. -/
theorem shown_of_within {bits : Nat} (small : bits < 64) (least : begun.least ≤ bits + 128)
    (greatest : bits + 128 ≤ begun.greatest) :
    shown (some begun) (UInt8.ofNat (bits + 128) :: rest) =
      match begun.behind with
      | 0 => Char.ofNat (begun.value * 64 + bits) :: shown none rest
      | behind + 1 => shown (some { value := begun.value * 64 + bits, behind }) rest := by
  have number : (UInt8.ofNat (bits + 128)).toNat = bits + 128 :=
    UInt8.toNat_ofNat_of_lt' (by simp only [UInt8.size]; omega)
  have low : (bits + 128) % 64 = bits := by omega
  rw [shown, Begun.next, number, if_pos ⟨least, greatest⟩, low]
  cases begun.behind <;> rfl

/-- The ordinary case: the byte may carry any six bits. -/
theorem shown_of_following {value behind bits : Nat} (small : bits < 64) :
    shown (some { value, behind }) (UInt8.ofNat (bits + 128) :: rest) =
      match behind with
      | 0 => Char.ofNat (value * 64 + bits) :: shown none rest
      | behind + 1 => shown (some { value := value * 64 + bits, behind }) rest :=
  shown_of_within rest small (Nat.le_add_left _ _) (Nat.add_le_add_right (by omega) 128)

theorem shown_char (char : Char) :
    shown none (String.utf8EncodeChar char ++ rest) = char :: shown none rest := by
  have back : Char.ofNat char.val.toNat = char := Char.ofNat_toNat char
  have bounded := toNat_lt char
  have surrogate : char.val.toNat < 0xD800 ∨ 0xDFFF < char.val.toNat := by
    rcases char.valid with low | ⟨high, _⟩
    · exact .inl low
    · exact .inr high
  rw [String.utf8EncodeChar]
  generalize char.val.toNat = value at *
  split
  · have number : (UInt8.ofNat value).toNat = value :=
      UInt8.toNat_ofNat_of_lt' (by simp only [UInt8.size]; omega)
    rw [List.singleton_append, shown, first, number, if_pos (by omega), back]
    rfl
  split
  · have two : value / 64 % 32 = value / 64 := by omega
    have whole : value / 64 * 64 + value % 64 = value := by omega
    simp only [List.cons_append, List.nil_append, two]
    rw [shown_of_begin _ (by omega) (begin_two _ (by omega) (by omega)),
      shown_of_following _ (by omega), whole, back]
  split
  · have three : value / 4096 % 16 = value / 4096 := by omega
    have whole : (value / 4096 * 64 + value / 64 % 64) * 64 + value % 64 = value := by omega
    simp only [List.cons_append, List.nil_append, three]
    rw [shown_of_begin _ (by omega) (begin_three _ (by omega)), shown_of_within _ (by omega)
      (by dsimp only; split <;> omega) (by dsimp only; split <;> omega)]
    dsimp only
    rw [shown_of_following _ (by omega), whole, back]
  · have four : value / 262144 % 8 = value / 262144 := by omega
    have whole : ((value / 262144 * 64 + value / 4096 % 64) * 64 + value / 64 % 64) * 64 +
        value % 64 = value := by omega
    simp only [List.cons_append, List.nil_append, four]
    rw [shown_of_begin _ (by omega) (begin_four _ (by omega)), shown_of_within _ (by omega)
      (by dsimp only; split <;> omega) (by dsimp only; split <;> omega)]
    dsimp only
    rw [shown_of_following _ (by omega)]
    dsimp only
    rw [shown_of_following _ (by omega), whole, back]

end Utf8

/-- **A text is shown as it is.** -/
theorem shownText_utf8 (text : String) : shownText (utf8 text) = text := by
  have kept (chars : List Char) : Utf8.shown none (Utf8.spell chars) = chars := by
    induction chars with
    | nil => rfl
    | cons char rest ih => rw [Utf8.spell_cons, Utf8.shown_char, ih]
  rw [shownText, utf8_eq_spell, kept, String.ofList_toList]

end Overlay
