import Overlay.Loader
import Overlay.Proofs.Memory.Ranges
import Overlay.Proofs.Words

/-!
# The conditions for running an image

An image may be run in a code region when it fits, has a header if one is needed, starts
on one of its own bytes behind its header, and asks for a range to clear that lies in the
region and has addresses (`Runnable`).  A loader refuses all other images, each with the
first of these conditions that it does not meet (`Refusal`, `check_cases`).

The conditions are told in natural numbers, although the loader takes sums of addresses in
thirty-two bits: a region that lies within thirty-two bits leaves no sum to wrap unnoticed.
-/

set_option autoImplicit false

namespace Overlay

namespace Loader

variable {σ : Type}

/-! ## Conditions and refusals -/

section Conditions

variable (requireHeader : Bool) (code : Region) (image : Image)

/-- An image that may be run in a code region. -/
structure Runnable : Prop where
  /-- It is no longer than the region. -/
  fits : image.bytes.length ≤ code.size.toNat
  /-- It has a header if it needs one. -/
  headed : requireHeader = true → image.header.isSome = true
  /-- It starts on one of its bytes. -/
  starts : image.entry.toNat < image.bytes.length
  /-- It starts behind its header. -/
  skips : image.header.isSome = true → ImageHeader.length ≤ image.entry.toNat
  /-- The range to clear does not end before it begins. -/
  ordered : image.bss.start.toNat ≤ image.bss.limit.toNat
  /-- The range to clear ends in the region. -/
  clears : image.bss.limit.toNat ≤ code.size.toNat
  /-- The end of the range to clear is an address. -/
  addressed : code.base.toNat + image.bss.limit.toNat < 4294967296

/-- The first condition that an image does not meet, and the exit that it is refused with. -/
inductive Refusal : Exit → Prop where
  | oversized (large : code.size.toNat < image.bytes.length) :
      Refusal (.oversized image.bytes.length code.size)
  | headless (fits : image.bytes.length ≤ code.size.toNat) (needed : requireHeader = true)
      (missing : image.header.isSome = false) : Refusal (.rejected .badMagic)
  | entryOutsideCode (fits : image.bytes.length ≤ code.size.toNat)
      (headed : requireHeader = true → image.header.isSome = true)
      (outside : code.size.toNat ≤ image.entry.toNat) :
      Refusal (.rejected (.entryOutsideCode (code.base + image.entry)))
  | entryOutsideImage (fits : image.bytes.length ≤ code.size.toNat)
      (headed : requireHeader = true → image.header.isSome = true)
      (inside : image.entry.toNat < code.size.toNat)
      (misses : image.bytes.length ≤ image.entry.toNat ∨
        image.header.isSome = true ∧ image.entry.toNat < ImageHeader.length) :
      Refusal (.rejected (.entryOutsideImage image.entry image.bytes.length))
  | bssOutsideCode (fits : image.bytes.length ≤ code.size.toNat)
      (headed : requireHeader = true → image.header.isSome = true)
      (starts : image.entry.toNat < image.bytes.length)
      (skips : image.header.isSome = true → ImageHeader.length ≤ image.entry.toNat)
      (outside : image.bss.limit.toNat < image.bss.start.toNat ∨
        code.size.toNat < image.bss.limit.toNat ∨
          4294967296 ≤ code.base.toNat + image.bss.limit.toNat) :
      Refusal (.rejected
        (.bssOutsideCode (code.base + image.bss.start) (code.base + image.bss.limit)))

variable {requireHeader code image}

theorem Refusal.unrun {exit : Exit} (refusal : Refusal requireHeader code image exit) :
    exit.isReturned = false ∧ exit ≠ .rejected .magicLost := by
  cases refusal with
  | oversized _ | headless _ _ _ | entryOutsideCode _ _ _ | entryOutsideImage _ _ _ _
  | bssOutsideCode _ _ _ _ _ => exact ⟨rfl, nofun⟩

theorem Refusal.not_runnable {exit : Exit} (refusal : Refusal requireHeader code image exit) :
    ¬Runnable requireHeader code image := by
  intro runnable
  have fits := runnable.fits
  have starts := runnable.starts
  cases refusal with
  | oversized large => omega
  | headless _ needed missing =>
      rw [runnable.headed needed] at missing
      cases missing
  | entryOutsideCode _ _ outside => omega
  | entryOutsideImage _ _ _ misses =>
      obtain behind | ⟨headed, early⟩ := misses
      · omega
      · have := runnable.skips headed
        omega
  | bssOutsideCode _ _ _ _ outside =>
      have ordered := runnable.ordered
      have clears := runnable.clears
      have addressed := runnable.addressed
      omega

end Conditions

/-! ## What is checked -/

section Checks

variable {code : Region} (image : Image)

theorem checkEntryAddress_cases (space : code.limit ≤ 4294967296) :
    (checkEntryAddress code image = .ok () ∧ image.entry.toNat < code.size.toNat) ∨
      checkEntryAddress code image =
          .error (.rejected (.entryOutsideCode (code.base + image.entry))) ∧
        code.size.toNat ≤ image.entry.toNat := by
  rw [Region.limit] at space
  rw [checkEntryAddress]
  rcases Word.add?_cases code.base image.entry with ⟨entry, sum, _, value, _⟩ | ⟨none, large⟩
  · rw [sum, Option.any_some]
    have contains : code.contains entry = true ↔ image.entry.toNat < code.size.toNat := by
      rw [Region.contains, Bool.and_eq_true, decide_eq_true_eq, decide_eq_true_eq, Region.limit,
        value]
      omega
    by_cases inside : image.entry.toNat < code.size.toNat
    · exact .inl ⟨if_pos (contains.mpr inside), inside⟩
    · exact .inr ⟨if_neg fun found => inside (contains.mp found), by omega⟩
  · rw [none]
    exact .inr ⟨rfl, by omega⟩

/-- The entry is on the bytes of the image when it is neither behind them nor within the
header. -/
theorem checkEntryOffset_cases :
    (checkEntryOffset image = .ok () ∧ image.entry.toNat < image.bytes.length ∧
        (image.header.isSome = true → ImageHeader.length ≤ image.entry.toNat)) ∨
      checkEntryOffset image =
          .error (.rejected (.entryOutsideImage image.entry image.bytes.length)) ∧
        (image.bytes.length ≤ image.entry.toNat ∨
          image.header.isSome = true ∧ image.entry.toNat < ImageHeader.length) := by
  rw [checkEntryOffset]
  cases image.header.isSome with
  | false =>
      rw [if_neg Bool.false_ne_true]
      split
      · exact .inr ⟨rfl, .inl (by omega)⟩
      · exact .inl ⟨rfl, by omega, nofun⟩
  | true =>
      rw [if_pos rfl]
      split
      · rename_i misses
        exact .inr ⟨rfl, misses.symm.imp_right fun early => ⟨rfl, early⟩⟩
      · exact .inl ⟨rfl, by omega, fun _ => by omega⟩

/-- The range to clear lies in the code region when it is not inverted and ends there, at
an address. -/
theorem checkBss_cases (code : Region) :
    (∃ bss, checkBss code image = .ok bss ∧
        bss.start.toNat = code.base.toNat + image.bss.start.toNat ∧
          bss.limit.toNat = code.base.toNat + image.bss.limit.toNat ∧
            image.bss.start.toNat ≤ image.bss.limit.toNat ∧
              image.bss.limit.toNat ≤ code.size.toNat ∧
                code.base.toNat + image.bss.limit.toNat < 4294967296) ∨
      checkBss code image =
          .error (.rejected
            (.bssOutsideCode (code.base + image.bss.start) (code.base + image.bss.limit))) ∧
        (image.bss.limit.toNat < image.bss.start.toNat ∨
          code.size.toNat < image.bss.limit.toNat ∨
            4294967296 ≤ code.base.toNat + image.bss.limit.toNat) := by
  rw [checkBss]
  rcases Word.add?_cases code.base image.bss.limit with
    ⟨limit, sum', _, last, small⟩ | ⟨none, large⟩
  swap
  · rw [none]
    refine .inr ⟨?_, .inr (.inr large)⟩
    cases Word.add? code.base image.bss.start <;> rfl
  rcases Word.add?_cases code.base image.bss.start with ⟨start, sum, _, first, _⟩ | ⟨none, large⟩
  swap
  · rw [none]
    exact .inr ⟨rfl, .inl (by omega)⟩
  rw [sum, sum']
  dsimp only
  have inside : (start ≤ limit ∧
      code.containsRange? start (limit - start).toUInt64 = some true) ↔
        image.bss.start.toNat ≤ image.bss.limit.toNat ∧
          image.bss.limit.toNat ≤ code.size.toNat := by
    rw [Region.containsRange?_eq_true_iff, UInt32.le_iff_toNat_le, first, last,
      Nat.add_le_add_iff_left]
    refine and_congr_right fun ordered => ?_
    have length : (limit - start).toNat = limit.toNat - start.toNat :=
      UInt32.toNat_sub_of_le _ _ (UInt32.le_iff_toNat_le.mpr (by omega))
    rw [UInt32.toNat_toUInt64, length, Region.Encloses, Region.limit]
    omega
  by_cases lies : image.bss.start.toNat ≤ image.bss.limit.toNat ∧
      image.bss.limit.toNat ≤ code.size.toNat
  · exact .inl ⟨⟨start, limit⟩, if_pos (inside.mpr lies), first, last, lies.1, lies.2, small⟩
  · exact .inr ⟨if_neg fun found => lies (inside.mp found), by omega⟩

variable (loader : Loader σ) {window : Window}

/-- **A loader finds an image runnable, or refuses it with the first condition that it does
not meet.** -/
theorem check_cases (space : window.code.limit ≤ 4294967296) :
    (∃ bss, loader.check window image = .ok bss ∧
        Runnable loader.requireHeader window.code image ∧
          bss.start.toNat = window.code.base.toNat + image.bss.start.toNat ∧
            bss.limit.toNat = window.code.base.toNat + image.bss.limit.toNat) ∨
      ∃ exit, loader.check window image = .error exit ∧
        Refusal loader.requireHeader window.code image exit := by
  rw [check]
  simp only [bind, Except.bind, throw, throwThe, MonadExceptOf.throw]
  by_cases large : window.code.size.toNat < image.bytes.length
  · rw [if_pos large]
    exact .inr ⟨_, rfl, .oversized large⟩
  rw [if_neg large]
  have fits := Nat.le_of_not_lt large
  by_cases bare : loader.requireHeader = true ∧ image.header.isNone = true
  · rw [if_pos bare]
    refine .inr ⟨_, rfl, .headless fits bare.1 ?_⟩
    rw [Option.isNone_iff_eq_none.mp bare.2]
    rfl
  rw [if_neg bare]
  have headed : loader.requireHeader = true → image.header.isSome = true := fun needed => by
    rw [← Option.not_isNone, Bool.not_eq_true']
    exact Bool.eq_false_iff.mpr fun missing => bare ⟨needed, missing⟩
  rcases checkEntryAddress_cases image space with ⟨passes, inside⟩ | ⟨fails, outside⟩
  swap
  · rw [fails]
    exact .inr ⟨_, rfl, .entryOutsideCode fits headed outside⟩
  rw [passes]
  dsimp only
  rcases checkEntryOffset_cases image with ⟨passes, starts, skips⟩ | ⟨fails, misses⟩
  swap
  · rw [fails]
    exact .inr ⟨_, rfl, .entryOutsideImage fits headed inside misses⟩
  rw [passes]
  dsimp only
  rcases checkBss_cases image window.code with
    ⟨bss, passes, first, last, ordered, clears, addressed⟩ | ⟨fails, outside⟩
  · exact .inl ⟨bss, passes, ⟨fits, headed, starts, skips, ordered, clears, addressed⟩, first, last⟩
  · exact .inr ⟨_, fails, .bssOutsideCode fits headed starts skips outside⟩

/-- An image in order is runnable, and its range to clear has the addresses that were found. -/
theorem runnable_of_check {image : Image} {loader : Loader σ} {bss : Span}
    (space : window.code.limit ≤ 4294967296) (passes : loader.check window image = .ok bss) :
    Runnable loader.requireHeader window.code image ∧
      bss.start.toNat = window.code.base.toNat + image.bss.start.toNat ∧
        bss.limit.toNat = window.code.base.toNat + image.bss.limit.toNat := by
  rcases check_cases image loader space with ⟨bss', passes', in_order⟩ | ⟨exit, refuses, _⟩
  · obtain rfl : bss' = bss := Except.ok.inj (passes'.symm.trans passes)
    exact in_order
  · rw [refuses] at passes
    cases passes

end Checks

end Loader

end Overlay
