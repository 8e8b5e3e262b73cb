import Overlay.Proofs.Loader.Conditions
import Overlay.Proofs.Memory.Outside

/-!
# Loads keep to the code region

Up to the moment at which a load hands over control it changes no byte outside the code
region, and it changes nothing afterwards.  An image that is refused leaves the whole
device as it was, unless it was refused for its magic (`loadBytes_confined`,
`runInPlace_confined`).  This holds of memory of any extent.
-/

set_option autoImplicit false

namespace Overlay.Loader

variable {σ : Type}

/-- How a load ends that keeps to a code region. -/
inductive Confined (loader : Loader σ) (code : Region) (device : Device σ) :
    Except Fault Exit × Device σ → Prop where
  /-- Nothing is run.  Memory may have changed in the code region, but not if the image
  was refused with its magic in place. -/
  | unrun {result : Except Fault Exit} {memory : DeviceMemory}
      (agrees : AgreesOutside code device.memory memory)
      (kept : ∀ exit, result = .ok exit → exit ≠ .rejected .magicLost → memory = device.memory) :
      Confined loader code device (result, { device with memory })
  /-- Control is handed over, and what then happens to memory is up to the board. -/
  | run {context : Context} {memory : DeviceMemory}
      (agrees : AgreesOutside code device.memory memory) :
      Confined loader code device (loader.jump { device with memory } context)

section Confinement

variable {loader : Loader σ} {window : Window} {device : Device σ} {image : Image} {bss : Span}
variable {stood : DeviceMemory}

theorem Confined.unchanged (result : Except Fault Exit) :
    Confined loader window.code device (result, device) :=
  .unrun (.refl _ _) fun _ _ _ => rfl

/-- An image is run behind changes of the code region, with its range in that region. -/
theorem launch_confined (agrees : AgreesOutside window.code device.memory stood)
    (runnable : Runnable loader.requireHeader window.code image)
    (first : bss.start.toNat = window.code.base.toNat + image.bss.start.toNat)
    (last : bss.limit.toNat = window.code.base.toNat + image.bss.limit.toNat) :
    Confined loader window.code device
      (loader.launch window { device with memory := stood } image bss) := by
  rw [launch]
  split
  · exact .unrun agrees nofun
  · rename_i memory filled
    have ordered := runnable.ordered
    have clears := runnable.clears
    have cleared : AgreesOutside window.code stood memory := by
      apply AgreesOutside.of_fill filled
      · omega
      · rw [Span.length, Region.limit]
        omega
    dsimp only
    split
    · exact .unrun (agrees.trans cleared) nofun
    · refine .unrun (agrees.trans cleared) fun exit same lost => ?_
      exact absurd (Except.ok.inj same).symm lost
    · exact .run (agrees.trans cleared)

/-- **A load from bytes keeps to the code region.** -/
theorem loadBytes_confined (space : window.code.limit ≤ 4294967296) (bytes : Bytes) :
    Confined loader window.code device (loader.loadBytes window device bytes) := by
  rw [loadBytes]
  split
  · exact .unchanged _
  rename_i image _
  rw [loadAndRun]
  rcases check_cases image loader space with
    ⟨bss, passes, runnable, first, last⟩ | ⟨exit, refuses, _⟩
  · rw [passes]
    dsimp only
    split
    · exact .unchanged _
    · rename_i stood written
      have fits := runnable.fits
      refine launch_confined (.of_write written (Nat.le_refl _) ?_) runnable first last
      rw [Region.limit]
      omega
  · rw [refuses]
    exact .unchanged _

/-- **A run in place keeps to the code region.** -/
theorem runInPlace_confined (space : window.code.limit ≤ 4294967296) (length : Nat) :
    Confined loader window.code device (loader.runInPlace window device length) := by
  rw [runInPlace]
  split
  · exact .unchanged _
  split
  · exact .unchanged _
  split
  · exact .unchanged _
  rename_i image _
  rcases check_cases image loader space with
    ⟨bss, passes, runnable, first, last⟩ | ⟨exit, refuses, _⟩
  · rw [passes]
    exact launch_confined (.refl _ _) runnable first last
  · rw [refuses]
    exact .unchanged _

end Confinement

end Overlay.Loader
