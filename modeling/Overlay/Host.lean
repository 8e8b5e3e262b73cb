import Overlay.Fault
import Overlay.Link.Party
import Overlay.Path

/-!
# Hosts

A host is what the commands reach the outside through: files, the standard
streams, and links to devices.  The clock of a conversation starts at zero.
-/

set_option autoImplicit false

namespace Overlay

/-- What the commands can do to the outside. -/
structure Host (m : Type → Type) where
  read : Path → m (Except IoError Bytes)
  write : Path → Bytes → m (Except IoError Unit)
  /-- The names of the files directly in a directory, in order. -/
  list : Path → m (Except IoError (List String))
  print : String → m Unit
  /-- Let a party talk over the standard streams. -/
  overStandard {σ ρ : Type} : Party σ ρ → σ → m ρ
  /-- Let a party talk over a device file. -/
  overSerial {σ ρ : Type} : Path → Party σ ρ → σ → m (Except IoError ρ)
  /-- Let a party talk over a connection to an address. -/
  overNetwork {σ ρ : Type} : String → Party σ ρ → σ → m (Except IoError ρ)
  /-- Let a party talk to another one. -/
  joined {σ ρ σ' ρ' : Type} : Party σ ρ → σ → Party σ' ρ' → σ' → m ρ

end Overlay
