import Overlay.Settings
import Overlay.Toml.Item

/-!
# Settings from a described table

A group of settings is a table whose keys name them, or an array that lists them
in their order.  What is left out keeps its value; keys and elements that mean
nothing are passed over; a value of the wrong type or out of range is refused.
-/

set_option autoImplicit false

namespace Overlay

namespace Toml

/-- The fields of a group: by name, or by place. -/
inductive Fields where
  | named (table : Table)
  | listed (items : List Item)

namespace Fields

/-- The fields that an item gives.  A moment counts as a group without any of them. -/
def ofItem? : Item → Option Fields
  | .table _ table => some (.named table)
  | .array items => some (.listed items)
  | .tables elements => some (.listed (elements.map (Item.table .header)))
  | .moment _ => some (.named [])
  | _ => none

/-- The item at a place or under a name. -/
def item? (place : Nat) (name : String) : Fields → Option Item
  | .named table => table.lookup name
  | .listed items => items[place]?

/-- A field that must be there. -/
def need {α : Type} (fields : Fields) (place : Nat) (name : String) (decode : Item → Option α) :
    Option α :=
  (fields.item? place name).bind decode

/-- A field that has a value when it is left out. -/
def get {α : Type} (fields : Fields) (place : Nat) (name : String) (decode : Item → Option α)
    (fallback : α) : Option α :=
  match fields.item? place name with
  | some item => decode item
  | none => some fallback

end Fields

namespace Item

/-- A text. -/
def text? : Item → Option String
  | .text value => some value
  | _ => none

/-- A truth value. -/
def boolean? : Item → Option Bool
  | .boolean value => some value
  | _ => none

/-- A number from zero on. -/
def natural? : Item → Option Nat
  | .integer value => if 0 ≤ value then some value.toNat else none
  | _ => none

/-- A number of thirty-two bits. -/
def word? (item : Item) : Option UInt32 := do
  let value ← item.natural?
  if value < 4294967296 then some (UInt32.ofNat value) else none

/-- The items of an array, or the tables that headers in double brackets have added. -/
def items? : Item → Option (List Item)
  | .array items => some items
  | .tables elements => some (elements.map (Item.table .header))
  | _ => none

/-- Whether an item holds nothing. -/
def isEmpty : Item → Bool
  | .array items => items.isEmpty
  | .table _ entries => entries.isEmpty
  | .tables elements => elements.isEmpty
  | _ => false

/-- A name by itself, or as the one key of a table whose value holds nothing. -/
def choice? : Item → Option String
  | .text name => some name
  | .table _ ((name, item) :: []) => if item.isEmpty then some name else none
  | _ => none

end Item

end Toml

open Toml

/-- The settings of the link. -/
def LinkSettings.ofItem? (item : Item) : Option LinkSettings := do
  let fields ← Fields.ofItem? item
  let plain : LinkSettings := {}
  return {
    port := ← fields.get 0 "port" (fun item => item.text?.map some) plain.port
    readyTimeout := ← fields.get 1 "ready_timeout_ms" Item.natural? plain.readyTimeout
    phaseTimeout := ← fields.get 2 "phase_timeout_ms" Item.natural? plain.phaseTimeout
    blockSize := ← fields.get 3 "block_size" Item.natural? plain.blockSize
    retries := ← fields.get 4 "retries" Item.word? plain.retries }

/-- The settings of the device. -/
def DeviceSettings.ofItem? (item : Item) : Option DeviceSettings := do
  let fields ← Fields.ofItem? item
  let plain : DeviceSettings := {}
  return {
    maxImageSize :=
      ← fields.get 0 "max_image_size" (fun item => item.word?.map some) plain.maxImageSize
    readyInterval := ← fields.get 1 "ready_interval_ms" Item.natural? plain.readyInterval
    readyTimeout :=
      ← fields.get 2 "ready_timeout_ms" (fun item => item.natural?.map some) plain.readyTimeout
    phaseTimeout := ← fields.get 3 "phase_timeout_ms" Item.natural? plain.phaseTimeout
    requireHeader := ← fields.get 4 "require_header" Item.boolean? plain.requireHeader
    staged := ← fields.get 5 "staged" Item.boolean? plain.staged }

/-- A region that is asked for: its name, kind and size are needed. -/
def RegionRequest.ofItem? (item : Item) : Option RegionRequest := do
  let fields ← Fields.ofItem? item
  return {
    name := ← fields.need 0 "name" Item.text?
    kind := ← fields.need 1 "kind" (fun item => item.choice?.bind RegionKind.ofText?)
    size := ← fields.need 2 "size" Item.word?
    base := ← fields.get 3 "base" (fun item => item.word?.map some) none }

/-- The settings of the memory layout. -/
def LayoutSettings.ofItem? (item : Item) : Option LayoutSettings := do
  let fields ← Fields.ofItem? item
  let plain : LayoutSettings := {}
  return {
    base := ← fields.get 0 "base" Item.word? plain.base
    size := ← fields.get 1 "size" Item.word? plain.size
    safetyGap := ← fields.get 2 "safety_gap" Item.word? plain.safetyGap
    regions :=
      ← fields.get 3 "regions" (fun item => item.items?.bind (·.mapM RegionRequest.ofItem?))
        plain.regions }

/-- The settings that a table describes. -/
def Settings.ofTable? (table : Table) : Option Settings := do
  let fields := Fields.named table
  let plain : Settings := {}
  return {
    link := ← fields.get 0 "link" LinkSettings.ofItem? plain.link
    device := ← fields.get 1 "device" DeviceSettings.ofItem? plain.device
    layout := ← fields.get 2 "layout" LayoutSettings.ofItem? plain.layout }

end Overlay
