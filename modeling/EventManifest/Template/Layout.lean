import EventManifest.Transfer.Basic

/-!
The slots of an event's descriptor array and the plan of a template. The first slot of the array is
reserved for the provider's metadata and is not listed.
-/

namespace EventManifest

/-- One pointer and size of the descriptor array. -/
structure Slot where
  /-- The position of the property that fills the slot. -/
  property : Nat
  pointer : PointerExpr
  size : SizeExpr
  note : Option PackingNote
deriving DecidableEq, Repr

namespace Transfer

/-- The slots a property fills: its length, if that has a slot, and its data. -/
def slots (t : Transfer) : List Slot :=
  (t.lengthSlot.map fun (pointer, size) => ⟨t.index, pointer, size, none⟩).toList ++
    [⟨t.index, t.dataPointer, t.dataSize, t.packingNote⟩]

end Transfer

/-- The slots of a template in the order of its properties. -/
def layoutOf (transfers : List Transfer) : List Slot :=
  transfers.flatMap Transfer.slots

/-- The length of the descriptor array, the reserved slot included. -/
def totalSlots (slots : List Slot) : Nat :=
  1 + slots.length

/-- The same length, counted over the properties. -/
def expectedSlots (transfers : List Transfer) : Nat :=
  transfers.foldr (fun t n => t.slotCount + n) 1

/-- What is generated for a template. -/
structure TemplatePlan where
  key : String
  parameters : List Parameter
  slots : List Slot
  slotCount : Nat
deriving DecidableEq, Repr

namespace TemplatePlan

def ofTransfers (key : String) (transfers : List Transfer) : TemplatePlan where
  key := key
  parameters := transfers.flatMap Transfer.parameters
  slots := layoutOf transfers
  slotCount := totalSlots (layoutOf transfers)

def ofProperties (key : String) (properties : List Property) : Except Defect TemplatePlan := do
  return ofTransfers key (← Transfer.ofProperties properties)

end TemplatePlan

end EventManifest
