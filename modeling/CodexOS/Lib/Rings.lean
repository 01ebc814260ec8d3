import Mathlib.Logic.Function.Basic

/-! # The rings of a split virtqueue

The driver publishes heads of descriptor chains in one ring, the device returns
them with a length in the other. Both rings are addressed by free-running 16-bit
indices.
-/

/-- What the device says about a chain it has finished. -/
structure UsedElement where
  id : UInt32
  length : UInt32
  deriving DecidableEq

/-- The memory both parties see. -/
structure Rings where
  available : Nat → UInt16
  availableIndex : UInt16
  used : Nat → UsedElement
  usedIndex : UInt16

namespace Rings

/-- A queue in zeroed memory. -/
def empty : Rings where
  available := fun _ => 0
  availableIndex := 0
  used := fun _ => { id := 0, length := 0 }
  usedIndex := 0

/-- The slot of an index in a ring of `size` entries. -/
def slot (size index : UInt16) : Nat :=
  (index % size).toNat

/-- The driver's side: a head goes into the slot of `index`, and the index moves on. -/
def publish (rings : Rings) (size index head : UInt16) : Rings :=
  { rings with
    available := Function.update rings.available (slot size index) head
    availableIndex := index + 1 }

/-- The device's side: the next used element. -/
def complete (rings : Rings) (size : UInt16) (element : UsedElement) : Rings :=
  { rings with
    used := Function.update rings.used (slot size rings.usedIndex) element
    usedIndex := rings.usedIndex + 1 }

variable {rings : Rings} {size index : UInt16} {element : UsedElement}

theorem used_complete :
    (rings.complete size element).used (slot size rings.usedIndex) = element :=
  Function.update_self _ _ _

theorem available_publish_zero (zero : ∀ slot, rings.available slot = 0) (place : Nat) :
    (rings.publish size index 0).available place = 0 := by
  unfold publish
  by_cases same : place = slot size index
  · subst same
    exact Function.update_self _ _ _
  · exact (Function.update_of_ne same _ _).trans (zero place)

theorem add_one_ne (index : UInt16) : index + 1 ≠ index := by
  intro same
  have zero : (1 : UInt16) = 0 := by
    calc (1 : UInt16) = index + 1 - index := by grind
      _ = index - index := by rw [same]
      _ = 0 := by grind
  exact absurd zero (by decide)

end Rings
