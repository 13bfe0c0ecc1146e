/-!
# Slot numbers

Slots are numbered from zero.  A stored link is one 32-bit word: a slot number,
or the largest word, which stands for "no slot" and is therefore no slot's
number.
-/

namespace SlabTree

/-- The number of a slot in an arena; meaningful while the slot is live. -/
abbrev Slot := Nat

namespace Slot

/-- The word that stands for the absence of a slot. -/
def nil : Nat := 0xffffffff

/-- The word stored for a link. -/
def toWord : Option Slot → Nat
  | none => Slot.nil
  | some slot => slot

/-- The link that a stored word stands for. -/
def ofWord (word : Nat) : Option Slot :=
  if word = Slot.nil then none else some word

/-- Every link but the reserved number survives being stored. -/
theorem ofWord_toWord_some {slot : Slot} (usable : slot ≠ Slot.nil) :
    ofWord (toWord (some slot)) = some slot := by
  simp [ofWord, toWord, usable]

@[simp]
theorem toWord_ofWord (word : Nat) : toWord (ofWord word) = word := by
  unfold ofWord
  split
  · next reserved => exact reserved.symm
  · rfl

/-- How reports write a link. -/
def describe : Option Slot → String
  | none => "None"
  | some slot => s!"Some(SlotId({slot}))"

end Slot

end SlabTree
