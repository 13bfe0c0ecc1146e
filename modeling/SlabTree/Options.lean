import SlabTree.Refusal

/-!
# Tree options

How many records a tree may hold, how long they are, how much of them is the
key, and whether memory is committed at once.
-/

namespace SlabTree

/-- The parameters of a tree. -/
structure Options where
  /-- The largest number of records. -/
  maxNodes : Nat := 1024
  /-- Bytes per record. -/
  nodeSize : Nat := 16
  /-- Leading bytes of a record that are its key. -/
  keySize : Nat := 8
  /-- Commit all memory when the tree is made and keep it. -/
  preallocate : Bool := false
  deriving DecidableEq, Repr

namespace Options

/-- The first rule that the options break, if any.  The bound on the number of
records keeps every slot number below the word for "no slot". -/
def validate (options : Options) : Except Refusal Unit :=
  if options.maxNodes = 0 then
    .error (.config .zeroMaxNodes)
  else if 0xffffffff ≤ options.maxNodes then
    .error (.config .maxNodesTooLarge)
  else if options.nodeSize = 0 then
    .error (.config .zeroNodeSize)
  else if options.keySize = 0 then
    .error (.config .zeroKeySize)
  else if options.nodeSize < options.keySize then
    .error (.config .keyExceedsNode)
  else
    .ok ()

/-- Options are accepted when each of the four rules holds. -/
theorem validate_eq_ok_iff {options : Options} :
    options.validate = .ok () ↔
      0 < options.maxNodes ∧ options.maxNodes < 0xffffffff ∧
        0 < options.keySize ∧ options.keySize ≤ options.nodeSize := by
  unfold validate
  repeat' split
  all_goals
    simp only [reduceCtorEq, false_iff, true_iff]
    omega

/-- Options on one line. -/
def describe (options : Options) : String :=
  s!"TreeOptions \x7b max_nodes: {options.maxNodes}, node_size: {options.nodeSize}, " ++
    s!"key_size: {options.keySize}, preallocate: {options.preallocate} \x7d"

end Options

end SlabTree
