import SlabTree.Tree.Update

/-!
# Workloads

Runs of records with evenly spaced keys, to fill and drain trees with.
-/

namespace SlabTree

namespace Workload

/-- The four bytes of a number below `2 ^ 32`, most significant first. -/
def bigEndian (n : Nat) : Bytes :=
  (LittleEndian.encode n).reverse

/-- The record of a key: its four bytes, most significant first, and then bytes
computed from the key.  A record with less room keeps the last bytes. -/
def record (nodeSize key : Nat) : Bytes :=
  if nodeSize < 4 then
    (bigEndian key).drop (4 - nodeSize)
  else
    bigEndian key ++ (List.range (nodeSize - 4)).map fun j => UInt8.ofNat (key * 31 + (j + 4))

/-- The records of `count` keys from `start` on, `step` apart, modulo `2 ^ 32`. -/
def records (nodeSize : Nat) (start step : Int) (count : Nat) : List Bytes :=
  (List.range count).map fun (i : Nat) =>
    record nodeSize ((start + (i : Int) * step) % 0x100000000).toNat

end Workload

namespace Tree

/-- Inserts records one after the other. -/
def insertAll (order : KeyOrder) (records : List Bytes) :
    Action Tree (List (Except Refusal Unit)) :=
  records.mapM (insert order)

/-- Removes records one after the other, each by its key. -/
def removeAll (order : KeyOrder) (records : List Bytes) :
    Action Tree (List (Except Refusal Unit)) := do
  let keySize ← Action.view (·.options.keySize)
  records.mapM fun record => remove order (record.take keySize)

end Tree

namespace Arena

/-- Allocates `n` slots one after the other. -/
def allocateMany (n : Nat) : Action Arena (List (Except Refusal Slot)) :=
  (List.replicate n ()).mapM fun _ => allocate

/-- Frees `n` slots one after the other. -/
def freeMany (n : Nat) : Action Arena (List (Except Refusal Unit)) :=
  (List.replicate n ()).mapM fun _ => free

end Arena

end SlabTree
