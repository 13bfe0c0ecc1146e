import SlabTree.Bytes

/-!
# Key orders

An order compares a probe, which the caller brings, with the payload of a stored
record.  Nothing is asked of it but an answer: it need not be transitive, nor
antisymmetric, nor give the same answer when it is asked again.  What a tree
promises about its shape holds all the same; what it promises about finding
records needs an order that deserves the name.
-/

namespace SlabTree

/-- A way to compare a probe with a stored payload. -/
structure KeyOrder where
  /-- How the probe stands to the payload, when the operation has asked for so many
  comparisons before. -/
  compare : Nat → Bytes → Bytes → Ordering
  /-- The number of leading bytes that both must have. -/
  reads : Nat := 0

namespace KeyOrder

/-- A first comparison, where both sides are long enough for it. -/
def compare? (order : KeyOrder) (probe stored : Bytes) : Option Ordering :=
  if order.reads ≤ probe.length ∧ order.reads ≤ stored.length then
    some (order.compare 0 probe stored)
  else
    none

/-- The order of the first `keySize` bytes, from left to right. -/
def leading (keySize : Nat) : KeyOrder where
  compare _ probe stored := Ord.compare (probe.take keySize) (stored.take keySize)
  reads := keySize

/-! ## Orders on other parts of a record -/

/-- Byte `i`, or zero past the end. -/
def byteAt (bytes : Bytes) (i : Nat) : Nat :=
  (bytes[i]?.getD 0).toNat

/-- Compares all bytes from left to right; a proper prefix is less. -/
def whole : KeyOrder where
  compare _ probe stored := Ord.compare probe stored

/-- The reverse of an order. -/
def reverse (order : KeyOrder) : KeyOrder where
  compare asked probe stored := (order.compare asked probe stored).swap
  reads := order.reads

/-- Compares by a number read off each side. -/
def byNumber (number : Bytes → Int) : KeyOrder where
  compare _ probe stored := Ord.compare (number probe) (number stored)

/-- Compares the little-endian word in bytes 4 to 8, the larger first. -/
def tailDescending : KeyOrder :=
  reverse <| byNumber fun bytes =>
    LittleEndian.decode ((List.range 4).map fun i => bytes[4 + i]?.getD 0)

/-- Compares the first byte as a signed number. -/
def signedByte : KeyOrder :=
  byNumber fun bytes => Int.bmod (byteAt bytes 0) 256

/-- Compares the number of one bits in the first byte. -/
def bitCount : KeyOrder :=
  byNumber fun bytes => (List.range 8).countP (byteAt bytes 0).testBit

/-- A byte with a capital ASCII letter made small. -/
def lowerByte (byte : UInt8) : UInt8 :=
  if 65 ≤ byte ∧ byte ≤ 90 then byte + 32 else byte

/-- Compares without regard to case as far as both sides go. -/
def caseless : KeyOrder where
  compare _ probe stored :=
    let common := min probe.length stored.length
    Ord.compare ((probe.take common).map lowerByte) ((stored.take common).map lowerByte)

/-- Compares the last decimal digit of the first byte. -/
def lastDigit : KeyOrder :=
  byNumber fun bytes => byteAt bytes 0 % 10

/-- Compares first bytes around a circle of three: each is below the next. -/
def circular : KeyOrder where
  compare _ probe stored :=
    match ((byteAt probe 0 : Int) - byteAt stored 0) % 3 with
    | 0 => .eq
    | 1 => .gt
    | _ => .lt

/-- Always gives the same answer. -/
def constant (outcome : Ordering) : KeyOrder where
  compare _ _ _ := outcome

/-- The order of a given name over keys of `keySize` bytes. -/
def named? (keySize : Nat) : String → Option KeyOrder
  | "bytes" => some (leading keySize)
  | "full" => some whole
  | "full_rev" => some whole.reverse
  | "tail_le_desc" => some tailDescending
  | "signed" => some signedByte
  | "popcount" => some bitCount
  | "nocase" => some caseless
  | "mod10" => some lastDigit
  | "cyclic3" => some circular
  | "less" => some (constant .lt)
  | "equal" => some (constant .eq)
  | "greater" => some (constant .gt)
  | _ => none

end KeyOrder

end SlabTree
