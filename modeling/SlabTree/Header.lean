import SlabTree.Bytes
import SlabTree.Side
import SlabTree.Slot

/-!
# Node headers

A node is a buffer whose first sixteen bytes are its header: the links to its
parent, its left child and its right child, and its cached height, four
little-endian bytes each.  The rest is the payload.  A program that stores the fields in
the byte order of its machine has the same bytes where that order is little-endian;
elsewhere the bytes of a field are the other way round, and the fields are the same.

Every field has its own place in the buffer, so a write to one of them is seen
by no other.
-/

namespace SlabTree

/-- The links of a node. -/
inductive Link
  | parent
  | left
  | right
  deriving DecidableEq, Repr

/-- The link to the child on a side. -/
def Side.link : Side → Link
  | .left => .left
  | .right => .right

/-- The place of a link in a node. -/
def Link.offset : Link → Nat
  | .parent => 0
  | .left => 4
  | .right => 8

/-- The links of a node and its cached height, which is zero for a leaf. -/
structure Header where
  parent : Option Slot
  left : Option Slot
  right : Option Slot
  height : Int
  deriving DecidableEq, Repr

namespace Header

/-- The number of bytes that a header takes. -/
def size : Nat := 16

/-- The place of the cached height in a node. -/
def heightOffset : Nat := 12

/-- The number of bytes of each field. -/
def fieldSize : Nat := 4

/-- The header of a leaf below `parent`. -/
def leaf (parent : Option Slot) : Header where
  parent := parent
  left := none
  right := none
  height := 0

/-- A link of a header. -/
def link (header : Header) : Link → Option Slot
  | .parent => header.parent
  | .left => header.left
  | .right => header.right

/-- The child on a side. -/
def child (header : Header) (side : Side) : Option Slot :=
  header.link side.link

/-! ## Fields as bytes -/

/-- The bytes of a link. -/
def encodeLink (target : Option Slot) : Bytes :=
  LittleEndian.encode (Slot.toWord target)

/-- The link that four bytes stand for. -/
def decodeLink (bytes : Bytes) : Option Slot :=
  Slot.ofWord (LittleEndian.decode bytes)

/-- The bytes of a height, in two's complement. -/
def encodeHeight (height : Int) : Bytes :=
  LittleEndian.encode (height % 0x100000000).toNat

/-- The height that four bytes stand for, in two's complement. -/
def decodeHeight (bytes : Bytes) : Int :=
  let word := LittleEndian.decode bytes
  if word < 0x80000000 then (word : Int) else (word : Int) - 0x100000000

/-- A header as bytes. -/
def encode (header : Header) : Bytes :=
  encodeLink header.parent ++ encodeLink header.left ++ encodeLink header.right ++
    encodeHeight header.height

/-- The four bytes of the field at `offset`. -/
def field (bytes : Bytes) (offset : Nat) : Bytes :=
  (bytes.drop offset).take fieldSize

/-- The header that a node starts with. -/
def ofBytes (bytes : Bytes) : Header where
  parent := decodeLink (field bytes Link.parent.offset)
  left := decodeLink (field bytes Link.left.offset)
  right := decodeLink (field bytes Link.right.offset)
  height := decodeHeight (field bytes heightOffset)

/-- The header of a buffer that is long enough to have one. -/
def decode? (bytes : Bytes) : Option Header :=
  if size ≤ bytes.length then some (ofBytes bytes) else none

@[simp]
theorem length_encodeLink (target : Option Slot) : (encodeLink target).length = fieldSize :=
  rfl

@[simp]
theorem length_encodeHeight (height : Int) : (encodeHeight height).length = fieldSize :=
  rfl

@[simp]
theorem length_encode (header : Header) : header.encode.length = size :=
  rfl

/-- A link reads back unless its slot number is the word for "no slot". -/
theorem decodeLink_encodeLink {target : Option Slot}
    (usable : ∀ slot, target = some slot → slot < Slot.nil) :
    decodeLink (encodeLink target) = target := by
  cases target with
  | none => rfl
  | some slot =>
      have below : slot < Slot.nil := usable slot rfl
      have fits : slot < 0x100000000 := Nat.lt_trans below (by decide)
      simp only [decodeLink, encodeLink, Slot.toWord, LittleEndian.decode_encode fits]
      exact Slot.ofWord_toWord_some (Nat.ne_of_lt below)

/-- A height of 32 bits reads back. -/
theorem decodeHeight_encodeHeight {height : Int}
    (lower : -0x80000000 ≤ height) (upper : height < 0x80000000) :
    decodeHeight (encodeHeight height) = height := by
  have fits : (height % 0x100000000).toNat < 0x100000000 := by omega
  simp only [decodeHeight, encodeHeight, LittleEndian.decode_encode fits]
  split <;> omega

end Header

/-! ## Writing into a node -/

namespace Node

/-- The node with its header replaced. -/
def setHeader? (node : Bytes) (header : Header) : Option Bytes :=
  node.overwrite? 0 header.encode

/-- The node with one link replaced. -/
def setLink? (node : Bytes) (link : Link) (target : Option Slot) : Option Bytes :=
  node.overwrite? link.offset (Header.encodeLink target)

/-- The node with its cached height replaced. -/
def setHeight? (node : Bytes) (height : Int) : Option Bytes :=
  node.overwrite? Header.heightOffset (Header.encodeHeight height)

/-- The node with the leading bytes of its payload replaced. -/
def setPayload? (node : Bytes) (data : Bytes) : Option Bytes :=
  node.overwrite? Header.size data

/-- The payload of a node. -/
def payload? (node : Bytes) : Option Bytes :=
  node.range? Header.size node.length

end Node

end SlabTree
