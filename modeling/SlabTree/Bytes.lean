/-!
# Byte strings

Records, keys and slot contents are lists of bytes.  A buffer never changes its
length: writing replaces a range in place and is refused when the range does
not lie inside the buffer.
-/

namespace SlabTree

/-- A byte string. -/
abbrev Bytes := List UInt8

namespace Bytes

/-- The bytes from `start` up to `stop`, which must lie inside the buffer. -/
def range? (bytes : Bytes) (start stop : Nat) : Option Bytes :=
  if start ≤ stop ∧ stop ≤ bytes.length then
    some ((bytes.drop start).take (stop - start))
  else
    none

/-- The buffer with `data` written over it from `offset` on; the range written
must lie inside the buffer. -/
def overwrite? (bytes : Bytes) (offset : Nat) (data : Bytes) : Option Bytes :=
  if offset + data.length ≤ bytes.length then
    some (bytes.take offset ++ data ++ bytes.drop (offset + data.length))
  else
    none

/-- Overwriting keeps the length of the buffer. -/
theorem length_overwrite? {bytes data result : Bytes} {offset : Nat}
    (written : bytes.overwrite? offset data = some result) :
    result.length = bytes.length := by
  unfold overwrite? at written
  split at written
  · injection written with equal
    subst equal
    simp only [List.length_append, List.length_take, List.length_drop]
    omega
  · contradiction

end Bytes

/-! ## Little-endian words -/

namespace LittleEndian

/-- The four bytes of a number below `2 ^ 32`, least significant first. -/
def encode (n : Nat) : Bytes :=
  [UInt8.ofNat n, UInt8.ofNat (n / 0x100), UInt8.ofNat (n / 0x10000), UInt8.ofNat (n / 0x1000000)]

/-- The number that a byte string spells, least significant byte first. -/
def decode : Bytes → Nat
  | [] => 0
  | byte :: rest => byte.toNat + 0x100 * decode rest

@[simp]
theorem length_encode (n : Nat) : (encode n).length = 4 :=
  rfl

/-- Decoding reads back every number that fits in four bytes. -/
theorem decode_encode {n : Nat} (fits : n < 0x100000000) : decode (encode n) = n := by
  simp only [encode, decode, UInt8.toNat_ofNat']
  omega

/-- Four bytes spell a number below `2 ^ 32`. -/
theorem decode_lt {bytes : Bytes} (four : bytes.length = 4) : decode bytes < 0x100000000 := by
  match bytes, four with
  | [a, b, c, d], _ =>
    simp only [decode]
    have := a.toNat_lt
    have := b.toNat_lt
    have := c.toNat_lt
    have := d.toNat_lt
    omega

/-- Four bytes are the encoding of the number that they spell. -/
theorem encode_decode {bytes : Bytes} (four : bytes.length = 4) :
    encode (decode bytes) = bytes := by
  match bytes, four with
  | [a, b, c, d], _ =>
    have := a.toNat_lt
    have := b.toNat_lt
    have := c.toNat_lt
    have := d.toNat_lt
    simp only [encode, decode, List.cons.injEq, and_true]
    refine ⟨?_, ?_, ?_, ?_⟩ <;> apply UInt8.toNat.inj <;> simp only [UInt8.toNat_ofNat'] <;> omega

end LittleEndian

end SlabTree
