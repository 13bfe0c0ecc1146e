import SlabTree.Header

/-!
# Headers, field by field

A header is its three links and its height.  Changing one of them leaves the
others alone, and what is read of a header that was written in place is what
was written as long as it fits its four bytes.
-/

namespace SlabTree

namespace Side

@[simp]
theorem flip_ne (side : Side) : side.flip ≠ side := by
  cases side <;> decide

@[simp]
theorem ne_flip (side : Side) : side ≠ side.flip :=
  Ne.symm (flip_ne side)

theorem eq_or_eq_flip (side other : Side) : other = side ∨ other = side.flip := by
  cases side <;> cases other <;> decide

@[simp]
theorem link_ne_parent (side : Side) : side.link ≠ .parent := by
  cases side <;> decide

theorem link_injective {side other : Side} (same : side.link = other.link) : side = other := by
  cases side <;> cases other <;> simp_all [Side.link]

end Side

namespace Slot

/-- A link is storable unless it is the number of no slot. -/
def Storable (target : Option Slot) : Prop :=
  ∀ slot, target = some slot → slot < Slot.nil

theorem storable_none : Storable none := by
  intro slot absent
  contradiction

theorem storable_some {slot : Slot} (below : slot < Slot.nil) : Storable (some slot) := by
  intro other same
  cases same
  exact below

end Slot

namespace Header

/-- The header with one link replaced. -/
def withLink (header : Header) (link : Link) (target : Option Slot) : Header :=
  match link with
  | .parent => { header with parent := target }
  | .left => { header with left := target }
  | .right => { header with right := target }

/-- The header with its height replaced. -/
def withHeight (header : Header) (height : Int) : Header :=
  { header with height := height }

/-- A header is its links and its height. -/
theorem eq_of_links {first second : Header} (links : ∀ link, first.link link = second.link link)
    (height : first.height = second.height) : first = second := by
  have parent : first.parent = second.parent := links .parent
  have left : first.left = second.left := links .left
  have right : first.right = second.right := links .right
  cases first
  cases second
  simp_all

theorem link_withLink (header : Header) (link other : Link) (target : Option Slot) :
    (header.withLink link target).link other =
      if other = link then target else header.link other := by
  cases link <;> cases other <;> rfl

@[simp]
theorem link_parent (header : Header) : header.link .parent = header.parent :=
  rfl

@[simp]
theorem height_withLink (header : Header) (link : Link) (target : Option Slot) :
    (header.withLink link target).height = header.height := by
  cases link <;> rfl

@[simp]
theorem height_withHeight (header : Header) (height : Int) :
    (header.withHeight height).height = height :=
  rfl

@[simp]
theorem link_withHeight (header : Header) (height : Int) (link : Link) :
    (header.withHeight height).link link = header.link link := by
  cases link <;> rfl

/-! ## Headers as bytes -/

theorem link_ofBytes (bytes : Bytes) (link : Link) :
    (ofBytes bytes).link link = decodeLink (field bytes link.offset) := by
  cases link <;> rfl

theorem height_ofBytes (bytes : Bytes) :
    (ofBytes bytes).height = decodeHeight (field bytes heightOffset) :=
  rfl

theorem field_encode_link (header : Header) (link : Link) :
    field header.encode link.offset = encodeLink (header.link link) := by
  cases link <;> simp [field, encode, encodeLink, encodeHeight, LittleEndian.encode, Link.offset,
    Header.link, fieldSize]

theorem field_encode_height (header : Header) :
    field header.encode heightOffset = encodeHeight header.height := by
  simp [field, encode, encodeLink, encodeHeight, LittleEndian.encode, heightOffset, fieldSize]

/-- A header reads back as it was written when its fields fit. -/
theorem ofBytes_encode {header : Header} (links : ∀ link, Slot.Storable (header.link link))
    (lower : -0x80000000 ≤ header.height) (upper : header.height < 0x80000000) :
    ofBytes header.encode = header := by
  apply eq_of_links
  · intro link
    rw [link_ofBytes, field_encode_link]
    exact decodeLink_encodeLink (links link)
  · rw [height_ofBytes, field_encode_height]
    exact decodeHeight_encodeHeight lower upper

/-- A stored link is never the reserved number. -/
theorem storable_decodeLink {bytes : Bytes} (four : bytes.length = 4) :
    Slot.Storable (decodeLink bytes) := by
  intro slot stored
  unfold decodeLink Slot.ofWord at stored
  split at stored
  · contradiction
  next used =>
    cases stored
    have bounded := LittleEndian.decode_lt four
    unfold Slot.nil at *
    lia

end Header

end SlabTree
