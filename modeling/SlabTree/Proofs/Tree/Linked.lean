import SlabTree.Proofs.Tree.Context

/-!
# Headers that spell out a shape

Headers spell out a shape when each slot of it links to the tops of its two sides
and back to the slot above.  Whether they do depends on the links of the shape's own
slots alone, so changes elsewhere do not matter; and a shape in a hole can be
exchanged by repointing one link of the context.
-/

namespace SlabTree

variable {headers other : Slot → Header} {parent : Option Slot} {shape near far : Shape}
  {slot : Slot} {side : Side}

/-- The links spell out a shape that hangs from `parent`. -/
def Linked (headers : Slot → Header) : Option Slot → Shape → Prop
  | _, .leaf => True
  | parent, .node left slot right =>
      (headers slot).parent = parent ∧ (headers slot).left = left.root? ∧
        (headers slot).right = right.root? ∧ Linked headers (some slot) left ∧
          Linked headers (some slot) right

/-- Every cached height is the height above the leaves. -/
def Measured (headers : Slot → Header) : Shape → Prop
  | .leaf => True
  | .node left slot right =>
      (headers slot).height = (max left.height right.height : Nat) ∧
        Measured headers left ∧ Measured headers right

/-- The cached heights on both sides of the top are heights above the leaves; the
one at the top may be anything. -/
def SidesMeasured (headers : Slot → Header) : Shape → Prop
  | .leaf => True
  | .node left _ right => Measured headers left ∧ Measured headers right

theorem linked_join :
    Linked headers parent (near.join side slot far) ↔
      (headers slot).parent = parent ∧ (headers slot).child side = near.root? ∧
        (headers slot).child side.flip = far.root? ∧ Linked headers (some slot) near ∧
          Linked headers (some slot) far := by
  cases side
  · rfl
  · constructor
    · rintro ⟨up, first, second, onFar, onNear⟩
      exact ⟨up, second, first, onNear, onFar⟩
    · rintro ⟨up, first, second, onNear, onFar⟩
      exact ⟨up, second, first, onFar, onNear⟩

theorem measured_join :
    Measured headers (near.join side slot far) ↔
      (headers slot).height = (max near.height far.height : Nat) ∧ Measured headers near ∧
        Measured headers far := by
  cases side
  · rfl
  · constructor
    · rintro ⟨height, onFar, onNear⟩
      exact ⟨by rw [height, Nat.max_comm], onNear, onFar⟩
    · rintro ⟨height, onNear, onFar⟩
      exact ⟨by rw [height, Nat.max_comm], onFar, onNear⟩

theorem sidesMeasured_join :
    SidesMeasured headers (near.join side slot far) ↔
      Measured headers near ∧ Measured headers far := by
  cases side
  · rfl
  · exact and_comm

theorem Linked.parent_of_root? (linked : Linked headers parent shape)
    (top : shape.root? = some slot) : (headers slot).parent = parent := by
  cases shape with
  | leaf => contradiction
  | node left middle right =>
      cases top
      exact linked.1

/-- Links to children stay within the shape. -/
theorem Linked.child_mem {child : Slot} (linked : Linked headers parent shape)
    (member : slot ∈ shape.slots) (leads : (headers slot).child side = some child) :
    child ∈ shape.slots := by
  induction shape generalizing parent with
  | leaf => contradiction
  | node left middle right onLeft onRight =>
      obtain ⟨_, toLeft, toRight, leftLinked, rightLinked⟩ := linked
      rw [Shape.mem_slots_node] at member ⊢
      rcases member with rfl | inLeft | inRight
      · cases side with
        | left => exact Or.inr (Or.inl (Shape.mem_slots_of_root? (toLeft.symm.trans leads)))
        | right => exact Or.inr (Or.inr (Shape.mem_slots_of_root? (toRight.symm.trans leads)))
      · exact Or.inr (Or.inl (onLeft leftLinked inLeft))
      · exact Or.inr (Or.inr (onRight rightLinked inRight))

/-! ## What a shape depends on -/

/-- Links outside the shape do not matter. -/
theorem Linked.congr (linked : Linked headers parent shape)
    (same : ∀ slot ∈ shape.slots, ∀ link, (other slot).link link = (headers slot).link link) :
    Linked other parent shape := by
  induction shape generalizing parent with
  | leaf => trivial
  | node left slot right onLeft onRight =>
      obtain ⟨up, leftLink, rightLink, leftLinked, rightLinked⟩ := linked
      have here := same slot (by simp [Shape.slots])
      refine ⟨(here .parent).trans up, (here .left).trans leftLink,
        (here .right).trans rightLink, onLeft leftLinked ?_, onRight rightLinked ?_⟩
      · exact fun slot member => same slot (by simp [Shape.slots, member])
      · exact fun slot member => same slot (by simp [Shape.slots, member])

/-- Heights outside the shape do not matter. -/
theorem Measured.congr (measured : Measured headers shape)
    (same : ∀ slot ∈ shape.slots, (other slot).height = (headers slot).height) :
    Measured other shape := by
  induction shape with
  | leaf => trivial
  | node left slot right onLeft onRight =>
      obtain ⟨height, leftMeasured, rightMeasured⟩ := measured
      have here := same slot (by simp [Shape.slots])
      refine ⟨here.trans height, onLeft leftMeasured ?_, onRight rightMeasured ?_⟩
      · exact fun slot member => same slot (by simp [Shape.slots, member])
      · exact fun slot member => same slot (by simp [Shape.slots, member])

/-- Heights go along with slots that are renamed. -/
theorem Measured.map {f : Slot → Slot} (measured : Measured headers shape)
    (same : ∀ slot ∈ shape.slots, (other (f slot)).height = (headers slot).height) :
    Measured other (shape.map f) := by
  induction shape with
  | leaf => trivial
  | node left slot right onLeft onRight =>
      obtain ⟨height, leftMeasured, rightMeasured⟩ := measured
      refine ⟨?_, onLeft leftMeasured ?_, onRight rightMeasured ?_⟩
      · rw [same slot (by simp [Shape.slots]), height, Shape.height_map, Shape.height_map]
      · exact fun slot member => same slot (by simp [Shape.slots, member])
      · exact fun slot member => same slot (by simp [Shape.slots, member])

/-- A shape hangs from elsewhere once the slot at its top says so. -/
theorem Linked.rehang {elsewhere : Option Slot} (linked : Linked headers parent shape)
    (nodup : shape.slots.Nodup)
    (links : ∀ slot ∈ shape.slots, ∀ link, (other slot).link link =
      if shape.root? = some slot ∧ link = .parent then elsewhere else (headers slot).link link) :
    Linked other elsewhere shape := by
  cases shape with
  | leaf => trivial
  | node left slot right =>
      obtain ⟨_, leftLink, rightLink, leftLinked, rightLinked⟩ := linked
      obtain ⟨notLeft, notRight, _⟩ :=
        (@Shape.nodup_slots_join .left left right slot).mp nodup
      have here := links slot (by simp [Shape.slots])
      refine ⟨(here .parent).trans (if_pos ⟨rfl, rfl⟩), ?_, ?_, leftLinked.congr ?_,
        rightLinked.congr ?_⟩
      · exact ((here .left).trans (if_neg (by simp))).trans leftLink
      · exact ((here .right).trans (if_neg (by simp))).trans rightLink
      · intro inner member link
        refine (links inner (by simp [Shape.slots, member]) link).trans (if_neg ?_)
        rintro ⟨⟨⟩, _⟩
        exact notLeft member
      · intro inner member link
        refine (links inner (by simp [Shape.slots, member]) link).trans (if_neg ?_)
        rintro ⟨⟨⟩, _⟩
        exact notRight member

/-- The links spell out one shape at most. -/
theorem Linked.unique {second : Shape} (linked : Linked headers parent shape)
    (alsoLinked : Linked headers parent second) (sameTop : shape.root? = second.root?) :
    shape = second := by
  induction shape generalizing parent second with
  | leaf => exact (Shape.root?_eq_none_iff.mp sameTop.symm).symm
  | node left slot right onLeft onRight =>
      cases second with
      | leaf => contradiction
      | node otherLeft otherSlot otherRight =>
          cases sameTop
          obtain ⟨_, leftLink, rightLink, leftLinked, rightLinked⟩ := linked
          obtain ⟨_, otherLeftLink, otherRightLink, otherLeftLinked, otherRightLinked⟩ :=
            alsoLinked
          rw [onLeft leftLinked otherLeftLinked (leftLink.symm.trans otherLeftLink),
            onRight rightLinked otherRightLinked (rightLink.symm.trans otherRightLink)]

/-- What the headers of a shape's slots say is told by the shape. -/
theorem Linked.header_eq (linked : Linked headers parent shape)
    (measured : Measured headers shape) (alsoLinked : Linked other parent shape)
    (alsoMeasured : Measured other shape) (member : slot ∈ shape.slots) :
    headers slot = other slot := by
  induction shape generalizing parent with
  | leaf => contradiction
  | node left top right onLeft onRight =>
      obtain ⟨up, toLeft, toRight, inLeft, inRight⟩ := linked
      obtain ⟨alsoUp, alsoToLeft, alsoToRight, alsoInLeft, alsoInRight⟩ := alsoLinked
      obtain ⟨height, leftMeasured, rightMeasured⟩ := measured
      obtain ⟨alsoHeight, alsoLeftMeasured, alsoRightMeasured⟩ := alsoMeasured
      rcases Shape.mem_slots_node.mp member with rfl | below | below
      · apply Header.eq_of_links
        · intro link
          cases link with
          | parent => exact up.trans alsoUp.symm
          | left => exact toLeft.trans alsoToLeft.symm
          | right => exact toRight.trans alsoToRight.symm
        · exact height.trans alsoHeight.symm
      · exact onLeft inLeft leftMeasured alsoInLeft alsoLeftMeasured below
      · exact onRight inRight rightMeasured alsoInRight alsoRightMeasured below

/-! ## Contexts -/

namespace Context

variable {context rest : Context} {frame : Frame} {hole new : Option Slot}

/-- The links spell out a context with the slot `hole` in its hole. -/
def Linked (headers : Slot → Header) : Context → Option Slot → Prop
  | [], _ => True
  | frame :: rest, hole =>
      (headers frame.slot).parent = parent? rest ∧ (headers frame.slot).child frame.side = hole ∧
        (headers frame.slot).child frame.side.flip = frame.sibling.root? ∧
          SlabTree.Linked headers (some frame.slot) frame.sibling ∧
            Linked headers rest (some frame.slot)

/-- Cached heights beside the way up are heights above the leaves; those on the
way itself may be anything. -/
def Measured (headers : Slot → Header) : Context → Prop
  | [] => True
  | frame :: rest => SlabTree.Measured headers frame.sibling ∧ Measured headers rest

/-- A filled context is linked when the context is and the filling is, with the
filling hanging from the context. -/
theorem linked_fill :
    SlabTree.Linked headers none (fill context shape) ↔
      Linked headers context shape.root? ∧ SlabTree.Linked headers (parent? context) shape := by
  induction context generalizing shape with
  | nil => exact ⟨fun linked => ⟨trivial, linked⟩, And.right⟩
  | cons frame rest inductionHypothesis =>
      have top : (frame.fill shape).root? = some frame.slot := Shape.root?_join
      rw [fill, inductionHypothesis, top, Frame.fill, linked_join]
      constructor
      · rintro ⟨above, up, toHole, toSibling, filling, sibling⟩
        exact ⟨⟨up, toHole, toSibling, sibling, above⟩, filling⟩
      · rintro ⟨⟨up, toHole, toSibling, sibling, above⟩, filling⟩
        exact ⟨above, up, toHole, toSibling, filling, sibling⟩

theorem measured_of_fill (measured : SlabTree.Measured headers (fill context shape)) :
    Measured headers context ∧ SlabTree.Measured headers shape := by
  induction context generalizing shape with
  | nil => exact ⟨trivial, measured⟩
  | cons frame rest inductionHypothesis =>
      obtain ⟨above, here⟩ := inductionHypothesis measured
      obtain ⟨_, filling, sibling⟩ := measured_join.mp here
      exact ⟨⟨sibling, above⟩, filling⟩

theorem Linked.congr (linked : Linked headers context hole)
    (same : ∀ slot ∈ slots context, ∀ link, (other slot).link link = (headers slot).link link) :
    Linked other context hole := by
  induction context generalizing hole with
  | nil => trivial
  | cons frame rest inductionHypothesis =>
      obtain ⟨up, toHole, toSibling, sibling, above⟩ := linked
      have here := same frame.slot List.mem_cons_self
      refine ⟨(here .parent).trans up, (here _).trans toHole, (here _).trans toSibling,
        sibling.congr ?_, inductionHypothesis above ?_⟩
      · exact fun slot member => same slot (by simp [slots, member])
      · exact fun slot member => same slot (by simp [slots, member])

theorem Measured.congr (measured : Measured headers context)
    (same : ∀ slot ∈ slots context, (other slot).height = (headers slot).height) :
    Measured other context := by
  induction context with
  | nil => trivial
  | cons frame rest inductionHypothesis =>
      obtain ⟨sibling, above⟩ := measured
      refine ⟨sibling.congr ?_, inductionHypothesis above ?_⟩
      · exact fun slot member => same slot (by simp [slots, member])
      · exact fun slot member => same slot (by simp [slots, member])

/-- The link that leads into the hole; none when it leads from the root. -/
def gate? (context : Context) : Option (Slot × Link) :=
  context.head?.map fun frame => (frame.slot, frame.side.link)

theorem mem_slots_of_gate? {link : Link} (leads : gate? context = some (slot, link)) :
    slot ∈ slots context := by
  cases context with
  | nil => contradiction
  | cons frame rest =>
      cases leads
      exact List.mem_cons_self

/-- Repointing the one link into the hole exchanges what stands there. -/
theorem Linked.exchange (linked : Linked headers context hole) (nodup : (slots context).Nodup)
    (links : ∀ slot ∈ slots context, ∀ link, (other slot).link link =
      if gate? context = some (slot, link) then new else (headers slot).link link) :
    Linked other context new := by
  cases context with
  | nil => trivial
  | cons frame rest =>
      obtain ⟨up, _, toSibling, sibling, above⟩ := linked
      obtain ⟨absent, _⟩ := List.nodup_cons.mp nodup
      rw [List.mem_append] at absent
      have here := links frame.slot List.mem_cons_self
      have elsewhere : ∀ slot ∈ frame.sibling.slots ++ slots rest, ∀ link,
          (other slot).link link = (headers slot).link link := by
        intro slot member link
        refine (links slot (List.mem_cons_of_mem _ member) link).trans (if_neg ?_)
        rintro ⟨⟩
        exact absent (List.mem_append.mp member)
      refine ⟨?_, ?_, ?_, sibling.congr ?_, above.congr ?_⟩
      · refine ((here .parent).trans (if_neg ?_)).trans up
        simp [gate?]
      · exact (here frame.side.link).trans (if_pos rfl)
      · refine ((here frame.side.flip.link).trans (if_neg ?_)).trans toSibling
        intro same
        exact Side.ne_flip frame.side (Side.link_injective (Prod.mk.inj (Option.some.inj same)).2)
      · exact fun slot member => elsewhere slot (List.mem_append_left _ member)
      · exact fun slot member => elsewhere slot (List.mem_append_right _ member)

end Context

end SlabTree
