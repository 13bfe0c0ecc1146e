import Mathlib.Data.List.Induction
import SlabTree.Proofs.Tree.Shape

/-!
# Shapes with a hole

A context is the way up from a hole in a shape: on which side of which slot the
hole was, what stood on the other side, and so on to the top.  Filling the hole
gives a shape again, whose slots are those of the context and those of the
filling, with the filling in the middle.
-/

namespace SlabTree

/-- One step up from a hole: on which side of which slot it was, and what stands
on the other. -/
structure Frame where
  side : Side
  slot : Slot
  sibling : Shape
  deriving DecidableEq, Repr

/-- The node that a frame makes of what is in the hole. -/
def Frame.fill (frame : Frame) (shape : Shape) : Shape :=
  shape.join frame.side frame.slot frame.sibling

/-- The way up from a hole, the closest frame first. -/
abbrev Context := List Frame

namespace Context

open List (Perm perm_middle perm_append_comm mem_append append_assoc nodup_append')
open scoped List

/-- The shape with the hole filled. -/
def fill : Context → Shape → Shape
  | [], shape => shape
  | frame :: rest, shape => fill rest (frame.fill shape)

/-- The slot right above the hole. -/
def parent? (context : Context) : Option Slot :=
  context.head?.map (·.slot)

/-- The slots of a context, in no particular order. -/
def slots : Context → List Slot
  | [] => []
  | frame :: rest => frame.slot :: (frame.sibling.slots ++ slots rest)

/-- The slots before the hole, in order. -/
def before : Context → List Slot
  | [] => []
  | ⟨.left, _, _⟩ :: rest => before rest
  | ⟨.right, slot, sibling⟩ :: rest => before rest ++ sibling.slots ++ [slot]

/-- The slots behind the hole, in order. -/
def after : Context → List Slot
  | [] => []
  | ⟨.left, slot, sibling⟩ :: rest => slot :: sibling.slots ++ after rest
  | ⟨.right, _, _⟩ :: rest => after rest

variable {context rest : Context} {frame : Frame} {shape : Shape} {slot : Slot}

@[simp]
theorem parent?_cons : parent? (frame :: rest) = some frame.slot :=
  rfl

theorem mem_slots_of_parent? (above : parent? context = some slot) : slot ∈ slots context := by
  cases context with
  | nil => contradiction
  | cons frame rest =>
      cases above
      exact List.mem_cons_self

/-- The slot of every frame is one of the context's. -/
theorem mem_slots_of_mem (member : frame ∈ context) :
    frame.slot ∈ slots context := by
  induction context with
  | nil => contradiction
  | cons first rest inductionHypothesis =>
      rcases List.mem_cons.mp member with rfl | above
      · exact List.mem_cons_self
      · exact List.mem_cons_of_mem _ (List.mem_append_right _ (inductionHypothesis above))

theorem fill_append (inner outer : Context) (shape : Shape) :
    fill (inner ++ outer) shape = fill outer (fill inner shape) := by
  induction inner generalizing shape with
  | nil => rfl
  | cons frame rest inductionHypothesis => exact inductionHypothesis (frame.fill shape)

/-- What stands in a hole below the top does not change the top. -/
theorem root?_fill_congr {first second : Shape} (below : context ≠ []) :
    (fill context first).root? = (fill context second).root? := by
  induction context generalizing first second with
  | nil => contradiction
  | cons frame rest inductionHypothesis =>
      cases rest with
      | nil => exact Shape.root?_join.trans Shape.root?_join.symm
      | cons => exact inductionHypothesis (by simp)

/-! ## Slots of a filled context -/

theorem slots_fill_perm (context : Context) (shape : Shape) :
    (fill context shape).slots ~ slots context ++ shape.slots := by
  induction context generalizing shape with
  | nil => exact Perm.refl _
  | cons frame rest inductionHypothesis =>
      have rotated : slots rest ++ (shape.slots ++ frame.sibling.slots) ~
          frame.sibling.slots ++ slots rest ++ shape.slots := by
        rw [← append_assoc, append_assoc frame.sibling.slots]
        exact perm_append_comm
      calc
        (fill rest (frame.fill shape)).slots
            ~ slots rest ++ (frame.fill shape).slots := inductionHypothesis (frame.fill shape)
        _ ~ slots rest ++ frame.slot :: (shape.slots ++ frame.sibling.slots) :=
            Shape.slots_join_perm.append_left _
        _ ~ frame.slot :: (slots rest ++ (shape.slots ++ frame.sibling.slots)) := perm_middle
        _ ~ frame.slot :: (frame.sibling.slots ++ slots rest ++ shape.slots) :=
            rotated.cons frame.slot

theorem mem_slots_fill :
    slot ∈ (fill context shape).slots ↔ slot ∈ slots context ∨ slot ∈ shape.slots := by
  rw [(slots_fill_perm context shape).mem_iff, mem_append]

/-- No slot of the filling stands in the context. -/
theorem nodup_slots_fill :
    (fill context shape).slots.Nodup ↔
      (slots context).Nodup ∧ shape.slots.Nodup ∧ (slots context).Disjoint shape.slots := by
  rw [(slots_fill_perm context shape).nodup_iff, nodup_append']

theorem slots_fill (context : Context) (shape : Shape) :
    (fill context shape).slots = before context ++ shape.slots ++ after context := by
  induction context generalizing shape with
  | nil => simp [fill, before, after]
  | cons frame rest inductionHypothesis =>
      rcases frame with ⟨side, slot, sibling⟩
      rw [fill, inductionHypothesis]
      cases side <;> simp [Frame.fill, Shape.join, Shape.slots, before, after]

/-- The slots around the one at the top of the filling. -/
theorem slots_fill_node (context : Context) (left : Shape) (slot : Slot) (right : Shape) :
    (fill context (.node left slot right)).slots =
      (before context ++ left.slots) ++ slot :: (right.slots ++ after context) := by
  rw [slots_fill]
  simp [Shape.slots]

theorem before_append (inner outer : Context) :
    before (inner ++ outer) = before outer ++ before inner := by
  induction inner with
  | nil => simp [before]
  | cons frame rest inductionHypothesis =>
      rcases frame with ⟨side, slot, sibling⟩
      cases side <;> simp [before, inductionHypothesis]

theorem after_append (inner outer : Context) :
    after (inner ++ outer) = after inner ++ after outer := by
  induction inner with
  | nil => simp [after]
  | cons frame rest inductionHypothesis =>
      rcases frame with ⟨side, slot, sibling⟩
      cases side <;> simp [after, inductionHypothesis]

theorem length_le_slots (context : Context) : context.length ≤ (slots context).length := by
  induction context with
  | nil => exact Nat.le_refl 0
  | cons frame rest inductionHypothesis =>
      simp only [slots, List.length_cons, List.length_append]
      omega

/-- Every frame adds a level to what is in the hole. -/
theorem length_add_height_le (context : Context) (shape : Shape) :
    context.length + shape.height ≤ (fill context shape).height := by
  induction context generalizing shape with
  | nil => exact Nat.le_of_eq (Nat.zero_add _)
  | cons frame rest inductionHypothesis =>
      have onward := inductionHypothesis (frame.fill shape)
      rw [Frame.fill, Shape.height_join] at onward
      rw [fill, Frame.fill, List.length_cons]
      omega

theorem slots_fill_congr {other : Shape} (same : shape.slots = other.slots) :
    (fill context shape).slots = (fill context other).slots := by
  rw [slots_fill, slots_fill, same]

/-- Every frame stands on a level of its own. -/
theorem depth_fill (nodup : (fill context shape).slots.Nodup) (member : slot ∈ shape.slots) :
    (fill context shape).depth slot = context.length + shape.depth slot := by
  induction context generalizing shape with
  | nil => exact (Nat.zero_add _).symm
  | cons frame rest inductionHypothesis =>
      have filled : (fill rest (frame.fill shape)).slots.Nodup := nodup
      obtain ⟨_, nodupBelow, _⟩ := nodup_slots_fill.mp filled
      have below : (frame.fill shape).depth slot = shape.depth slot + 1 :=
        Shape.depth_join frame.side nodupBelow member
      have inside : slot ∈ (frame.fill shape).slots :=
        Shape.mem_slots_join.mpr (Or.inr (Or.inl member))
      rw [fill, inductionHypothesis filled inside, below, List.length_cons]
      omega

/-- What holds of the frames to the right of which the hole is, and of all that comes
earlier with them, holds of all slots before the hole. -/
theorem forall_before {R : Slot → Slot → Prop} {P : Slot → Prop}
    (sorted : (before context).Pairwise R)
    (down : ∀ earlier later, R earlier later → P later → P earlier)
    (turned : ∀ frame ∈ context, frame.side = .right → P frame.slot) :
    ∀ slot ∈ before context, P slot := by
  induction context with
  | nil => simp [before]
  | cons frame rest inductionHypothesis =>
      have here := turned frame List.mem_cons_self
      rcases frame with ⟨side, slot, sibling⟩
      cases side with
      | left =>
          exact inductionHypothesis sorted fun other member =>
            turned other (List.mem_cons_of_mem _ member)
      | right =>
          have ends : P slot := here rfl
          intro other member
          rcases mem_append.mp member with early | last
          · refine down other slot ?_ ends
            exact (List.pairwise_append.mp sorted).2.2 other early slot List.mem_cons_self
          · rw [List.mem_singleton.mp last]
            exact ends

/-- What holds of the frames to the left of which the hole is, and of all that comes
later with them, holds of all slots behind the hole. -/
theorem forall_after {R : Slot → Slot → Prop} {P : Slot → Prop}
    (sorted : (after context).Pairwise R)
    (up : ∀ earlier later, R earlier later → P earlier → P later)
    (turned : ∀ frame ∈ context, frame.side = .left → P frame.slot) :
    ∀ slot ∈ after context, P slot := by
  induction context with
  | nil => simp [after]
  | cons frame rest inductionHypothesis =>
      have here := turned frame List.mem_cons_self
      rcases frame with ⟨side, slot, sibling⟩
      cases side with
      | left =>
          have starts : P slot := here rfl
          intro other member
          rcases List.mem_cons.mp member with first | late
          · rw [first]
            exact starts
          · exact up slot other ((List.pairwise_cons.mp sorted).1 other late) starts
      | right =>
          exact inductionHypothesis sorted fun other member =>
            turned other (List.mem_cons_of_mem _ member)

/-- Every slot of a shape has a place in it. -/
theorem exists_fill_of_mem (member : slot ∈ shape.slots) :
    ∃ context left right, shape = fill context (.node left slot right) := by
  induction shape with
  | leaf => contradiction
  | node first middle second inFirst inSecond =>
      rcases mem_append.mp member with inLeft | inRest
      · obtain ⟨context, left, right, rfl⟩ := inFirst inLeft
        exact ⟨context ++ [⟨.left, middle, second⟩], left, right, by rw [fill_append]; rfl⟩
      · rcases List.mem_cons.mp inRest with here | inRight
        · exact ⟨[], first, second, by rw [here]; rfl⟩
        · obtain ⟨context, left, right, rfl⟩ := inSecond inRight
          exact ⟨context ++ [⟨.right, middle, first⟩], left, right, by rw [fill_append]; rfl⟩

/-- The slot at the top of a node is not on a side of it. -/
theorem fill_concat_ne {left right : Shape} (member : slot ∈ shape.slots)
    (nodup : (fill (rest ++ [frame]) shape).slots.Nodup) :
    fill (rest ++ [frame]) shape ≠ .node left slot right := by
  intro same
  rw [fill_append] at same nodup
  have top := congrArg Shape.root? same
  obtain ⟨absent, _⟩ := Shape.nodup_slots_join.mp nodup
  rw [fill, fill, Frame.fill, Shape.root?_join] at top
  cases top
  exact absent (mem_slots_fill.mpr (.inr member))

/-- A slot has one place in a shape. -/
theorem fill_unique {place : Context} {left right first second : Shape}
    (nodup : (fill context (.node left slot right)).slots.Nodup)
    (same : fill context (.node left slot right) = fill place (.node first slot second)) :
    context = place ∧ left = first ∧ right = second := by
  have here : ∀ {left right : Shape}, slot ∈ (Shape.node left slot right).slots := by
    simp [Shape.slots]
  -- From the top downwards, where both contexts must go to the side that has the slot.
  induction context using List.reverseRecOn generalizing place with
  | nil =>
      rcases List.eq_nil_or_concat' place with rfl | ⟨rest, frame, rfl⟩
      · cases same
        exact ⟨rfl, rfl, rfl⟩
      · exact absurd same.symm (fill_concat_ne here (same ▸ nodup))
  | append_singleton rest frame inductionHypothesis =>
      rcases List.eq_nil_or_concat' place with rfl | ⟨other, otherFrame, rfl⟩
      · exact absurd same (fill_concat_ne here nodup)
      · rcases frame with ⟨side, top, sibling⟩
        rcases otherFrame with ⟨otherSide, above, beside⟩
        rw [fill_append, fill_append] at same
        rw [fill_append] at nodup
        obtain ⟨rfl, inside, rfl, rfl⟩ := Shape.join_unique nodup
          (mem_slots_fill.mpr (.inr here)) (mem_slots_fill.mpr (.inr here)) same
        obtain ⟨rfl, rfl, rfl⟩ :=
          inductionHypothesis (Shape.nodup_slots_join.mp nodup).2.2.1 inside
        exact ⟨rfl, rfl, rfl⟩

/-- Renaming that leaves the slots of a context as they are acts on the filling. -/
theorem map_fill {f : Slot → Slot} (same : ∀ slot ∈ slots context, f slot = slot) :
    (fill context shape).map f = fill context (shape.map f) := by
  induction context generalizing shape with
  | nil => rfl
  | cons frame rest inductionHypothesis =>
      rcases frame with ⟨side, slot, sibling⟩
      have here : f slot = slot := same slot List.mem_cons_self
      have beside : sibling.map f = sibling := Shape.map_eq_self fun inner member =>
        same inner (List.mem_cons_of_mem _ (List.mem_append_left _ member))
      have filled : (Frame.fill ⟨side, slot, sibling⟩ shape).map f =
          Frame.fill ⟨side, slot, sibling⟩ (shape.map f) := by
        cases side <;> simp only [Frame.fill, Shape.join, Shape.map, here, beside]
      rw [fill, inductionHypothesis fun inner member =>
        same inner (List.mem_cons_of_mem _ (List.mem_append_right _ member)), filled, fill]

/-! ## Balance of a filled context -/

/-- What stands in a hole of a balanced shape is balanced. -/
theorem balanced_of_fill (balanced : (fill context shape).Balanced) : shape.Balanced := by
  induction context generalizing shape with
  | nil => exact balanced
  | cons frame rest inductionHypothesis =>
      exact (Shape.balanced_join.mp (inductionHypothesis balanced)).2.2.1

end Context

end SlabTree
