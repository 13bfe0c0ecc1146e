import SlabTree.Proofs.Tree.Mending
import SlabTree.Proofs.Tree.Surgery

/-!
# Rotations

A rotation lifts one child of a slot above it.  It repoints the links between the
two, the child between them, and the place that they hang from, and refreshes two
cached heights; all else stays as it was.
-/

namespace SlabTree.Tree.Graph

variable {graph : Graph} {side : Side} {slot pivot other : Slot} {inner parent : Option Slot}
  {gate : Option (Slot × Link)}

/-- The graph with the links between the two slots turned around. -/
def turn (graph : Graph) (side : Side) (slot pivot : Slot) (inner parent : Option Slot) : Graph :=
  ((((graph.setLink slot side.link inner).adopt inner (some slot)).setLink pivot side.flip.link
    (some slot)).setLink slot .parent (some pivot)).setLink pivot .parent parent

/-- The graph with the links of a rotation, before any height is refreshed. -/
def relink (graph : Graph) (side : Side) (slot pivot : Slot) (inner parent : Option Slot)
    (gate : Option (Slot × Link)) : Graph :=
  (graph.turn side slot pivot inner parent).repoint gate (some pivot)

/-- The graph after `pivot` was lifted above `slot`. -/
def lift (graph : Graph) (side : Side) (slot pivot : Slot) (inner parent : Option Slot)
    (gate : Option (Slot × Link)) : Graph :=
  ((graph.relink side slot pivot inner parent gate).refresh slot).refresh pivot

/-- The slots that a rotation relinks are distinct ones. -/
structure Distinct (slot pivot : Slot) (inner : Option Slot) (gate : Option (Slot × Link)) :
    Prop where
  pivot_ne : pivot ≠ slot
  inner_slot : inner ≠ some slot
  inner_pivot : inner ≠ some pivot
  gate_slot : ∀ link, gate ≠ some (slot, link)
  gate_pivot : ∀ link, gate ≠ some (pivot, link)

theorem link_relink_slot (distinct : Distinct slot pivot inner gate) :
    ∀ link, ((graph.relink side slot pivot inner parent gate).headers slot).link link =
      if link = .parent then some pivot else if link = side.link then inner
      else (graph.headers slot).link link := by
  intro link
  have pivot_ne : slot ≠ pivot := distinct.pivot_ne.symm
  simp only [relink, turn, link_repoint, link_setLink, link_adopt, distinct.gate_slot,
    distinct.inner_slot, pivot_ne, true_and, false_and, if_false]

theorem link_relink_pivot (distinct : Distinct slot pivot inner gate) :
    ∀ link, ((graph.relink side slot pivot inner parent gate).headers pivot).link link =
      if link = .parent then parent else if link = side.flip.link then some slot
      else (graph.headers pivot).link link := by
  intro link
  simp only [relink, turn, link_repoint, link_setLink, link_adopt, distinct.gate_pivot,
    distinct.inner_pivot, distinct.pivot_ne, true_and, false_and, if_false]

theorem link_relink_of_ne (notSlot : other ≠ slot) (notPivot : other ≠ pivot) :
    ∀ link, ((graph.relink side slot pivot inner parent gate).headers other).link link =
      if gate = some (other, link) then some pivot
      else if inner = some other ∧ link = .parent then some slot
      else (graph.headers other).link link := by
  intro link
  simp only [relink, turn, link_repoint, link_setLink, link_adopt, notSlot, notPivot, false_and,
    if_false]

@[simp]
theorem height_relink :
    ((graph.relink side slot pivot inner parent gate).headers other).height =
      (graph.headers other).height := by
  simp only [relink, turn, height_repoint, height_setLink, height_adopt]

@[simp]
theorem link_lift (link : Link) :
    ((graph.lift side slot pivot inner parent gate).headers other).link link =
      ((graph.relink side slot pivot inner parent gate).headers other).link link := by
  simp only [lift, link_refresh]

theorem height_lift_of_ne (notSlot : other ≠ slot) (notPivot : other ≠ pivot) :
    ((graph.lift side slot pivot inner parent gate).headers other).height =
      (graph.headers other).height := by
  simp only [lift, height_refresh, notSlot, notPivot, if_false, height_relink]

/-! ## The heights that come out -/

/-- The height that the lower slot has afterwards. -/
def lowerHeight (graph : Graph) (side : Side) (slot : Slot) (inner : Option Slot) : Int :=
  max (graph.contribution inner) (graph.contribution ((graph.headers slot).child side.flip))

/-- The height that the upper slot has afterwards. -/
def upperHeight (graph : Graph) (side : Side) (slot pivot : Slot) (inner : Option Slot) : Int :=
  max (graph.contribution ((graph.headers pivot).child side))
    (graph.lowerHeight side slot inner + 1)

theorem child_relink_slot (distinct : Distinct slot pivot inner gate) :
    ((graph.relink side slot pivot inner parent gate).headers slot).child side = inner ∧
      ((graph.relink side slot pivot inner parent gate).headers slot).child side.flip =
        (graph.headers slot).child side.flip := by
  constructor
  · refine (link_relink_slot distinct side.link).trans ?_
    rw [if_neg (Side.link_ne_parent side), if_pos rfl]
  · refine (link_relink_slot distinct side.flip.link).trans ?_
    rw [if_neg (Side.link_ne_parent _),
      if_neg fun same => Side.flip_ne side (Side.link_injective same)]
    rfl

theorem child_relink_pivot (distinct : Distinct slot pivot inner gate) :
    ((graph.relink side slot pivot inner parent gate).headers pivot).child side =
        (graph.headers pivot).child side ∧
      ((graph.relink side slot pivot inner parent gate).headers pivot).child side.flip =
        some slot := by
  constructor
  · refine (link_relink_pivot distinct side.link).trans ?_
    rw [if_neg (Side.link_ne_parent side),
      if_neg fun same => Side.ne_flip side (Side.link_injective same)]
    rfl
  · refine (link_relink_pivot distinct side.flip.link).trans ?_
    rw [if_neg (Side.link_ne_parent _), if_pos rfl]

theorem heightFromChildren_relink (distinct : Distinct slot pivot inner gate) :
    (graph.relink side slot pivot inner parent gate).heightFromChildren slot =
      graph.lowerHeight side slot inner := by
  obtain ⟨toInner, toFar⟩ := @child_relink_slot graph side slot pivot inner parent gate distinct
  rw [heightFromChildren_eq side, toInner, toFar, contribution_congr fun _ _ => height_relink,
    contribution_congr fun _ _ => height_relink]
  rfl

theorem heightFromChildren_refresh (distinct : Distinct slot pivot inner gate)
    (outerSlot : (graph.headers pivot).child side ≠ some slot) :
    ((graph.relink side slot pivot inner parent gate).refresh slot).heightFromChildren pivot =
      graph.upperHeight side slot pivot inner := by
  obtain ⟨toOuter, toSlot⟩ :=
    @child_relink_pivot graph side slot pivot inner parent gate distinct
  have linkOuter : (((graph.relink side slot pivot inner parent gate).refresh slot).headers
      pivot).child side = _ := (link_refresh _).trans toOuter
  have linkSlot : (((graph.relink side slot pivot inner parent gate).refresh slot).headers
      pivot).child side.flip = _ := (link_refresh _).trans toSlot
  have onOuter : ((graph.relink side slot pivot inner parent gate).refresh slot).contribution
      ((graph.headers pivot).child side) =
        graph.contribution ((graph.headers pivot).child side) := by
    apply contribution_congr
    intro child here
    have notSlot : child ≠ slot := by
      rintro rfl
      exact outerSlot here
    rw [height_refresh, if_neg notSlot, height_relink]
  have onSlot : ((graph.relink side slot pivot inner parent gate).refresh slot).contribution
      (some slot) = graph.lowerHeight side slot inner + 1 := by
    rw [contribution, height_refresh, if_pos rfl, heightFromChildren_relink distinct]
  rw [heightFromChildren_eq side, linkOuter, linkSlot, onOuter, onSlot]
  rfl

theorem height_lift_slot (distinct : Distinct slot pivot inner gate) :
    ((graph.lift side slot pivot inner parent gate).headers slot).height =
      graph.lowerHeight side slot inner := by
  rw [lift, height_refresh, if_neg distinct.pivot_ne.symm, height_refresh, if_pos rfl,
    heightFromChildren_relink distinct]

theorem height_lift_pivot (distinct : Distinct slot pivot inner gate)
    (outerSlot : (graph.headers pivot).child side ≠ some slot) :
    ((graph.lift side slot pivot inner parent gate).headers pivot).height =
      graph.upperHeight side slot pivot inner := by
  rw [lift, height_refresh, if_pos rfl, heightFromChildren_refresh distinct outerSlot]

/-! ## The shape around a rotation -/

section Shape

variable {context : Context} {outer within far : Shape} {part : Slot}

theorem mem_slots_around :
    part ∈ (Shape.join side (.join side outer pivot within) slot far).slots ↔
      part = slot ∨ part = pivot ∨ part ∈ outer.slots ∨ part ∈ within.slots ∨
        part ∈ far.slots := by
  rw [Shape.mem_slots_join, Shape.mem_slots_join, or_assoc, or_assoc]

/-- The two slots of a rotation stand in none of the three subtrees, which share no
slots. -/
structure Parts (slot pivot : Slot) (outer within far : Shape) : Prop where
  pivot_ne : pivot ≠ slot
  slot_outer : slot ∉ outer.slots
  slot_within : slot ∉ within.slots
  slot_far : slot ∉ far.slots
  pivot_outer : pivot ∉ outer.slots
  pivot_within : pivot ∉ within.slots
  pivot_far : pivot ∉ far.slots
  outer_within : outer.slots.Disjoint within.slots
  within_far : within.slots.Disjoint far.slots
  nodup_within : within.slots.Nodup

theorem Focused.parts
    (focused : graph.Focused context
      (.join side (.join side outer pivot within) slot far)) :
    Parts slot pivot outer within far := by
  obtain ⟨slotNear, slotFar, nodupNear, _, nearFar⟩ :=
    Shape.nodup_slots_join.mp focused.nodupBelow
  obtain ⟨pivotOuter, pivotWithin, _, nodupWithin, outerWithin⟩ :=
    Shape.nodup_slots_join.mp nodupNear
  simp only [Shape.mem_slots_join, not_or] at slotNear
  obtain ⟨slotPivot, slotOuter, slotWithin⟩ := slotNear
  have nearMember : ∀ {part}, part = pivot ∨ part ∈ outer.slots ∨ part ∈ within.slots →
      part ∉ far.slots := fun member => nearFar (Shape.mem_slots_join.mpr member)
  exact ⟨Ne.symm slotPivot, slotOuter, slotWithin, slotFar, pivotOuter, pivotWithin,
    nearMember (Or.inl rfl), outerWithin, fun _ member => nearMember (Or.inr (Or.inr member)),
    nodupWithin⟩

/-- Slots above a rotation have no part in it. -/
theorem Focused.above_ne
    (focused : graph.Focused context
      (.join side (.join side outer pivot within) slot far))
    (above : part ∈ Context.slots context) :
    part ≠ slot ∧ part ≠ pivot ∧ within.root? ≠ some part := by
  have apart := focused.apart above
  rw [mem_slots_around] at apart
  refine ⟨fun same => apart (Or.inl same), fun same => apart (Or.inr (Or.inl same)), ?_⟩
  exact fun top => apart (Or.inr (Or.inr (Or.inr (Or.inl (Shape.mem_slots_of_root? top)))))

theorem Focused.distinct
    (focused : graph.Focused context
      (.join side (.join side outer pivot within) slot far)) :
    Distinct slot pivot within.root? (Context.gate? context) := by
  have parts := focused.parts
  refine ⟨parts.pivot_ne, ?_, ?_, ?_, ?_⟩
  · exact fun top => parts.slot_within (Shape.mem_slots_of_root? top)
  · exact fun top => parts.pivot_within (Shape.mem_slots_of_root? top)
  · exact fun link here => (focused.above_ne (Context.mem_slots_of_gate? here)).1 rfl
  · exact fun link here => (focused.above_ne (Context.mem_slots_of_gate? here)).2.1 rfl

theorem Focused.child_pivot_ne
    (focused : graph.Focused context
      (.join side (.join side outer pivot within) slot far)) :
    (graph.headers pivot).child side ≠ some slot := by
  obtain ⟨_, _, _, nearLinked, _⟩ := linked_join.mp focused.below
  obtain ⟨_, toOuter, _⟩ := linked_join.mp nearLinked
  rw [toOuter]
  exact fun top => focused.parts.slot_outer (Shape.mem_slots_of_root? top)

/-! ## The shape that comes out -/

/-- Below a rotation only the subtree between the two slots is hung elsewhere. -/
theorem Focused.link_lift_below
    (focused : graph.Focused context
      (.join side (.join side outer pivot within) slot far))
    (below : part ∈ outer.slots ∨ part ∈ within.slots ∨ part ∈ far.slots) (link : Link) :
    ((graph.lift side slot pivot within.root? (Context.parent? context)
      (Context.gate? context)).headers part).link link =
        if within.root? = some part ∧ link = .parent then some slot
        else (graph.headers part).link link := by
  have parts := focused.parts
  have notSlot : part ≠ slot := by
    rintro rfl
    rcases below with member | member | member
    · exact parts.slot_outer member
    · exact parts.slot_within member
    · exact parts.slot_far member
  have notPivot : part ≠ pivot := by
    rintro rfl
    rcases below with member | member | member
    · exact parts.pivot_outer member
    · exact parts.pivot_within member
    · exact parts.pivot_far member
  rw [link_lift, link_relink_of_ne notSlot notPivot, if_neg]
  intro here
  apply focused.apart (Context.mem_slots_of_gate? here)
  exact mem_slots_around.mpr (Or.inr (Or.inr below))

theorem Focused.linked_lift
    (focused : graph.Focused context
      (.join side (.join side outer pivot within) slot far)) :
    Linked (graph.lift side slot pivot within.root? (Context.parent? context)
      (Context.gate? context)).headers (Context.parent? context)
        (.join side outer pivot (.join side within slot far)) := by
  have distinct := focused.distinct
  have parts := focused.parts
  obtain ⟨_, _, toFar, nearLinked, farLinked⟩ := linked_join.mp focused.below
  obtain ⟨_, toOuter, _, outerLinked, withinLinked⟩ := linked_join.mp nearLinked
  have outerKept : ∀ part ∈ outer.slots, ∀ link,
      ((graph.lift side slot pivot within.root? (Context.parent? context)
        (Context.gate? context)).headers part).link link = (graph.headers part).link link := by
    intro part member link
    rw [focused.link_lift_below (Or.inl member), if_neg]
    exact fun both => parts.outer_within member (Shape.mem_slots_of_root? both.1)
  have farKept : ∀ part ∈ far.slots, ∀ link,
      ((graph.lift side slot pivot within.root? (Context.parent? context)
        (Context.gate? context)).headers part).link link = (graph.headers part).link link := by
    intro part member link
    rw [focused.link_lift_below (Or.inr (Or.inr member)), if_neg]
    exact fun both => parts.within_far (Shape.mem_slots_of_root? both.1) member
  refine linked_join.mpr ⟨?_, ?_, ?_, outerLinked.congr outerKept, linked_join.mpr
    ⟨?_, ?_, ?_, withinLinked.rehang parts.nodup_within ?_, farLinked.congr farKept⟩⟩
  · exact (link_lift .parent).trans (link_relink_pivot distinct .parent)
  · exact ((link_lift _).trans (child_relink_pivot distinct).1).trans toOuter
  · rw [Shape.root?_join]
    exact (link_lift _).trans (child_relink_pivot distinct).2
  · exact (link_lift .parent).trans (link_relink_slot distinct .parent)
  · exact (link_lift _).trans (child_relink_slot distinct).1
  · exact ((link_lift _).trans (child_relink_slot distinct).2).trans toFar
  · exact fun part member => focused.link_lift_below (Or.inr (Or.inl member))

/-- The links after a rotation spell out the lifted shape in the same place. -/
theorem Focused.lift
    (focused : graph.Focused context
      (.join side (.join side outer pivot within) slot far)) :
    (graph.lift side slot pivot within.root? (Context.parent? context)
      (Context.gate? context)).Focused context
        (.join side outer pivot (.join side within slot far)) := by
  have slots := Shape.slots_lift side outer pivot within slot far
  refine focused.exchange ?_ ?_ focused.linked_lift ?_ ?_ ?_ (Nat.le_refl _)
  · rw [Shape.root?_join]
    rfl
  · intro part member link
    obtain ⟨notSlot, notPivot, notWithin⟩ := focused.above_ne member
    have notTop : ¬(within.root? = some part ∧ link = .parent) := fun both => notWithin both.1
    rw [link_lift, link_relink_of_ne notSlot notPivot, if_neg notTop, Shape.root?_join]
  · rw [slots]
    exact focused.nodupBelow
  · rw [slots]
    exact fun part above => focused.apart above
  · rw [slots]
    exact focused.liveBelow

/-- A rotation changes the link into its place and nothing else outside. -/
theorem headers_lift
    (outside : other ∉ (Shape.join side (.join side outer pivot within) slot far).slots) :
    (graph.lift side slot pivot within.root? (Context.parent? context)
      (Context.gate? context)).headers other =
        (graph.repoint (Context.gate? context) (some pivot)).headers other := by
  simp only [mem_slots_around, not_or] at outside
  obtain ⟨notSlot, notPivot, _, notWithin, _⟩ := outside
  have notTop : ∀ link : Link, ¬(within.root? = some other ∧ link = .parent) := fun _ both =>
    notWithin (Shape.mem_slots_of_root? both.1)
  apply Header.eq_of_links
  · intro link
    rw [link_lift, link_relink_of_ne notSlot notPivot, link_repoint, if_neg (notTop link)]
  · rw [height_lift_of_ne notSlot notPivot, height_repoint]

/-- The heights that a rotation writes, where those around it are right. -/
theorem Focused.heights_lift
    (focused : graph.Focused context
      (.join side (.join side outer pivot within) slot far))
    (outerMeasured : Measured graph.headers outer) (withinMeasured : Measured graph.headers within)
    (farMeasured : Measured graph.headers far) :
    graph.lowerHeight side slot within.root? = (max within.height far.height : Nat) ∧
      graph.upperHeight side slot pivot within.root? =
        (max outer.height (max within.height far.height + 1) : Nat) := by
  obtain ⟨_, _, toFar, nearLinked, _⟩ := linked_join.mp focused.below
  obtain ⟨_, toOuter, _⟩ := linked_join.mp nearLinked
  have lower : graph.lowerHeight side slot within.root? =
      (max within.height far.height : Nat) := by
    rw [lowerHeight, toFar, contribution_root? withinMeasured, contribution_root? farMeasured]
    omega
  refine ⟨lower, ?_⟩
  rw [upperHeight, toOuter, contribution_root? outerMeasured, lower]
  omega

/-- The lifted shape is measured where its three subtrees are. -/
theorem Focused.measured_lift
    (focused : graph.Focused context
      (.join side (.join side outer pivot within) slot far))
    (outerMeasured : Measured graph.headers outer) (withinMeasured : Measured graph.headers within)
    (farMeasured : Measured graph.headers far) :
    Measured (graph.lift side slot pivot within.root? (Context.parent? context)
      (Context.gate? context)).headers (.join side outer pivot (.join side within slot far)) := by
  have distinct := focused.distinct
  have parts := focused.parts
  obtain ⟨lower, upper⟩ := focused.heights_lift outerMeasured withinMeasured farMeasured
  have kept : ∀ part, part ≠ slot → part ≠ pivot → _ := fun part notSlot notPivot =>
    @height_lift_of_ne graph side slot pivot part within.root? (Context.parent? context)
      (Context.gate? context) notSlot notPivot
  refine measured_join.mpr ⟨?_, outerMeasured.congr ?_, measured_join.mpr
    ⟨?_, withinMeasured.congr ?_, farMeasured.congr ?_⟩⟩
  · rw [height_lift_pivot distinct focused.child_pivot_ne, upper, Shape.height_join]
  · exact fun part member => kept part (ne_of_mem_of_not_mem member parts.slot_outer)
      (ne_of_mem_of_not_mem member parts.pivot_outer)
  · rw [height_lift_slot distinct, lower]
  · exact fun part member => kept part (ne_of_mem_of_not_mem member parts.slot_within)
      (ne_of_mem_of_not_mem member parts.pivot_within)
  · exact fun part member => kept part (ne_of_mem_of_not_mem member parts.slot_far)
      (ne_of_mem_of_not_mem member parts.pivot_far)

/-! ## Rotations as actions -/

theorem Focused.yields_replace
    (focused : graph.Focused context
      (.join side (.join side outer pivot within) slot far)) (usable : graph.Usable) :
    Action.Yields Tree.graph (replaceChild (Context.parent? context) slot (some pivot))
      (graph.turn side slot pivot within.root? (Context.parent? context)) ()
      (graph.relink side slot pivot within.root? (Context.parent? context)
        (Context.gate? context)) {} := by
  have above : Context.Linked (graph.turn side slot pivot within.root?
      (Context.parent? context)).headers context (some slot) := by
    have old := focused.above
    rw [Shape.root?_join] at old
    refine old.congr ?_
    intro part member link
    obtain ⟨notSlot, notPivot, notWithin⟩ := focused.above_ne member
    simp only [turn, link_setLink, link_adopt, notSlot, notPivot, notWithin, false_and, if_false]
  have usableTurn : (graph.turn side slot pivot within.root? (Context.parent? context)).Usable :=
    usable
  apply yields_replaceChild usableTurn above
  · exact fun member => (focused.above_ne member).1 rfl
  · exact focused.liveAbove
  · exact focused.storable usable (mem_slots_around.mpr (Or.inr (Or.inl rfl)))

/-- The tops of shapes whose slots are live and whose heights are right are safe children. -/
theorem safe_top {shape : Shape} (measured : Measured graph.headers shape)
    (low : shape.height < 0x80000000) (live : ∀ {part}, part ∈ shape.slots → part < graph.live)
    {top : Slot} (here : shape.root? = some top) :
    top < graph.live ∧ SafeHeight (graph.headers top).height :=
  ⟨live (Shape.mem_slots_of_root? here), safeHeight_of_measured measured here low⟩

theorem Focused.yields_lower
    (focused : graph.Focused context
      (.join side (.join side outer pivot within) slot far)) (usable : graph.Usable)
    (withinMeasured : Measured graph.headers within) (farMeasured : Measured graph.headers far)
    (low : within.height < 0x80000000 ∧ far.height < 0x80000000) :
    Action.Yields Tree.graph (updateHeight slot)
      (graph.relink side slot pivot within.root? (Context.parent? context)
        (Context.gate? context)) ()
      ((graph.relink side slot pivot within.root? (Context.parent? context)
        (Context.gate? context)).refresh slot) {} := by
  have distinct := focused.distinct
  obtain ⟨_, _, toFar, _⟩ := linked_join.mp focused.below
  have below : ∀ {part}, part ∈ within.slots ∨ part ∈ far.slots → part < graph.live :=
    fun member => focused.liveBelow _ (mem_slots_around.mpr (Or.inr (Or.inr (Or.inr member))))
  apply yields_updateHeight
  · exact usable
  · exact focused.liveBelow slot (mem_slots_around.mpr (Or.inl rfl))
  · apply safeChildren_of side
    · rw [(child_relink_slot distinct).1]
      intro top here
      rw [height_relink]
      exact safe_top withinMeasured low.1 (fun member => below (Or.inl member)) here
    · rw [(child_relink_slot distinct).2, toFar]
      intro top here
      rw [height_relink]
      exact safe_top farMeasured low.2 (fun member => below (Or.inr member)) here

theorem Focused.yields_raise
    (focused : graph.Focused context
      (.join side (.join side outer pivot within) slot far)) (usable : graph.Usable)
    (outerMeasured : Measured graph.headers outer) (low : outer.height < 0x80000000)
    (safe : SafeHeight (graph.lowerHeight side slot within.root?)) :
    Action.Yields Tree.graph (updateHeight pivot)
      ((graph.relink side slot pivot within.root? (Context.parent? context)
        (Context.gate? context)).refresh slot) ()
      (graph.lift side slot pivot within.root? (Context.parent? context)
        (Context.gate? context)) {} := by
  have distinct := focused.distinct
  obtain ⟨_, _, _, nearLinked, _⟩ := linked_join.mp focused.below
  obtain ⟨_, toOuter, _⟩ := linked_join.mp nearLinked
  apply yields_updateHeight
  · exact usable
  · exact focused.liveBelow pivot (mem_slots_around.mpr (Or.inr (Or.inl rfl)))
  · apply safeChildren_of side
    · intro top here
      have toTop := ((link_refresh _).symm.trans here).symm.trans (child_relink_pivot distinct).1
      have atTop : outer.root? = some top := toOuter.symm.trans toTop.symm
      have notSlot : top ≠ slot := by
        rintro rfl
        exact focused.child_pivot_ne (toOuter.trans atTop)
      rw [height_refresh, if_neg notSlot, height_relink]
      exact safe_top outerMeasured low (fun member => focused.liveBelow _
        (mem_slots_around.mpr (Or.inr (Or.inr (Or.inl member))))) atTop
    · intro top here
      have toTop := ((link_refresh _).symm.trans here).symm.trans (child_relink_pivot distinct).2
      cases toTop
      rw [height_refresh, if_pos rfl, heightFromChildren_relink distinct]
      exact ⟨focused.liveBelow slot (mem_slots_around.mpr (Or.inl rfl)), safe⟩

/-- A rotation in a linked shape turns the links around, and then refreshes two heights. -/
theorem Focused.ends_rotate
    (focused : graph.Focused context
      (.join side (.join side outer pivot within) slot far)) (usable : graph.Usable)
    {result : Except Fault Slot} {after : Graph} {log : Journal}
    (onward : Action.Ends Tree.graph
      (do
        updateHeight slot
        updateHeight pivot
        Action.log (.rotate side slot pivot)
        pure pivot)
      (graph.relink side slot pivot within.root? (Context.parent? context)
        (Context.gate? context)) result after log) :
    Action.Ends Tree.graph (rotate side slot) graph result after log := by
  obtain ⟨up, toPivot, _, nearLinked, _⟩ := linked_join.mp focused.below
  obtain ⟨_, _, toWithin, _, _⟩ := linked_join.mp nearLinked
  rw [Shape.root?_join] at toPivot
  have slotMember : slot ∈ (Shape.join side (.join side outer pivot within) slot far).slots :=
    mem_slots_around.mpr (Or.inl rfl)
  have pivotMember : pivot ∈ (Shape.join side (.join side outer pivot within) slot far).slots :=
    mem_slots_around.mpr (Or.inr (Or.inl rfl))
  have slotLive := focused.liveBelow slot slotMember
  have pivotLive := focused.liveBelow pivot pivotMember
  have withinLive : ∀ top, within.root? = some top → top < graph.live := fun top here =>
    focused.liveBelow top (mem_slots_around.mpr
      (Or.inr (Or.inr (Or.inr (Or.inl (Shape.mem_slots_of_root? here))))))
  have slotStorable := focused.storable usable slotMember
  have pivotStorable := focused.storable usable pivotMember
  have withinStorable : Slot.Storable within.root? := fun top here =>
    usable.lt_nil (withinLive top here)
  have parentStorable := focused.storable_parent usable
  refine Action.Yields.quietly (yields_link usable slotLive .parent) ?_
  refine Action.Yields.quietly (yields_requireChild usable slotLive toPivot) ?_
  refine Action.Yields.quietly (yields_child usable pivotLive side.flip) ?_
  rw [toWithin, Header.link_parent, up]
  refine Action.Yields.quietly (yields_setLink usable slotLive withinStorable) ?_
  refine Action.Yields.quietly (yields_adopt usable withinLive slotStorable) ?_
  refine Action.Yields.quietly (yields_setLink usable pivotLive slotStorable) ?_
  refine Action.Yields.quietly (yields_setLink usable slotLive pivotStorable) ?_
  refine Action.Yields.quietly (yields_setLink usable pivotLive parentStorable) ?_
  exact Action.Yields.quietly (focused.yields_replace usable) onward

/-- A rotation in a linked shape lifts the child, where the heights around it are right
and fit. -/
theorem Focused.yields_rotate
    (focused : graph.Focused context
      (.join side (.join side outer pivot within) slot far)) (usable : graph.Usable)
    (outerMeasured : Measured graph.headers outer) (withinMeasured : Measured graph.headers within)
    (farMeasured : Measured graph.headers far)
    (low : outer.height < 0x7fffffff ∧ within.height < 0x7fffffff ∧ far.height < 0x7fffffff) :
    Action.Yields Tree.graph (rotate side slot) graph pivot
      (graph.lift side slot pivot within.root? (Context.parent? context)
        (Context.gate? context)) ⟨#[.rotate side slot pivot], 0⟩ := by
  have safe : SafeHeight (graph.lowerHeight side slot within.root?) := by
    rw [(focused.heights_lift outerMeasured withinMeasured farMeasured).1]
    constructor <;> omega
  refine focused.ends_rotate usable (Action.Yields.ends ?_)
  refine Action.Yields.silently (focused.yields_lower usable withinMeasured farMeasured
    (by omega)) ?_
  refine Action.Yields.silently (focused.yields_raise usable outerMeasured (by omega) safe) ?_
  exact (Action.yields_log _).answering pivot

end Shape

end SlabTree.Tree.Graph
