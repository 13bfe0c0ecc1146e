import Mathlib.Data.List.Perm.Basic
import Mathlib.Data.Nat.Fib.Basic
import SlabTree.Proofs.Header

/-!
# Shapes of trees

The shape of a tree says which slot stands where.  Its slots in order are those
of the left side, the slot at the top, and those of the right side.

What holds on one side holds on the other in the mirror, so a node is mostly
written as `join side near slot far`, with `near` on the given side.
-/

namespace SlabTree

/-- As many slots below a bound as there are, none of them twice, are all of them. -/
theorem mem_of_full {slots : List Slot} {bound : Nat} (nodup : slots.Nodup)
    (below : ∀ slot ∈ slots, slot < bound) (full : slots.length = bound) {slot : Slot}
    (live : slot < bound) : slot ∈ slots := by
  have inside : slots ⊆ List.range bound := fun slot member =>
    List.mem_range.mpr (below slot member)
  have all := (nodup.subperm inside).perm_of_length_le (by rw [List.length_range, full])
  exact all.mem_iff.mpr (List.mem_range.mpr live)

/-- In a list without repetition every member stands in one place. -/
theorem split_unique {slot : Slot} {before after earlier later : List Slot}
    (nodup : (before ++ slot :: after).Nodup)
    (same : before ++ slot :: after = earlier ++ slot :: later) :
    before = earlier ∧ after = later := by
  obtain ⟨absent, _⟩ := List.nodup_cons.mp (List.nodup_middle.mp nodup)
  rw [List.mem_append, not_or] at absent
  obtain ⟨sameBefore, _, sameAfter⟩ := (List.append_cons_inj_of_notMem absent.1 absent.2).mp same
  exact ⟨sameBefore, sameAfter⟩

/-- Changing a function at one place does not matter to a list that is without it. -/
theorem map_update_of_notMem {α : Type} {f : Slot → α} {slot : Slot} {value : α}
    {slots : List Slot} (absent : slot ∉ slots) :
    slots.map (Function.update f slot value) = slots.map f :=
  List.map_congr_left fun _ member =>
    Function.update_of_ne (ne_of_mem_of_not_mem member absent) value f

/-- Which slot stands where in a tree. -/
inductive Shape
  | leaf
  | node (left : Shape) (slot : Slot) (right : Shape)
  deriving DecidableEq, Repr

namespace Shape

/-- The slot at the top. -/
def root? : Shape → Option Slot
  | leaf => none
  | node _ slot _ => some slot

/-- The number of levels. -/
def height : Shape → Nat
  | leaf => 0
  | node left _ right => max left.height right.height + 1

/-- The slots from left to right. -/
def slots : Shape → List Slot
  | leaf => []
  | node left slot right => left.slots ++ slot :: right.slots

/-- The number of levels above a slot of the shape. -/
def depth : Shape → Slot → Nat
  | leaf, _ => 0
  | node left top right, slot =>
      if slot = top then 0
      else if slot ∈ left.slots then left.depth slot + 1
      else right.depth slot + 1

/-- At every slot the two sides differ by one level at most. -/
def Balanced : Shape → Prop
  | leaf => True
  | node left _ right =>
      left.height ≤ right.height + 1 ∧ right.height ≤ left.height + 1 ∧
        left.Balanced ∧ right.Balanced

/-- A node with `near` on the given side and `far` on the other. -/
def join (side : Side) (near : Shape) (slot : Slot) (far : Shape) : Shape :=
  match side with
  | .left => node near slot far
  | .right => node far slot near

variable {side : Side} {near far shape : Shape} {slot : Slot}

/-- A node seen from the other side. -/
theorem join_flip (side : Side) (near : Shape) (slot : Slot) (far : Shape) :
    join side.flip near slot far = join side far slot near := by
  cases side <;> rfl

@[simp]
theorem root?_join : (join side near slot far).root? = some slot := by
  cases side <;> rfl

theorem root?_eq_none_iff : shape.root? = none ↔ shape = leaf := by
  cases shape <;> simp [root?]

@[simp]
theorem height_join : (join side near slot far).height = max near.height far.height + 1 := by
  cases side
  · rfl
  · exact congrArg (· + 1) (Nat.max_comm far.height near.height)

theorem height_eq_zero_iff : shape.height = 0 ↔ shape = leaf := by
  cases shape <;> simp [height]

theorem balanced_join :
    (join side near slot far).Balanced ↔
      near.height ≤ far.height + 1 ∧ far.height ≤ near.height + 1 ∧
        near.Balanced ∧ far.Balanced := by
  cases side
  · rfl
  · constructor
    · rintro ⟨low, high, first, second⟩
      exact ⟨high, low, second, first⟩
    · rintro ⟨low, high, first, second⟩
      exact ⟨high, low, second, first⟩

/-- Every shape but the empty one is a node, seen from either side. -/
theorem exists_join (side : Side) (used : shape ≠ leaf) :
    ∃ near slot far, shape = join side near slot far := by
  cases shape with
  | leaf => contradiction
  | node left slot right =>
      cases side
      · exact ⟨left, slot, right, rfl⟩
      · exact ⟨right, slot, left, rfl⟩

/-- The slot at the top is one of the slots. -/
theorem mem_slots_of_root? {slot : Slot} (top : shape.root? = some slot) : slot ∈ shape.slots := by
  cases shape with
  | leaf => contradiction
  | node left middle right =>
      cases top
      simp [slots]

theorem slots_join_perm :
    (join side near slot far).slots.Perm (slot :: (near.slots ++ far.slots)) := by
  cases side
  · exact List.perm_middle
  · exact List.perm_middle.trans ((List.perm_append_comm).cons slot)

theorem mem_slots_join {other : Slot} :
    other ∈ (join side near slot far).slots ↔
      other = slot ∨ other ∈ near.slots ∨ other ∈ far.slots := by
  rw [slots_join_perm.mem_iff, List.mem_cons, List.mem_append]

/-- No slot stands in two places. -/
theorem nodup_slots_join :
    (join side near slot far).slots.Nodup ↔
      slot ∉ near.slots ∧ slot ∉ far.slots ∧ near.slots.Nodup ∧ far.slots.Nodup ∧
        near.slots.Disjoint far.slots := by
  rw [slots_join_perm.nodup_iff, List.nodup_cons, List.mem_append, List.nodup_append']
  constructor
  · rintro ⟨absent, nodupNear, nodupFar, disjoint⟩
    exact ⟨fun member => absent (Or.inl member), fun member => absent (Or.inr member),
      nodupNear, nodupFar, disjoint⟩
  · rintro ⟨absentNear, absentFar, nodupNear, nodupFar, disjoint⟩
    refine ⟨?_, nodupNear, nodupFar, disjoint⟩
    rintro (member | member)
    · exact absentNear member
    · exact absentFar member

theorem mem_slots_node {left right : Shape} {slot other : Slot} :
    other ∈ (node left slot right).slots ↔
      other = slot ∨ other ∈ left.slots ∨ other ∈ right.slots := by
  have joined : join .left left slot right = node left slot right := rfl
  rw [← joined, mem_slots_join]

theorem nodup_slots_node {left right : Shape} {slot : Slot} :
    (node left slot right).slots.Nodup ↔
      slot ∉ left.slots ∧ slot ∉ right.slots ∧ left.slots.Nodup ∧ right.slots.Nodup ∧
        left.slots.Disjoint right.slots := by
  have joined : join .left left slot right = node left slot right := rfl
  rw [← joined, nodup_slots_join]

@[simp]
theorem depth_top {left right : Shape} {slot : Slot} : (node left slot right).depth slot = 0 :=
  if_pos rfl

/-- A slot on one side of a node is one level further down. -/
theorem depth_join (side : Side) {near far : Shape} {top slot : Slot}
    (nodup : (join side near top far).slots.Nodup) (member : slot ∈ near.slots) :
    (join side near top far).depth slot = near.depth slot + 1 := by
  obtain ⟨absent, _, _, _, disjoint⟩ := nodup_slots_join.mp nodup
  have below : slot ≠ top := ne_of_mem_of_not_mem member absent
  cases side with
  | left => rw [join, depth, if_neg below, if_pos member]
  | right => rw [join, depth, if_neg below, if_neg (disjoint member)]

/-- A slot below a node stands on one side of it. -/
theorem join_unique {other : Side} {first second : Shape} {top above : Slot}
    (nodup : (join side near top far).slots.Nodup) (member : slot ∈ near.slots)
    (alsoMember : slot ∈ first.slots)
    (same : join side near top far = join other first above second) :
    side = other ∧ near = first ∧ top = above ∧ far = second := by
  obtain ⟨_, _, _, _, apart⟩ := nodup_slots_join.mp nodup
  cases side <;> cases other <;> cases same
  · exact ⟨rfl, rfl, rfl, rfl⟩
  · exact absurd alsoMember (apart member)
  · exact absurd alsoMember (apart member)
  · exact ⟨rfl, rfl, rfl, rfl⟩

/-- Lifting the near child keeps the slots in order. -/
theorem slots_lift (side : Side) (outer : Shape) (pivot : Slot) (inner : Shape) (slot : Slot)
    (far : Shape) :
    (join side outer pivot (join side inner slot far)).slots =
      (join side (join side outer pivot inner) slot far).slots := by
  cases side <;> simp [join, slots]

/-- Joining shapes with the same slots in order. -/
theorem slots_join_congr {other : Shape} (same : near.slots = other.slots) :
    (join side near slot far).slots = (join side other slot far).slots := by
  cases side <;> simp [join, slots, same]

theorem height_le_length (shape : Shape) : shape.height ≤ shape.slots.length := by
  induction shape with
  | leaf => exact Nat.le_refl 0
  | node left slot right leftBound rightBound =>
      simp only [height, slots, List.length_append, List.length_cons]
      omega

/-! ## Renaming slots -/

/-- The shape with every slot renamed. -/
def map (f : Slot → Slot) : Shape → Shape
  | leaf => leaf
  | node left slot right => node (left.map f) (f slot) (right.map f)

variable {f : Slot → Slot}

@[simp]
theorem slots_map : (shape.map f).slots = shape.slots.map f := by
  induction shape with
  | leaf => rfl
  | node left slot right onLeft onRight =>
      simp only [map, slots, onLeft, onRight, List.map_append, List.map_cons]

@[simp]
theorem height_map : (shape.map f).height = shape.height := by
  induction shape with
  | leaf => rfl
  | node left slot right onLeft onRight => simp only [map, height, onLeft, onRight]

theorem balanced_map : (shape.map f).Balanced ↔ shape.Balanced := by
  induction shape with
  | leaf => rfl
  | node left slot right onLeft onRight =>
      simp only [map, Balanced, height_map, onLeft, onRight]

/-- Renaming that leaves the slots of a shape as they are leaves the shape as it is. -/
theorem map_eq_self (same : ∀ slot ∈ shape.slots, f slot = slot) : shape.map f = shape := by
  induction shape with
  | leaf => rfl
  | node left slot right onLeft onRight =>
      rw [map, onLeft fun inner member => same inner (List.mem_append_left _ member),
        onRight fun inner member =>
          same inner (List.mem_append_right _ (List.mem_cons_of_mem _ member)),
        same slot (List.mem_append_right _ List.mem_cons_self)]

/-! ## How tall balanced shapes are -/

/-- A balanced shape of some height has at least as many slots as the thinnest
one, which grows like the Fibonacci numbers. -/
theorem Balanced.fib_le (balanced : shape.Balanced) :
    Nat.fib (shape.height + 2) ≤ shape.slots.length + 1 := by
  induction shape with
  | leaf => simp [height, slots]
  | node left slot right leftBound rightBound =>
      obtain ⟨leftLow, rightLow, leftBalanced, rightBalanced⟩ := balanced
      have atLeft := leftBound leftBalanced
      have atRight := rightBound rightBalanced
      have split : Nat.fib (max left.height right.height + 1 + 2) =
          Nat.fib (max left.height right.height + 1) +
            Nat.fib (max left.height right.height + 2) := Nat.fib_add_two
      simp only [height, slots, List.length_append, List.length_cons]
      rw [split]
      rcases Nat.le_total left.height right.height with order | order
      · have smaller : Nat.fib (right.height + 1) ≤ Nat.fib (left.height + 2) :=
          Nat.fib_mono (by omega)
        rw [Nat.max_eq_right order]
        omega
      · have smaller : Nat.fib (left.height + 1) ≤ Nat.fib (right.height + 2) :=
          Nat.fib_mono (by omega)
        rw [Nat.max_eq_left order]
        omega

/-- A balanced shape over slots that 32 bits can number has at most 45 levels. -/
theorem Balanced.height_le (balanced : shape.Balanced) (few : shape.slots.length < 0xffffffff) :
    shape.height ≤ 45 := by
  by_contra tall
  have grown : Nat.fib 48 ≤ Nat.fib (shape.height + 2) := Nat.fib_mono (by omega)
  have value : Nat.fib 48 = 4807526976 := rfl
  have bounded := balanced.fib_le
  omega

end Shape

end SlabTree
