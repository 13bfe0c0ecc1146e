import SlabTree.Proofs.Tree.Surgery

/-!
# Searching a linked shape

A search walks down to a place in the shape: a hole, or a node at which it stops.
All that a search answers can be read off the context of that place: the slots
visited are those of its frames, and at each of them the search turned to the side
on which the place is.
-/

namespace SlabTree

namespace Turn

variable {compared : Ordering}

theorem exact_left : exact compared = some .left ↔ compared = .lt := by
  cases compared <;> decide

theorem exact_right : exact compared = some .right ↔ compared = .gt := by
  cases compared <;> decide

theorem above_left : above compared = some .left ↔ compared = .lt := by
  cases compared <;> decide

theorem above_right : above compared = some .right ↔ compared ≠ .lt := by
  cases compared <;> decide

theorem below_left : below compared = some .left ↔ compared ≠ .gt := by
  cases compared <;> decide

theorem below_right : below compared = some .right ↔ compared = .gt := by
  cases compared <;> decide

end Turn

/-- The slots visited on the way down, when the comparison at a slot comes out as
`verdict` says. -/
def Shape.trail (verdict : Slot → Ordering) (turn : Turn) : Shape → List Slot
  | leaf => []
  | node left slot right =>
    slot :: match turn (verdict slot) with
      | none => []
      | some .left => trail verdict turn left
      | some .right => trail verdict turn right

variable {verdict : Slot → Ordering} {turn : Turn} {shape rest : Shape} {context : Context}
  {slot : Slot} {frame : Frame}

/-- A search visits one slot on a level at most. -/
theorem Shape.length_trail_le (verdict : Slot → Ordering) (turn : Turn) (shape : Shape) :
    (shape.trail verdict turn).length ≤ shape.height := by
  induction shape with
  | leaf => exact Nat.le_refl 0
  | node left slot right onLeft onRight =>
      simp only [trail, height, List.length_cons]
      cases turn (verdict slot) with
      | none => exact Nat.succ_le_succ (Nat.zero_le _)
      | some side =>
          cases side with
          | left => exact Nat.succ_le_succ (Nat.le_trans onLeft (Nat.le_max_left _ _))
          | right => exact Nat.succ_le_succ (Nat.le_trans onRight (Nat.le_max_right _ _))

/-- How comparisons outside the shape come out does not matter. -/
theorem Shape.trail_congr {other : Slot → Ordering}
    (same : ∀ slot ∈ shape.slots, verdict slot = other slot) :
    shape.trail verdict turn = shape.trail other turn := by
  induction shape with
  | leaf => rfl
  | node left slot right onLeft onRight =>
      rw [trail, trail, same slot (by simp [slots]),
        onLeft fun inner member => same inner (by simp [slots, member]),
        onRight fun inner member => same inner (by simp [slots, member])]

/-- A search of a shape ends in a place of it. -/
structure Descent (verdict : Slot → Ordering) (turn : Turn) (shape : Shape) (context : Context)
    (rest : Shape) : Prop where
  fill_eq : Context.fill context rest = shape
  turned : ∀ frame ∈ context, turn (verdict frame.slot) = some frame.side
  stopped : ∀ slot, rest.root? = some slot → turn (verdict slot) = none
  trail_eq : shape.trail verdict turn =
    context.reverse.map (·.slot) ++ rest.root?.toList

theorem Descent.extend {side : Side} {sibling : Shape}
    (descent : Descent verdict turn shape context rest)
    (towards : turn (verdict slot) = some side) :
    Descent verdict turn (shape.join side slot sibling) (context ++ [⟨side, slot, sibling⟩])
      rest where
  fill_eq := by
    rw [Context.fill_append, descent.fill_eq]
    rfl
  turned := by
    intro frame member
    rcases List.mem_append.mp member with below | last
    · exact descent.turned frame below
    · rw [List.mem_singleton.mp last]
      exact towards
  stopped := descent.stopped
  trail_eq := by
    have deeper := descent.trail_eq
    cases side <;>
      simp only [Shape.join, Shape.trail, towards, deeper, List.reverse_append, List.reverse_cons,
        List.reverse_nil, List.nil_append, List.map_cons, List.cons_append]

/-- The slots on the way are slots of the shape. -/
theorem Descent.frame_mem (descent : Descent verdict turn shape context rest)
    (member : frame ∈ context) : frame.slot ∈ shape.slots := by
  rw [← descent.fill_eq]
  exact Context.mem_slots_fill.mpr (.inl (Context.mem_slots_of_mem member))

/-- The slot at which a search stops is a slot of the shape. -/
theorem Descent.top_mem (descent : Descent verdict turn shape context rest)
    (top : rest.root? = some slot) : slot ∈ shape.slots := by
  rw [← descent.fill_eq]
  exact Context.mem_slots_fill.mpr (.inr (Shape.mem_slots_of_root? top))

/-- A search ends in the same place however comparisons outside the shape come out. -/
theorem Descent.congr {other : Slot → Ordering} (descent : Descent verdict turn shape context rest)
    (same : ∀ slot ∈ shape.slots, verdict slot = other slot) :
    Descent other turn shape context rest where
  fill_eq := descent.fill_eq
  turned := by
    intro frame member
    rw [← same frame.slot (descent.frame_mem member)]
    exact descent.turned frame member
  stopped := by
    intro slot top
    rw [← same slot (descent.top_mem top)]
    exact descent.stopped slot top
  trail_eq := (Shape.trail_congr same).symm.trans descent.trail_eq

/-- Every search ends. -/
theorem exists_descent (verdict : Slot → Ordering) (turn : Turn) (shape : Shape) :
    ∃ context rest, Descent verdict turn shape context rest := by
  induction shape with
  | leaf => exact ⟨[], .leaf, rfl, by simp, by simp [Shape.root?], rfl⟩
  | node left slot right onLeft onRight =>
      cases towards : turn (verdict slot) with
      | none =>
          refine ⟨[], .node left slot right, rfl, by simp, ?_, ?_⟩
          · rintro top ⟨⟩
            exact towards
          · simp [Shape.trail, towards, Shape.root?]
      | some side =>
          cases side with
          | left =>
              obtain ⟨context, rest, descent⟩ := onLeft
              exact ⟨_, rest, descent.extend towards⟩
          | right =>
              obtain ⟨context, rest, descent⟩ := onRight
              exact ⟨_, rest, descent.extend towards⟩

/-! ## What is read off a search -/

namespace Tree.Graph

variable {graph : Graph} {order : KeyOrder} {probe : Bytes} {tree : Tree}

/-- How a probe compares with the record in a slot of a shape: a search has compared it
once on every level above. -/
def outcome (graph : Graph) (order : KeyOrder) (probe : Bytes) (shape : Shape) (slot : Slot) :
    Ordering :=
  order.compare (shape.depth slot) probe (graph.payloads slot)

/-- The comparison with the record in a slot that comes out as `verdict` says. -/
def visit (graph : Graph) (verdict : Slot → Ordering) (slot : Slot) : Visit :=
  ⟨slot, graph.payloads slot, verdict slot⟩

/-- The path that a search takes. -/
def searchPath (graph : Graph) (order : KeyOrder) (turn : Turn) (probe : Bytes) (shape : Shape) :
    Path :=
  ⟨(shape.trail (graph.outcome order probe shape) turn).map
    (graph.visit (graph.outcome order probe shape)), none⟩

theorem pathFrom_eq {parent : Option Slot} (usable : graph.Usable)
    (linked : Linked graph.headers parent shape) (nodup : shape.slots.Nodup)
    (live : ∀ slot ∈ shape.slots, slot < graph.live) (looks : tree.graph = graph)
    {asked fuel : Nat} (enough : shape.height ≤ fuel)
    (judged : ∀ slot ∈ shape.slots,
      verdict slot = order.compare (asked + shape.depth slot) probe (graph.payloads slot)) :
    tree.pathFrom order turn probe asked fuel shape.root? =
      ⟨(shape.trail verdict turn).map (graph.visit verdict), none⟩ := by
  induction shape generalizing parent asked fuel with
  | leaf => cases fuel <;> rfl
  | node left slot right onLeft onRight =>
      obtain ⟨_, leftLink, rightLink, leftLinked, rightLinked⟩ := linked
      obtain ⟨_, _, nodupLeft, nodupRight, _⟩ := Shape.nodup_slots_node.mp nodup
      have here : slot < graph.live := live slot (Shape.mem_slots_node.mpr (Or.inl rfl))
      have inLeft : ∀ inner ∈ left.slots, inner ∈ (Shape.node left slot right).slots :=
        fun inner member => Shape.mem_slots_node.mpr (Or.inr (Or.inl member))
      have inRight : ∀ inner ∈ right.slots, inner ∈ (Shape.node left slot right).slots :=
        fun inner member => Shape.mem_slots_node.mpr (Or.inr (Or.inr member))
      have judgedHere : order.compare asked probe (graph.payloads slot) = verdict slot := by
        rw [judged slot (Shape.mem_slots_node.mpr (Or.inl rfl)), Shape.depth_top, Nat.add_zero]
      cases fuel with
      | zero => simp [Shape.height] at enough
      | succ fuel =>
          simp only [Shape.height, Nat.add_le_add_iff_right, Nat.max_le] at enough
          cases towards : turn (verdict slot) with
          | none =>
              simp only [Shape.root?, pathFrom, payload_eq_ok usable here looks, judgedHere,
                towards, Shape.trail]
              rfl
          | some side =>
              simp only [Shape.root?, pathFrom, payload_eq_ok usable here looks, judgedHere,
                towards, child_eq_ok usable here looks, Shape.trail]
              cases side with
              | left =>
                  have next : (graph.headers slot).child .left = left.root? := leftLink
                  rw [next, onLeft leftLinked nodupLeft
                    (fun inner member => live inner (inLeft inner member)) enough.1]
                  · rfl
                  · intro inner member
                    have deeper : (Shape.node left slot right).depth inner = left.depth inner + 1 :=
                      Shape.depth_join .left nodup member
                    rw [judged inner (inLeft inner member), deeper, Nat.add_right_comm asked 1,
                      Nat.add_assoc]
              | right =>
                  have next : (graph.headers slot).child .right = right.root? := rightLink
                  rw [next, onRight rightLinked nodupRight
                    (fun inner member => live inner (inRight inner member)) enough.2]
                  · rfl
                  · intro inner member
                    have deeper :
                        (Shape.node left slot right).depth inner = right.depth inner + 1 :=
                      Shape.depth_join .right nodup member
                    rw [judged inner (inRight inner member), deeper, Nat.add_right_comm asked 1,
                      Nat.add_assoc]

/-- A search of a linked shape is not cut short if it may visit every slot. -/
theorem Spans.pathWithin_eq (spans : graph.Spans shape) (usable : graph.Usable)
    (looks : tree.graph = graph) {steps : Nat} (enough : graph.live ≤ steps) :
    tree.pathWithin steps order turn probe = graph.searchPath order turn probe shape := by
  have root : tree.root = shape.root? := by
    rw [← spans.root_eq, ← looks]
    rfl
  rw [pathWithin, root]
  apply pathFrom_eq usable spans.linked spans.nodup spans.live looks
  · exact Nat.le_trans shape.height_le_length (Nat.le_trans spans.length_le enough)
  · intro slot _
    rw [outcome, Nat.zero_add]

theorem Spans.path_eq (spans : graph.Spans shape) (usable : graph.Usable)
    (looks : tree.graph = graph) :
    tree.path order turn probe = graph.searchPath order turn probe shape :=
  spans.pathWithin_eq usable looks usable.live_le_walkLimit

/-- The last comparison was made at the top of the place, or right above it. -/
theorem getLast?_visits
    (descent : Descent (graph.outcome order probe shape) turn shape context rest) :
    (graph.searchPath order turn probe shape).visits.getLast? =
      (rest.root?.or (Context.parent? context)).map
        (graph.visit (graph.outcome order probe shape)) := by
  rw [searchPath, List.getLast?_map, descent.trail_eq, List.getLast?_append, List.getLast?_map,
    List.getLast?_reverse]
  cases rest.root? <;> rfl

/-- A search that stops at a slot has made one comparison on every level down to it. -/
theorem length_visits
    (descent : Descent (graph.outcome order probe shape) turn shape context rest)
    (nodup : shape.slots.Nodup) (top : rest.root? = some slot) :
    (graph.searchPath order turn probe shape).visits.length = shape.depth slot + 1 := by
  have split := descent.fill_eq
  have depth : shape.depth slot = context.length := by
    rw [← split] at nodup ⊢
    rw [Context.depth_fill nodup (Shape.mem_slots_of_root? top)]
    cases rest with
    | leaf => contradiction
    | node left middle right =>
        cases top
        rw [Shape.depth_top, Nat.add_zero]
  rw [searchPath, List.length_map, descent.trail_eq, top, depth]
  simp

theorem exact_eq_none {compared : Ordering} (stops : Turn.exact compared = none) :
    compared = .eq := by
  cases compared <;> first | rfl | contradiction

/-- An exact search finds the slot at which it stopped. -/
theorem found_eq (descent : Descent (graph.outcome order probe shape) .exact shape context rest) :
    Path.found (graph.searchPath order .exact probe shape).visits = rest.root? := by
  rw [Path.found, getLast?_visits descent]
  cases top : rest.root? with
  | some slot =>
      have equal := exact_eq_none (descent.stopped slot top)
      simp only [Option.some_or, Option.map_some, visit, equal]
  | none =>
      cases context with
      | nil => rfl
      | cons frame above =>
          have turned := descent.turned frame List.mem_cons_self
          cases compared : graph.outcome order probe shape frame.slot <;> rw [compared] at turned
          all_goals simp_all [visit, Turn.exact]

/-- An exact search that finds nothing leaves the shape at a hole. -/
theorem exit_eq (descent : Descent (graph.outcome order probe shape) .exact shape context .leaf) :
    Path.exit (graph.searchPath order .exact probe shape).visits =
      context.head?.map fun frame => (frame.slot, frame.side) := by
  rw [Path.exit, getLast?_visits descent]
  cases context with
  | nil => rfl
  | cons frame above =>
      have turned := descent.turned frame List.mem_cons_self
      rcases frame with ⟨side, slot, sibling⟩
      cases compared : graph.outcome order probe shape slot <;> rw [compared] at turned <;>
        cases turned
      all_goals simp [visit, compared, Shape.root?]

/-- A search that never stops ends in a hole. -/
theorem eq_leaf_of_onward
    (descent : Descent (graph.outcome order probe shape) turn shape context rest)
    (onward : ∀ compared, turn compared ≠ none) : rest = .leaf := by
  cases rest with
  | leaf => rfl
  | node left slot right => exact absurd (descent.stopped slot rfl) (onward _)

/-- The last comparison that came out in some way is the closest frame's for which
it did. -/
theorem lastWith_eq (descent : Descent (graph.outcome order probe shape) turn shape context .leaf)
    (compared : Ordering) :
    Path.lastWith compared (graph.searchPath order turn probe shape).visits =
      ((context.map (·.slot)).filter (graph.outcome order probe shape · = compared)).head? := by
  rw [Path.lastWith, searchPath, descent.trail_eq, List.filter_map, List.getLast?_map,
    Option.map_map, Shape.root?, Option.toList_none, List.append_nil, List.map_reverse,
    List.filter_reverse, List.getLast?_reverse]
  exact Option.map_id'

/-- The closest slot to the left of which the hole is comes right behind it. -/
theorem lastWith_above
    (descent : Descent (graph.outcome order probe shape) .above shape context .leaf) :
    Path.lastWith .lt (graph.searchPath order .above probe shape).visits =
      (Context.after context).head? := by
  rw [lastWith_eq descent]
  have turned := descent.turned
  clear descent
  induction context with
  | nil => rfl
  | cons frame above inductionHypothesis =>
      have here := turned frame List.mem_cons_self
      have onward := inductionHypothesis fun other member =>
        turned other (List.mem_cons_of_mem frame member)
      rcases frame with ⟨side, slot, sibling⟩
      cases compared : graph.outcome order probe shape slot <;> rw [compared] at here <;> cases here
      all_goals simp [compared, Context.after, onward]

/-- The closest slot to the right of which the hole is comes right before it. -/
theorem lastWith_below
    (descent : Descent (graph.outcome order probe shape) .below shape context .leaf) :
    Path.lastWith .gt (graph.searchPath order .below probe shape).visits =
      (Context.before context).getLast? := by
  rw [lastWith_eq descent]
  have turned := descent.turned
  clear descent
  induction context with
  | nil => rfl
  | cons frame above inductionHypothesis =>
      have here := turned frame List.mem_cons_self
      have onward := inductionHypothesis fun other member =>
        turned other (List.mem_cons_of_mem frame member)
      rcases frame with ⟨side, slot, sibling⟩
      cases compared : graph.outcome order probe shape slot <;> rw [compared] at here <;> cases here
      all_goals simp [compared, Context.before, onward]

end Tree.Graph

end SlabTree
