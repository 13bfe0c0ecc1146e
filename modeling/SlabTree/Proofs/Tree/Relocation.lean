import SlabTree.Proofs.Tree.Soundness
import SlabTree.Tree.Update

/-!
# Relocation

When a slot has been vacated, the node in the last slot moves there and the last
slot is freed.  To the shape this is a renaming of one slot; heights and records
go along.
-/

namespace SlabTree

/-- What a slot is called after the node in `source` moved to `target`. -/
def Slot.moved (source target slot : Slot) : Slot :=
  if slot = source then target else slot

theorem Slot.moved_self (source target : Slot) : Slot.moved source target source = target :=
  if_pos rfl

theorem Slot.moved_of_ne {source target slot : Slot} (different : slot ≠ source) :
    Slot.moved source target slot = slot :=
  if_neg different

namespace Tree.Graph

variable {graph : Graph} {context : Context} {shape left right : Shape}
  {source target slot : Slot}

/-! ## Moving a node -/

/-- The graph after a node moved and its neighbours were told. -/
def move (graph : Graph) (source target : Slot) (gate : Option (Slot × Link))
    (left right : Option Slot) : Graph :=
  { (((graph.copySlot source target).repoint gate (some target)).adopt left (some target)).adopt
      right (some target) with
    counters := graph.counters.countRelocation }

theorem link_move {gate : Option (Slot × Link)} {leftChild rightChild : Option Slot}
    (link : Link) :
    ((graph.move source target gate leftChild rightChild).headers slot).link link =
      if rightChild = some slot ∧ link = .parent then some target
      else if leftChild = some slot ∧ link = .parent then some target
      else if gate = some (slot, link) then some target
      else ((if slot = target then graph.headers source else graph.headers slot).link link) := by
  refine (link_adopt link).trans ?_
  rw [link_adopt, link_repoint]
  simp only [copySlot, setPayload, setHeader, Function.update_apply]

theorem height_move {gate : Option (Slot × Link)} {leftChild rightChild : Option Slot} :
    ((graph.move source target gate leftChild rightChild).headers slot).height =
      (if slot = target then graph.headers source else graph.headers slot).height := by
  refine height_adopt.trans ?_
  rw [height_adopt, height_repoint]
  simp only [copySlot, setPayload, setHeader, Function.update_apply]

/-- The new slot takes over the links of the old one. -/
theorem link_move_target (notAbove : target ∉ Context.slots context)
    (notBelow : target ∉ (Shape.node left source right).slots) (link : Link) :
    ((graph.move source target (Context.gate? context) left.root? right.root?).headers
      target).link link = (graph.headers source).link link := by
  rw [Shape.mem_slots_node, not_or, not_or] at notBelow
  obtain ⟨_, notLeft, notRight⟩ := notBelow
  have notLeftTop : ¬(left.root? = some target ∧ link = .parent) := fun both =>
    notLeft (Shape.mem_slots_of_root? both.1)
  have notRightTop : ¬(right.root? = some target ∧ link = .parent) := fun both =>
    notRight (Shape.mem_slots_of_root? both.1)
  have notGate : Context.gate? context ≠ some (target, link) := fun leads =>
    notAbove (Context.mem_slots_of_gate? leads)
  rw [link_move, if_neg notRightTop, if_neg notLeftTop, if_neg notGate, if_pos rfl]

/-- Of the slots below, only the children are told where the node is now. -/
theorem Focused.link_move_below {part : Slot}
    (focused : graph.Focused context (.node left source right))
    (below : part ∈ left.slots ∨ part ∈ right.slots) (notTarget : part ≠ target) (link : Link) :
    ((graph.move source target (Context.gate? context) left.root? right.root?).headers
      part).link link =
        if right.root? = some part ∧ link = .parent then some target
        else if left.root? = some part ∧ link = .parent then some target
        else (graph.headers part).link link := by
  have notGate : Context.gate? context ≠ some (part, link) := fun leads =>
    focused.apart (Context.mem_slots_of_gate? leads) (Shape.mem_slots_node.mpr (Or.inr below))
  rw [link_move, if_neg notGate, if_neg notTarget]

theorem Focused.linked_move (focused : graph.Focused context (.node left source right))
    (notAbove : target ∉ Context.slots context)
    (notBelow : target ∉ (Shape.node left source right).slots) :
    Linked (graph.move source target (Context.gate? context) left.root? right.root?).headers
      (Context.parent? context) (.node left target right) := by
  obtain ⟨up, leftLink, rightLink, leftLinked, rightLinked⟩ := focused.below
  obtain ⟨_, _, nodupLeft, nodupRight, apart⟩ := Shape.nodup_slots_node.mp focused.nodupBelow
  have own := @link_move_target graph context left right source target notAbove notBelow
  rw [Shape.mem_slots_node, not_or, not_or] at notBelow
  obtain ⟨_, notLeft, notRight⟩ := notBelow
  refine ⟨(own .parent).trans up, (own .left).trans leftLink, (own .right).trans rightLink,
    leftLinked.rehang nodupLeft ?_, rightLinked.rehang nodupRight ?_⟩
  · intro part member link
    have notRightTop : ¬(right.root? = some part ∧ link = .parent) := fun both =>
      apart member (Shape.mem_slots_of_root? both.1)
    rw [focused.link_move_below (Or.inl member) (ne_of_mem_of_not_mem member notLeft),
      if_neg notRightTop]
  · intro part member link
    have notLeftTop : ¬(left.root? = some part ∧ link = .parent) := fun both =>
      apart (Shape.mem_slots_of_root? both.1) member
    rw [focused.link_move_below (Or.inr member) (ne_of_mem_of_not_mem member notRight),
      if_neg notLeftTop]

/-- The moved node takes the place of the old one. -/
theorem Focused.move (focused : graph.Focused context (.node left source right))
    (notAbove : target ∉ Context.slots context)
    (notBelow : target ∉ (Shape.node left source right).slots) (live : target < graph.live) :
    (graph.move source target (Context.gate? context) left.root? right.root?).Focused context
      (.node left target right) := by
  have kept : ∀ {part}, part ∈ (Shape.node left target right).slots →
      part = target ∨ part ∈ (Shape.node left source right).slots := by
    intro part member
    rcases Shape.mem_slots_node.mp member with own | below
    · exact Or.inl own
    · exact Or.inr (Shape.mem_slots_node.mpr (Or.inr below))
  refine focused.exchange rfl ?_ (focused.linked_move notAbove notBelow) ?_ ?_ ?_ (Nat.le_refl _)
  · intro part member link
    have notTarget : part ≠ target := ne_of_mem_of_not_mem member notAbove
    have notTop : ∀ child : Shape, child = left ∨ child = right →
        ¬(child.root? = some part ∧ link = .parent) := by
      intro child side both
      have inside := Shape.mem_slots_of_root? both.1
      apply focused.apart member
      rcases side with rfl | rfl
      · exact Shape.mem_slots_node.mpr (Or.inr (Or.inl inside))
      · exact Shape.mem_slots_node.mpr (Or.inr (Or.inr inside))
    rw [link_move, if_neg (notTop right (Or.inr rfl)), if_neg (notTop left (Or.inl rfl)),
      if_neg notTarget]
    rfl
  · obtain ⟨_, _, nodupLeft, nodupRight, apart⟩ := Shape.nodup_slots_node.mp focused.nodupBelow
    rw [Shape.mem_slots_node, not_or, not_or] at notBelow
    exact Shape.nodup_slots_node.mpr ⟨notBelow.2.1, notBelow.2.2, nodupLeft, nodupRight, apart⟩
  · intro part above member
    rcases kept member with rfl | below
    · exact notAbove above
    · exact focused.apart above below
  · intro part member
    rcases kept member with rfl | below
    · exact live
    · exact focused.liveBelow part below

theorem Focused.yields_relocate (focused : graph.Focused context (.node left source right))
    (usable : graph.Usable) (notAbove : target ∉ Context.slots context)
    (live : target < graph.live) :
    Action.Yields Tree.graph (relocate source target) graph ()
      (graph.move source target (Context.gate? context) left.root? right.root?)
      ⟨#[.relocate source target], 0⟩ := by
  obtain ⟨up, leftLink, rightLink, _⟩ := focused.below
  have sourceMember : source ∈ (Shape.node left source right).slots := by simp [Shape.slots]
  have leftLive : ∀ top, left.root? = some top → top < graph.live := fun top here =>
    focused.liveBelow top (by simp [Shape.slots, Shape.mem_slots_of_root? here])
  have rightLive : ∀ top, right.root? = some top → top < graph.live := fun top here =>
    focused.liveBelow top (by simp [Shape.slots, Shape.mem_slots_of_root? here])
  have copied : (graph.copySlot source target).headers target = graph.headers source :=
    Function.update_self target _ graph.headers
  have above : Context.Linked (graph.copySlot source target).headers context (some source) := by
    refine focused.above.congr fun part member link => ?_
    have notTarget : part ≠ target := by
      rintro rfl
      exact notAbove member
    exact congrArg (fun header => Header.link header link)
      (Function.update_of_ne notTarget _ graph.headers)
  have storable : Slot.Storable (some target) := Slot.storable_some (usable.lt_nil live)
  refine Action.Yields.silently (yields_copySlot usable
    (focused.liveBelow source sourceMember) live) ?_
  refine Action.Yields.silently (yields_header usable live) ?_
  rw [copied, up, leftLink, rightLink]
  refine Action.Yields.silently (yields_replaceChild usable above
    (fun member => focused.apart member sourceMember) focused.liveAbove storable) ?_
  refine Action.Yields.silently (yields_adopt usable leftLive storable) ?_
  refine Action.Yields.silently (yields_adopt usable rightLive storable) ?_
  exact Action.Yields.concluding (Action.yields_log _) (yields_updateCounters _)

/-! ## Giving up a slot -/

/-- What is logged when a slot is given up, before the last slot is freed. -/
def relocationLog (last vacated : Slot) : Journal :=
  if last = vacated then {} else ⟨#[.relocate last vacated], 0⟩

@[simp]
theorem comparisons_relocationLog (last vacated : Slot) :
    (relocationLog last vacated).comparisons = 0 := by
  unfold relocationLog
  split <;> rfl

/-- The slot `vacated` was given up: the node in the last slot, if it is another
one, is in `vacated` now. -/
structure Released (before after : Graph) (shape : Shape) (vacated : Slot) : Prop where
  spans : after.Spans (shape.map (Slot.moved (before.live - 1) vacated))
  heights : ∀ slot ∈ shape.slots,
    (after.headers (Slot.moved (before.live - 1) vacated slot)).height =
      (before.headers slot).height
  payloads : ∀ slot ∈ shape.slots,
    after.payloads (Slot.moved (before.live - 1) vacated slot) = before.payloads slot
  count : after.count = before.count
  options : after.options = before.options
  ledger : after.ledger = before.ledger.free
  counters : after.counters =
    if before.live - 1 = vacated then before.counters else before.counters.countRelocation

theorem usable_free (usable : graph.Usable) : graph.free.Usable :=
  ⟨usable.ledger.free, usable.elementSize_eq, usable.capacity_eq, usable.maxNodes_lt⟩

theorem headers_free_of_ne (kept : slot ≠ graph.live - 1) :
    graph.free.headers slot = graph.headers slot :=
  Function.update_of_ne kept _ _

theorem payloads_free_of_ne (kept : slot ≠ graph.live - 1) :
    graph.free.payloads slot = graph.payloads slot :=
  Function.update_of_ne kept _ _

/-- Freeing the last slot leaves a shape alone that does not use it. -/
theorem Spans.free (spans : graph.Spans shape) (unused : graph.live - 1 ∉ shape.slots) :
    graph.free.Spans shape := by
  refine ⟨spans.root_eq, spans.linked.congr ?_, spans.nodup, ?_⟩
  · exact fun slot member link => congrArg (fun header => Header.link header link)
      (headers_free_of_ne (ne_of_mem_of_not_mem member unused))
  · intro slot member
    have live := spans.live slot member
    have notLast : slot ≠ graph.live - 1 := ne_of_mem_of_not_mem member unused
    change slot < graph.live - 1
    lia

/-- Moving the node in the last slot renames its slot in the shape. -/
theorem map_fill_moved (focused : graph.Focused context (.node left source right))
    (target : Slot) :
    (Context.fill context (.node left source right)).map (Slot.moved source target) =
      Context.fill context (.node left target right) := by
  have sourceMember : source ∈ (Shape.node left source right).slots := by simp [Shape.slots]
  obtain ⟨sourceLeft, sourceRight, _⟩ := Shape.nodup_slots_node.mp focused.nodupBelow
  have aboveKept : ∀ slot ∈ Context.slots context, Slot.moved source target slot = slot := by
    intro slot member
    apply Slot.moved_of_ne
    rintro rfl
    exact focused.apart member sourceMember
  have leftKept : ∀ slot ∈ left.slots, Slot.moved source target slot = slot := fun slot member =>
    Slot.moved_of_ne (ne_of_mem_of_not_mem member sourceLeft)
  have rightKept : ∀ slot ∈ right.slots, Slot.moved source target slot = slot := fun slot member =>
    Slot.moved_of_ne (ne_of_mem_of_not_mem member sourceRight)
  rw [Context.map_fill aboveKept, Shape.map, Shape.map_eq_self leftKept,
    Shape.map_eq_self rightKept, Slot.moved_self]

/-- Giving up the last slot frees it. -/
theorem Spans.released_last (spans : graph.Spans shape) (unused : graph.live - 1 ∉ shape.slots) :
    Released graph graph.free shape (graph.live - 1) := by
  have kept : ∀ slot ∈ shape.slots,
      Slot.moved (graph.live - 1) (graph.live - 1) slot = slot := fun slot member =>
    Slot.moved_of_ne (ne_of_mem_of_not_mem member unused)
  refine ⟨?_, ?_, ?_, rfl, rfl, rfl, (if_pos rfl).symm⟩
  · rw [Shape.map_eq_self kept]
    exact spans.free unused
  · intro slot member
    rw [kept slot member]
    exact congrArg Header.height (headers_free_of_ne (ne_of_mem_of_not_mem member unused))
  · intro slot member
    rw [kept slot member]
    exact payloads_free_of_ne (ne_of_mem_of_not_mem member unused)

/-- Giving up another slot moves the node in the last slot there. -/
theorem Focused.released {vacated : Slot}
    (focused : graph.Focused context (.node left (graph.live - 1) right))
    (absent : vacated ∉ (Context.fill context (.node left (graph.live - 1) right)).slots)
    (live : vacated < graph.live) :
    Released graph (graph.move (graph.live - 1) vacated (Context.gate? context) left.root?
      right.root?).free (Context.fill context (.node left (graph.live - 1) right)) vacated := by
  have lastMember : graph.live - 1 ∈ (Shape.node left (graph.live - 1) right).slots := by
    simp [Shape.slots]
  have different : vacated ≠ graph.live - 1 := by
    rintro rfl
    exact absent (Context.mem_slots_fill.mpr (Or.inr lastMember))
  have notAbove : vacated ∉ Context.slots context := fun member =>
    absent (Context.mem_slots_fill.mpr (Or.inl member))
  have notBelow : vacated ∉ (Shape.node left (graph.live - 1) right).slots := fun member =>
    absent (Context.mem_slots_fill.mpr (Or.inr member))
  have moved := focused.move notAbove notBelow live
  have renamed := map_fill_moved focused vacated
  refine ⟨?_, ?_, ?_, rfl, rfl, rfl, (if_neg different.symm).symm⟩
  · rw [renamed]
    refine (spans_fill.mpr moved).free fun member => ?_
    rw [← renamed, Shape.slots_map, List.mem_map] at member
    obtain ⟨slot, inside, became⟩ := member
    by_cases last : slot = graph.live - 1
    · rw [last, Slot.moved_self] at became
      exact different became
    · rw [Slot.moved_of_ne last] at became
      exact last became
  · intro slot member
    by_cases last : slot = graph.live - 1
    · rw [last, Slot.moved_self, headers_free_of_ne, height_move, if_pos rfl]
      exact different
    · rw [Slot.moved_of_ne last, headers_free_of_ne, height_move,
        if_neg (ne_of_mem_of_not_mem member absent)]
      exact last
  · intro slot member
    by_cases last : slot = graph.live - 1
    · rw [last, Slot.moved_self, payloads_free_of_ne]
      · exact Function.update_self vacated _ graph.payloads
      · exact different
    · rw [Slot.moved_of_ne last, payloads_free_of_ne]
      · exact Function.update_of_ne (ne_of_mem_of_not_mem member absent) _ graph.payloads
      · exact last

/-- Giving up a slot of a tree that uses all others succeeds. -/
theorem Spans.yields_releaseSlot {vacated : Slot} (spans : graph.Spans shape)
    (usable : graph.Usable) (live : vacated < graph.live) (absent : vacated ∉ shape.slots)
    (dense : shape.slots.length + 1 = graph.live) :
    ∃ after, Action.Yields Tree.graph (releaseSlot vacated) graph (.ok ()) after
        (relocationLog (graph.live - 1) vacated ++
          Arena.freeLog graph.ledger) ∧
      Released graph after shape vacated := by
  have used : graph.live ≠ 0 := by lia
  have last : ∀ tree : Tree, tree.graph = graph → tree.arena.last? = some (graph.live - 1) := by
    rintro tree rfl
    exact if_neg used
  by_cases same : graph.live - 1 = vacated
  · subst same
    refine ⟨graph.free, ?_, spans.released_last absent⟩
    refine Action.Yields.silently (Action.yields_view (some (graph.live - 1)) last) ?_
    simp only [if_true, relocationLog, Journal.empty_append]
    exact yields_free usable used
  · have all : graph.live - 1 ∈ vacated :: shape.slots := by
      refine mem_of_full (List.nodup_cons.mpr ⟨absent, spans.nodup⟩) ?_ dense (by lia)
      intro slot member
      rcases List.mem_cons.mp member with rfl | inside
      · exact live
      · exact spans.live slot inside
    obtain ⟨context, left, right, rfl⟩ :=
      Context.exists_fill_of_mem (List.mem_of_ne_of_mem same all)
    have focused := spans_fill.mp spans
    refine ⟨_, ?_, focused.released absent live⟩
    refine Action.Yields.silently (Action.yields_view (some (graph.live - 1)) last) ?_
    simp only [if_neg same, relocationLog]
    exact Action.Yields.bind (focused.yields_relocate usable
      (fun member => absent (Context.mem_slots_fill.mpr (Or.inl member))) live)
      (yields_free usable used)

end Tree.Graph

end SlabTree
