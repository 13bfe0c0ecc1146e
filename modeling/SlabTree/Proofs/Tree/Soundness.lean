import SlabTree.Proofs.Tree.Descent
import SlabTree.Proofs.Tree.Rebalancing

/-!
# Sound trees

In a sound tree the links span a balanced shape over exactly the live slots, every
cached height is right, and as many records are counted as slots are live.  The
records are those in the slots of the shape, in order.
-/

namespace SlabTree.Tree.Graph

/-- Structure, heights and numbers of a tree fit together. -/
structure Sound (graph : Graph) (shape : Shape) : Prop where
  usable : graph.Usable
  spans : graph.Spans shape
  length_eq : shape.slots.length = graph.live
  measured : Measured graph.headers shape
  balanced : shape.Balanced
  count_eq : graph.count = graph.live

/-- The records in the slots of a shape, in order. -/
def records (graph : Graph) (shape : Shape) : List Bytes :=
  shape.slots.map graph.payloads

namespace Sound

variable {graph : Graph} {shape rest : Shape} {context : Context} {slot : Slot}

/-- The slots of the shape are the live ones. -/
theorem mem_slots_iff (sound : graph.Sound shape) : slot ∈ shape.slots ↔ slot < graph.live :=
  ⟨sound.spans.live slot, mem_of_full sound.spans.nodup sound.spans.live sound.length_eq⟩

theorem length_records (sound : graph.Sound shape) :
    (graph.records shape).length = graph.count := by
  rw [records, List.length_map, sound.length_eq, sound.count_eq]

/-- A sound tree, taken apart at a place. -/
theorem focused (sound : graph.Sound shape) (split : Context.fill context rest = shape) :
    graph.Focused context rest := by
  subst split
  exact spans_fill.mp sound.spans

theorem measured_parts (sound : graph.Sound shape) (split : Context.fill context rest = shape) :
    Context.Measured graph.headers context ∧ Measured graph.headers rest := by
  subst split
  exact Context.measured_of_fill sound.measured

/-- Asking the host for pages leaves the tree as it is. -/
theorem commit (sound : graph.Sound shape) (room : graph.live < graph.ledger.capacity) :
    graph.commit.Sound shape where
  usable := ⟨sound.usable.ledger.commit room, sound.usable.elementSize_eq,
    sound.usable.capacity_eq, sound.usable.maxNodes_lt⟩
  spans := ⟨sound.spans.root_eq, sound.spans.linked, sound.spans.nodup, sound.spans.live⟩
  length_eq := sound.length_eq
  measured := sound.measured
  balanced := sound.balanced
  count_eq := sound.count_eq

end Sound

/-! ## Searches of sound trees -/

section Searches

variable {graph : Graph} {shape : Shape} {context : Context} {order : KeyOrder} {probe : Bytes}
  {tree : Tree}

/-- A search for what is above ends right before it. -/
theorem locateAbove_eq (sound : graph.Sound shape)
    (descent : Descent (graph.outcome order probe shape) .above shape context .leaf)
    (looks : tree.graph = graph) :
    tree.locateAbove order probe =
      ⟨(graph.searchPath order .above probe shape).visits,
        .ok (Context.after context).head?⟩ := by
  rw [locateAbove, Lookup.ofPath, sound.spans.path_eq sound.usable looks, ← lastWith_above descent]
  rfl

/-- A search for what is below ends right behind it. -/
theorem locateBelow_eq (sound : graph.Sound shape)
    (descent : Descent (graph.outcome order probe shape) .below shape context .leaf)
    (looks : tree.graph = graph) :
    tree.locateBelow order probe =
      ⟨(graph.searchPath order .below probe shape).visits,
        .ok (Context.before context).getLast?⟩ := by
  rw [locateBelow, Lookup.ofPath, sound.spans.path_eq sound.usable looks, ← lastWith_below descent]
  rfl

end Searches

/-! ## Searches as actions -/

/-- The comparisons of a search. -/
def comparisons (graph : Graph) (order : KeyOrder) (turn : Turn) (probe : Bytes)
    (shape : Shape) : Journal :=
  ⟨#[], (graph.searchPath order turn probe shape).visits.length⟩

variable {graph : Graph} {α : Type}

/-- A lookup that answers is made, and its comparisons are noted. -/
theorem yields_consult {lookup : Tree → Lookup α} {visits : List Visit} {answer : α}
    (told : ∀ tree : Tree, tree.graph = graph → lookup tree = ⟨visits, .ok answer⟩) :
    Action.Yields Tree.graph (consult lookup) graph answer graph ⟨#[], visits.length⟩ := by
  have looks := Action.yields_view (⟨visits, .ok answer⟩ : Lookup α) told
  refine looks.silently ?_
  exact Action.Yields.concluding (Action.yields_noteComparisons visits.length)
    (Action.yields_read answer fun _ _ => rfl)

end SlabTree.Tree.Graph
