import SlabTree.Proofs.Tree.Probing
import SlabTree.Proofs.Tree.Tour

/-!
# Operations that only look

Lookups, walks and verifications change nothing about a tree and log nothing; all that they leave
in the journal is how often they compared.  On a sound tree they answer under every order, also
under one that orders nothing: a search goes down the shape wherever it is sent, and comes to one
of its slots or to a hole.
-/

namespace SlabTree.Tree

/-! ## Observing -/

/-- From this tree the action answers, changes nothing and logs nothing; it may compare. -/
def Observes {α : Type} (action : Action Tree α) (tree : Tree) : Prop :=
  ∃ answer asked, Action.Yields id action tree answer tree ⟨#[], asked⟩

section Observes

variable {α β : Type} {tree : Tree} {action : Action Tree α}

theorem Observes.map (observes : Observes action tree) (f : α → β) :
    Observes (action >>= fun answer => pure (f answer)) tree := by
  obtain ⟨answer, asked, yields⟩ := observes
  exact ⟨f answer, asked, yields.concluding (Action.yields_pure _ tree)⟩

end Observes

/-! ## Lookups under any order -/

namespace Graph.Sound

variable {tree : Tree} {shape : Shape} {order : KeyOrder} {probe : Bytes}

theorem locate_answers (sound : tree.graph.Sound shape) (order : KeyOrder) (probe : Bytes) :
    ∃ found, (tree.locate order probe).result = .ok found ∧
      ∀ slot ∈ found, slot ∈ shape.slots := by
  obtain ⟨context, rest, descent⟩ :=
    exists_descent (tree.graph.outcome order probe shape) .exact shape
  exact ⟨_, congrArg Lookup.result (locate_eq sound descent rfl), fun slot top =>
    descent.top_mem top⟩

theorem locateAbove_answers (sound : tree.graph.Sound shape) (order : KeyOrder) (probe : Bytes) :
    ∃ found, (tree.locateAbove order probe).result = .ok found ∧
      ∀ slot ∈ found, slot ∈ shape.slots := by
  obtain ⟨context, rest, descent⟩ :=
    exists_descent (tree.graph.outcome order probe shape) .above shape
  obtain rfl := eq_leaf_of_onward descent fun compared => by cases compared <;> decide
  refine ⟨_, congrArg Lookup.result (locateAbove_eq sound descent rfl), fun slot first => ?_⟩
  rw [← descent.fill_eq, Context.slots_fill]
  exact List.mem_append_right _ (List.mem_of_head? first)

theorem locateBelow_answers (sound : tree.graph.Sound shape) (order : KeyOrder) (probe : Bytes) :
    ∃ found, (tree.locateBelow order probe).result = .ok found ∧
      ∀ slot ∈ found, slot ∈ shape.slots := by
  obtain ⟨context, rest, descent⟩ :=
    exists_descent (tree.graph.outcome order probe shape) .below shape
  obtain rfl := eq_leaf_of_onward descent fun compared => by cases compared <;> decide
  refine ⟨_, congrArg Lookup.result (locateBelow_eq sound descent rfl), fun slot last => ?_⟩
  rw [← descent.fill_eq, Context.slots_fill]
  exact List.mem_append_left _ (List.mem_append_left _ (List.mem_of_getLast? last))

/-- What a lookup by key answers when its search comes to a slot of the shape, or to none. -/
theorem recordFor_result (sound : tree.graph.Sound shape) {search : Lookup (Option Slot)}
    {found : Option Slot} (result : search.result = .ok found)
    (inside : ∀ slot ∈ found, slot ∈ shape.slots) :
    (tree.recordFor probe search).result =
      .ok (if probe.length < tree.options.keySize then .error (.invalidArgument .shortKey)
        else foundOr .notFound (found.map tree.graph.payloads)) := by
  by_cases short : probe.length < tree.options.keySize
  · have checked : tree.checkKey probe = .error (.invalidArgument .shortKey) := if_pos short
    rw [recordFor, checked, if_pos short]
    rfl
  · have answered : tree.recordFor probe ⟨search.visits, .ok found⟩ = _ :=
      recordFor_eq sound rfl (Nat.le_of_not_lt short) inside
    rw [← result] at answered
    rw [if_neg short]
    exact congrArg Lookup.result answered

end Graph.Sound

end SlabTree.Tree
