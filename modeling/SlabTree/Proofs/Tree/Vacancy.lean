import SlabTree.Proofs.Arena.Requests
import SlabTree.Proofs.Tree.Resilience

/-!
# Slots that are given up

Only the last slot of an arena can be freed, so the node there moves into a slot that is given up
elsewhere.  Seen from the root this is a renaming: the tree that the links spell out is the one from
before under new names, each node with its links renamed and with the height and the record that it
had.  What is moved may be the root, a leaf or a node with children, and nothing is asked of what
stands in the vacated slot.
-/

namespace SlabTree

variable {headers other : Slot → Header} {parent : Option Slot} {shape : Shape} {slot : Slot}
  {names : Slot → Slot}

/-- The header with its links led to the new names of slots. -/
def Header.rename (names : Slot → Slot) (header : Header) : Header where
  parent := header.parent.map names
  left := header.left.map names
  right := header.right.map names
  height := header.height

theorem Header.link_rename (names : Slot → Slot) (header : Header) (link : Link) :
    (header.rename names).link link = (header.link link).map names := by
  cases link <;> rfl

theorem Shape.root?_map (names : Slot → Slot) (shape : Shape) :
    (shape.map names).root? = shape.root?.map names := by
  cases shape <;> rfl

/-- Headers that spell out a shape, and others that spell it out under new names, have the same
links but for the names. -/
theorem Linked.link_eq_map (linked : Linked headers parent shape)
    (renamed : Linked other (parent.map names) (shape.map names)) (member : slot ∈ shape.slots)
    (link : Link) :
    (other (names slot)).link link = ((headers slot).link link).map names := by
  induction shape generalizing parent with
  | leaf => contradiction
  | node left top right onLeft onRight =>
      obtain ⟨up, toLeft, toRight, leftLinked, rightLinked⟩ := linked
      obtain ⟨newUp, toNewLeft, toNewRight, leftRenamed, rightRenamed⟩ := renamed
      rcases Shape.mem_slots_node.mp member with rfl | inLeft | inRight
      · rw [Shape.root?_map, ← toLeft] at toNewLeft
        rw [Shape.root?_map, ← toRight] at toNewRight
        rw [← up] at newUp
        cases link with
        | parent => exact newUp
        | left => exact toNewLeft
        | right => exact toNewRight
      · exact onLeft leftLinked leftRenamed inLeft
      · exact onRight rightLinked rightRenamed inRight

namespace Tree

variable {tree damaged : Tree} {graph after : Graph} {slots : List Slot} {vacated : Slot}

/-- Headers after a slot was given up are those from before, under new names. -/
theorem Graph.Released.header_eq_rename (released : graph.Released after shape vacated)
    (spans : graph.Spans shape) (member : slot ∈ shape.slots) :
    after.headers (Slot.moved (graph.live - 1) vacated slot) =
      (graph.headers slot).rename (Slot.moved (graph.live - 1) vacated) := by
  apply Header.eq_of_links
  · intro link
    rw [Header.link_rename]
    exact spans.linked.link_eq_map released.spans.linked member link
  · exact released.heights slot member

/-- Slots that are listed once and are all but one of the first so many are one less. -/
theorem length_add_one_of_others {live : Nat} (nodup : slots.Nodup) (here : vacated < live)
    (others : ∀ slot, slot ∈ slots ↔ slot < live ∧ slot ≠ vacated) :
    slots.length + 1 = live := by
  have absent : vacated ∉ slots := fun member => ((others vacated).mp member).2 rfl
  have all : (vacated :: slots).Perm (List.range live) := by
    refine (List.perm_ext_iff_of_nodup (List.nodup_cons.mpr ⟨absent, nodup⟩)
      List.nodup_range).mpr fun slot => ?_
    rw [List.mem_cons, others, List.mem_range]
    lia
  simpa using all.length_eq

/-- Under their new names the slots in use are the first ones. -/
theorem mem_slots_map_moved {last : Nat} (here : vacated < last + 1)
    (others : ∀ slot, slot ∈ shape.slots ↔ slot < last + 1 ∧ slot ≠ vacated) :
    slot ∈ (shape.map (Slot.moved last vacated)).slots ↔ slot < last := by
  rw [Shape.slots_map, List.mem_map]
  constructor
  · rintro ⟨old, member, rfl⟩
    obtain ⟨low, different⟩ := (others old).mp member
    unfold Slot.moved
    split <;> lia
  · intro low
    by_cases same : slot = vacated
    · refine ⟨last, (others last).mpr (by lia), ?_⟩
      rw [Slot.moved_self, same]
    · exact ⟨slot, (others slot).mpr (by lia), Slot.moved_of_ne (Nat.ne_of_lt low)⟩

/-- What slots are called once the slot `vacated` of a tree has been given up: the node in the last
slot is found there. -/
def relocated (tree : Tree) (vacated : Slot) : Slot → Slot :=
  Slot.moved (tree.arena.live - 1) vacated

/-- Giving up a slot of a tree whose links spell out a shape over all the other live slots succeeds,
and renames one slot.  The links then spell out the same shape under new names, over exactly the
slots that are still live; every node has its links renamed and keeps its height and its record. -/
theorem renamed_of_release (usable : Usable damaged.arena.ledger damaged.options)
    (spells : Spells damaged headers shape) (live : vacated < damaged.arena.live)
    (others : ∀ slot, slot ∈ shape.slots ↔ slot < damaged.arena.live ∧ slot ≠ vacated)
    (journal : Journal) :
    ∃ final later,
      Tree.releaseSlot vacated ⟨damaged, journal⟩ = .ok (.ok ()) final ∧
        Spells final.state later (shape.map (damaged.relocated vacated)) ∧
          final.state.arena.live = damaged.arena.live - 1 ∧
          (∀ slot, slot ∈ (shape.map (damaged.relocated vacated)).slots ↔
            slot < damaged.arena.live - 1) ∧
          (∀ slot ∈ shape.slots,
            final.state.header (damaged.relocated vacated slot) =
                .ok ((headers slot).rename (damaged.relocated vacated)) ∧
              ∃ record, damaged.payload slot = .ok record ∧
                final.state.payload (damaged.relocated vacated slot) = .ok record) ∧
          final.state.arena.ledger = damaged.arena.ledger.free ∧
          final.state.options = damaged.options ∧ final.state.count = damaged.count ∧
          final.state.counters =
            if damaged.arena.live - 1 = vacated then damaged.counters
            else damaged.counters.countRelocation := by
  have spans : damaged.graph.Spans shape := spells.spans usable
  have absent : vacated ∉ shape.slots := fun member => ((others vacated).mp member).2 rfl
  obtain ⟨after, yields, released⟩ := spans.yields_releaseSlot usable live absent
    (length_add_one_of_others spells.nodup live others)
  obtain ⟨final, ran, rfl⟩ := yields damaged journal rfl
  have first : damaged.arena.live = damaged.arena.live - 1 + 1 := by lia
  have inside : ∀ slot, slot ∈ (shape.map (damaged.relocated vacated)).slots ↔
      slot < damaged.arena.live - 1 := by
    intro slot
    refine mem_slots_map_moved (Nat.lt_of_lt_of_eq live first) ?_
    rw [← first]
    exact others
  have still : final.graph.Usable := by
    show Usable final.graph.ledger final.graph.options
    rw [released.ledger, released.options]
    exact Graph.usable_free usable
  have fewer : final.graph.live = damaged.arena.live - 1 :=
    congrArg Arena.Ledger.live released.ledger
  refine ⟨_, final.graph.headers, ran, released.spans.spells still, fewer, inside, ?_,
    released.ledger, released.options, released.count, released.counters⟩
  intro slot member
  have stays : damaged.relocated vacated slot < final.graph.live := by
    rw [fewer, ← inside, Shape.slots_map]
    exact List.mem_map_of_mem member
  refine ⟨?_, damaged.graph.payloads slot,
    Graph.payload_eq_ok usable (spans.live slot member) rfl, ?_⟩
  · rw [Graph.header_eq_ok still stays rfl, ← spells.headers_eq usable slot member]
    exact congrArg Except.ok (released.header_eq_rename spans member)
  · rw [Graph.payload_eq_ok still stays rfl]
    exact congrArg Except.ok (released.payloads slot member)

/-- The top of a tree moves into a slot whose stale right link still leads to it. -/
theorem renamed_of_release_top :
    ∃ made first second raised damaged final later,
      Tree.create { maxNodes := 4, nodeSize := 2, keySize := 1 } Host.plain = .ok made ∧
        Tree.insert (.leading 1) [1, 7] ⟨made.state, {}⟩ = .ok (.ok ()) first ∧
          Tree.insert (.leading 1) [2, 8] ⟨first.state, {}⟩ = .ok (.ok ()) second ∧
            Tree.setRoot (some 1) ⟨second.state, {}⟩ = .ok () raised ∧
              Tree.setLink 1 .parent none ⟨raised.state, {}⟩ = .ok () damaged ∧
              damaged.state.link 0 .right = .ok (some 1) ∧
                Tree.releaseSlot 0 ⟨damaged.state, {}⟩ = .ok (.ok ()) final ∧
                  Spells final.state later (.node .leaf 0 .leaf) ∧
                    final.state.arena.live = 1 ∧ final.state.root = some 0 ∧
                      final.state.header 0 = .ok (Header.leaf none) ∧
                        final.state.payload 0 = .ok [2, 8] := by
  have run :
      (match Tree.create { maxNodes := 4, nodeSize := 2, keySize := 1 } Host.plain with
      | .ok made =>
        match Tree.insert (.leading 1) [1, 7] ⟨made.state, {}⟩ with
        | .ok (.ok ()) first =>
          match Tree.insert (.leading 1) [2, 8] ⟨first.state, {}⟩ with
          | .ok (.ok ()) second =>
            match Tree.setRoot (some 1) ⟨second.state, {}⟩ with
            | .ok () raised =>
              match Tree.setLink 1 .parent none ⟨raised.state, {}⟩ with
              | .ok () damaged =>
                decide (second.state.arena.live = 2 ∧ damaged.state.arena.live = 2 ∧
                  damaged.state.root = some 1 ∧
                  damaged.state.link 0 .right = .ok (some 1) ∧
                  damaged.state.header 1 = .ok (Header.leaf none) ∧
                  damaged.state.payload 1 = .ok [2, 8])
              | .error _ _ => false
            | .error _ _ => false
          | .ok (.error _) _ | .error _ _ => false
        | .ok (.error _) _ | .error _ _ => false
      | .error _ => false) = true := by
    decide +kernel
  split at run <;> try contradiction
  rename_i made created
  split at run <;> try contradiction
  rename_i first insertedFirst
  split at run <;> try contradiction
  rename_i second insertedSecond
  split at run <;> try contradiction
  rename_i raised raising
  split at run <;> try contradiction
  rename_i damaged damage
  obtain ⟨before, two, root, stale, header, payload⟩ := of_decide_eq_true run
  have reachable : Reachable second.state :=
    .insert (.insert (.create created) insertedFirst) insertedSecond
  have usable : second.state.graph.Usable := reachable.usable_of_damage rfl rfl
  obtain ⟨_, looksRaised, _⟩ := final_of_yields (Graph.yields_setRoot (some 1)) rfl raising
  have below : 1 < second.state.graph.live := Nat.lt_of_lt_of_eq (by decide) before.symm
  have written := @Graph.yields_setLink { second.state.graph with root := some 1 } 1 .parent none
    usable below Slot.storable_none
  obtain ⟨_, looks, _⟩ := final_of_yields written looksRaised damage
  have spells : Spells damaged.state (fun _ => Header.leaf none) (.node .leaf 1 .leaf) :=
    { header_eq := by
        intro slot member
        obtain rfl := List.mem_singleton.mp member
        exact header
      root_eq := root
      linked := ⟨rfl, rfl, rfl, trivial, trivial⟩
      nodup := by decide }
  have others : ∀ slot, slot ∈ (Shape.node .leaf 1 .leaf).slots ↔
      slot < damaged.state.arena.live ∧ slot ≠ 0 := by
    intro slot
    rw [two, show (Shape.node .leaf 1 .leaf).slots = [1] from rfl, List.mem_singleton]
    lia
  obtain ⟨final, later, released, spelled, fewer, _, nodes, _⟩ :=
    renamed_of_release (reachable.usable_of_damage (congrArg Graph.ledger looks)
      (congrArg Graph.options looks)) spells
      (by rw [two]; decide) others {}
  have moved : damaged.state.relocated 0 1 = 0 := by
    unfold relocated
    rw [two]
    rfl
  have top := nodes 1 (by decide)
  rw [moved, payload] at top
  obtain ⟨headerAfter, record, same, payloadAfter⟩ := top
  cases same
  have shape :
      (Shape.node .leaf 1 .leaf).map (damaged.state.relocated 0) = .node .leaf 0 .leaf := by
    simp only [Shape.map, moved]
  rw [shape] at spelled
  exact ⟨made, first, second, raised, damaged, final, later, created, insertedFirst, insertedSecond,
    raising, damage, stale, released, spelled, by rw [fewer, two], spelled.root_eq, headerAfter,
    payloadAfter⟩

end Tree

end SlabTree
