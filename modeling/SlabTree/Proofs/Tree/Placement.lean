import SlabTree.Proofs.Tree.Reachable

/-!
# Which slot has which record

A record that comes goes into the next slot.  A record that goes vacates one slot: its own,
or, where its node has two children, that of the record that comes next in order, which takes
its place first.  The record in the last slot moves into the vacated one, unless that is the
last slot itself.  All others stay in their slots, since restructuring writes into headers
only.
-/

namespace SlabTree.Tree

variable {tree : Tree}

/-- The slots below `n` and no others are live, with these records in them. -/
structure Stocked (tree : Tree) (n : Nat) (records : Slot → Bytes) : Prop where
  live_eq : tree.arena.live = n
  payload_eq : ∀ slot < n, tree.payload slot = .ok (records slot)

/-- The slot that the removal of the record in `target` vacates: the leftmost one on the right
of `target`, if there are slots on both sides of it, and otherwise `target` itself. -/
def vacatedBy (tree : Tree) (target : Slot) : Except Fault Slot := do
  let header ← tree.header target
  match header.left, header.right with
  | some _, some right => tree.leftmost right
  | _, _ => .ok target

namespace Graph

variable {graph after : Graph} {shape left right child whole : Shape} {context place : Context}
  {slot target vacated : Slot} {side : Side} {payloads : Slot → Bytes} {mends : List Mend}

theorem Sound.stocked (sound : tree.graph.Sound shape) :
    tree.Stocked tree.count tree.graph.payloads where
  live_eq := sound.count_eq.symm
  payload_eq _ below := payload_eq_ok sound.usable (Nat.lt_of_lt_of_eq below sound.count_eq) rfl

/-- Making a node one that can be unlinked copies the record of the vacated slot, if anything. -/
theorem Prepared.payloads_eq
    (prepared : Prepared graph context left target right place side child vacated payloads) :
    payloads = Function.update graph.payloads target (graph.payloads vacated) := by
  rcases prepared.which with ⟨_, rfl, same⟩ | ⟨_, _, copied⟩
  · rw [same, Function.update_eq_self]
  · exact copied

/-- The node that is made one that can be unlinked is that of the vacated slot. -/
theorem Prepared.vacatedBy_eq
    (prepared : Prepared graph context left target right place side child vacated payloads)
    (focused : graph.Focused context (.node left target right)) (usable : graph.Usable)
    (looks : tree.graph = graph) : tree.vacatedBy target = .ok vacated := by
  obtain ⟨_, leftLink, rightLink, _⟩ := focused.below
  have live : target < graph.live :=
    focused.liveBelow target (Shape.mem_slots_node.mpr (Or.inl rfl))
  simp only [vacatedBy, header_eq_ok usable live looks, Bind.bind, Except.bind, leftLink, rightLink]
  rcases prepared.which with ⟨rfl | rfl, rfl, _⟩ | ⟨onLeft, next, _⟩
  · rfl
  · cases left.root? <;> rfl
  · obtain ⟨leftTop, isLeft⟩ :=
      Option.ne_none_iff_exists'.mp (mt Shape.root?_eq_none_iff.mp onLeft)
    cases isRight : right.root? with
    | none =>
        rw [Shape.root?_eq_none_iff.mp isRight] at next
        contradiction
    | some top =>
        rw [isLeft]
        exact focused.leftmost_eq usable looks isRight next

/-- What a removal leaves in the slots that stay live: in the vacated one what was in the last,
and in all others what was there. -/
theorem Removed.payloads_eq (sound : graph.Sound shape)
    (split : Context.fill place (.join side child vacated .leaf) = shape)
    (removed : Removed graph after place child vacated payloads whole mends)
    (live : slot < after.live) :
    after.payloads slot =
      Function.update payloads vacated (payloads (graph.live - 1)) slot := by
  have unlinked : vacated ∉ whole.slots := by
    rw [removed.rebalances.slots_eq]
    exact (slots_unlinked (split ▸ sound.spans.nodup)).1
  -- Every slot that stays live is what some slot of the rebalanced shape is called now.
  have there := removed.sound.mem_slots_iff.mpr live
  rw [Shape.slots_map] at there
  obtain ⟨part, member, rfl⟩ := List.mem_map.mp there
  rw [removed.payloads part member]
  by_cases last : part = graph.live - 1
  · rw [last, Slot.moved_self, Function.update_self]
  · rw [Slot.moved_of_ne last, Function.update_of_ne (ne_of_mem_of_not_mem member unlinked)]

theorem Removed.relocations_eq
    (removed : Removed graph after place child vacated payloads whole mends) :
    after.counters.relocations =
      graph.counters.relocations + if vacated = graph.live - 1 then 0 else 1 := by
  have mended := Mend.relocations_countAll graph.counters mends
  rw [removed.counters]
  by_cases last : vacated = graph.live - 1
  · rw [if_pos last.symm, if_pos last, UInt64.add_zero]
    exact mended
  · rw [if_neg (Ne.symm last), if_neg last]
    exact congrArg (· + 1) mended

/-- What the insertion of a record leaves in the slots. -/
theorem Inserted.stocked {later : Tree} {record : Bytes}
    (inserted : Inserted graph later.graph context record whole mends)
    (sound : graph.Sound shape) :
    later.Stocked (graph.count + 1) (Function.update graph.payloads graph.count record) := by
  have stocked := inserted.sound.stocked
  have grown : later.graph.live = graph.live + 1 := congrArg Arena.Ledger.live inserted.ledger
  have counted : later.count = graph.count + 1 := by
    rw [sound.count_eq, ← grown]
    exact inserted.sound.count_eq
  rwa [counted, inserted.payloads, ← sound.count_eq] at stocked

/-- What the removal of the record in a slot leaves in the slots. -/
theorem Removed.stocked {later : Tree} (sound : graph.Sound shape)
    (split : Context.fill context (.node left target right) = shape)
    (prepared : Prepared graph context left target right place side child vacated payloads)
    (removed : Removed graph later.graph place child vacated payloads whole mends) :
    later.Stocked (graph.count - 1)
      (Function.update payloads vacated (payloads (graph.count - 1))) := by
  have stocked := removed.sound.stocked
  have shrunk : later.graph.live = graph.live - 1 := congrArg Arena.Ledger.live removed.ledger
  have counted : later.count = graph.count - 1 := by
    rw [sound.count_eq, ← shrunk]
    exact removed.sound.count_eq
  refine ⟨stocked.live_eq.trans counted, fun slot below => ?_⟩
  rw [← counted] at below
  rw [stocked.payload_eq slot below, removed.payloads_eq sound (prepared.fill_eq.trans split),
    sound.count_eq]
  exact Nat.lt_of_lt_of_eq below removed.sound.count_eq

end Graph

/-- A record that goes into a reachable tree of `n` records goes into slot `n`.  One that goes
from the slot `target` vacates a slot, whose record takes its place in `target`; then the record
in the last slot takes the place in the vacated one, and that counts as a relocation unless
these are the same.  All other records stay in their slots. -/
theorem stocked_of_reachable (reachable : Reachable tree) :
    (∀ order record journal later,
      Tree.insert order record ⟨tree, journal⟩ = .ok (.ok ()) later →
        ∃ records, tree.Stocked tree.count records ∧
          later.state.Stocked (tree.count + 1) (Function.update records tree.count record)) ∧
      ∀ order key journal later,
        Tree.remove order key ⟨tree, journal⟩ = .ok (.ok ()) later →
          ∃ records target vacated, 0 < tree.count ∧ tree.Stocked tree.count records ∧
            (tree.locate order key).result = .ok (some target) ∧
              (∃ asked, order.compare asked key (records target) = .eq) ∧
                tree.vacatedBy target = .ok vacated ∧
                  (let moved := Function.update records target (records vacated)
                  later.state.Stocked (tree.count - 1)
                    (Function.update moved vacated (moved (tree.count - 1)))) ∧
                    later.state.counters.relocations = tree.counters.relocations +
                      if vacated = tree.count - 1 then 0 else 1 := by
  obtain ⟨shape, sound⟩ := reachable.sound
  constructor
  · intro order record journal later ran
    obtain ⟨answer, after, whole, log, yields, inserts⟩ := sound.exists_inserts order record
    obtain ⟨rfl, rfl, _⟩ := final_of_yields yields rfl ran
    cases inserts with
    | inserted _ _ _ _ inserted => exact ⟨_, sound.stocked, inserted.stocked sound⟩
  · intro order key journal later ran
    obtain ⟨answer, after, whole, log, yields, removes⟩ := sound.exists_removes order key
    obtain ⟨rfl, rfl, _⟩ := final_of_yields yields rfl ran
    cases removes with
    | @removed context place left right child whole target vacated side payloads after mends _ used
        descent prepared removed =>
        have split := descent.fill_eq
        have located : (tree.locate order key).result = .ok (some target) := by
          rw [Graph.locate_eq sound descent rfl]
          rfl
        refine ⟨_, target, vacated, Nat.pos_of_ne_zero used, sound.stocked, located,
          ⟨_, Graph.exact_eq_none (descent.stopped target rfl)⟩,
          prepared.vacatedBy_eq (sound.focused split) sound.usable rfl, ?_, ?_⟩
        · rw [← prepared.payloads_eq]
          exact removed.stocked sound split prepared
        · have counted := removed.relocations_eq
          rw [← sound.count_eq] at counted
          exact counted

/-- Of two records the first goes, and the second takes its place. -/
theorem stocked_of_reachable_pair :
    ∃ made first second final,
      Tree.create { maxNodes := 4, nodeSize := 2, keySize := 1 } Host.plain = .ok made ∧
        Tree.insert (.leading 1) [7, 1] ⟨made.state, {}⟩ = .ok (.ok ()) first ∧
          Tree.insert (.leading 1) [9, 2] ⟨first.state, {}⟩ = .ok (.ok ()) second ∧
            Tree.remove (.leading 1) [7] ⟨second.state, {}⟩ = .ok (.ok ()) final ∧
              (∃ records, first.state.Stocked 1 records ∧
                second.state.Stocked 2 (Function.update records 1 [9, 2])) ∧
                second.state.vacatedBy 0 = .ok 0 ∧
                  (∃ records, second.state.Stocked 2 records ∧
                    final.state.Stocked 1 (Function.update records 0 (records 1))) ∧
                    final.state.counters.relocations = second.state.counters.relocations + 1 := by
  have run :
      (match Tree.create { maxNodes := 4, nodeSize := 2, keySize := 1 } Host.plain with
      | .ok made =>
          match Tree.insert (.leading 1) [7, 1] ⟨made.state, {}⟩ with
          | .ok (.ok ()) first =>
              match Tree.insert (.leading 1) [9, 2] ⟨first.state, {}⟩ with
              | .ok (.ok ()) second =>
                  match Tree.remove (.leading 1) [7] ⟨second.state, {}⟩ with
                  | .ok (.ok ()) _ =>
                      decide (first.state.count = 1 ∧ second.state.count = 2 ∧
                        (second.state.locate (.leading 1) [7]).result = .ok (some 0) ∧
                          second.state.vacatedBy 0 = .ok 0)
                  | _ => false
              | _ => false
          | _ => false
      | .error _ => false) = true := by
    decide +kernel
  split at run <;> try contradiction
  rename_i made created
  split at run <;> try contradiction
  rename_i first inserted
  split at run <;> try contradiction
  rename_i second more
  split at run <;> try contradiction
  rename_i final removed
  obtain ⟨one, two, located, vacates⟩ := of_decide_eq_true run
  have reachable : Reachable first.state := .insert (.create created) inserted
  obtain ⟨before, stockedBefore, stockedAfter⟩ :=
    (stocked_of_reachable reachable).1 _ _ _ _ more
  obtain ⟨records, target, vacated, _, stocked, found, _, same, moved, counted⟩ :=
    (stocked_of_reachable (reachable.insert more)).2 _ _ _ _ removed
  rw [located] at found
  cases found
  rw [vacates] at same
  cases same
  rw [one] at stockedBefore stockedAfter
  rw [two] at stocked moved counted
  rw [Function.update_eq_self] at moved
  exact ⟨made, first, second, final, created, inserted, more, removed,
    ⟨before, stockedBefore, stockedAfter⟩, vacates, ⟨records, stocked, moved⟩, counted⟩

end SlabTree.Tree
