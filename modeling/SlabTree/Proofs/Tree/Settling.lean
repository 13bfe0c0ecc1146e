import SlabTree.Proofs.Tree.Resilience

/-!
# One step of the walk to the root

The walk to the root takes one slot after the other.  What a step makes of its slot depends on the
two sides below it alone: if these are balanced, with the right heights cached in them, and differ
by no more than two levels, then the slot settles, whatever its own height says and whatever stands
elsewhere in the tree.
-/

namespace SlabTree.Tree

variable {graph after : Graph} {tree damaged final : Tree} {headers : Slot → Header}
  {context : Context} {shape left right old new settled : Shape} {mends : List Mend} {slot : Slot}

/-- A shape stands where another stood.  Apart from that only what refers to the place from above
has changed, which is the root of the tree if nothing is above. -/
structure Supplants (before after : Tree) (headers : Slot → Header) (context : Context)
    (old new : Shape) : Prop where
  spells : Spells after headers (Context.fill context new)
  root_eq : after.root = if Context.gate? context = none then new.root? else before.root
  link_eq : ∀ slot < before.arena.live, slot ∉ old.slots → ∀ link,
    after.link slot link =
      if Context.gate? context = some (slot, link) then .ok new.root? else before.link slot link
  cachedHeight_eq : ∀ slot < before.arena.live, slot ∉ old.slots →
    after.cachedHeight slot = before.cachedHeight slot
  payload_eq : ∀ slot < before.arena.live, after.payload slot = before.payload slot
  count_eq : after.count = before.count
  options_eq : after.options = before.options
  ledger_eq : after.arena.ledger = before.arena.ledger

/-- What has been replaced in a graph has been supplanted in the tree. -/
theorem Graph.Replaced.supplants (usable : damaged.graph.Usable)
    (focused : damaged.graph.Focused context old)
    (replaced : Graph.Replaced damaged.graph final.graph context old new mends) :
    Supplants damaged final final.graph.headers context old new := by
  have still := replaced.usable usable
  obtain ⟨payloads, count, options, ledger⟩ := Graph.of_contents replaced.contents
  have live : ∀ slot, slot < damaged.arena.live → slot < final.graph.live := fun slot below =>
    Nat.lt_of_lt_of_eq below replaced.live.symm
  refine ⟨(Graph.spans_fill.mpr replaced.focused).spells still, ?_, ?_, ?_, ?_, count, options,
    ledger⟩
  · refine replaced.focused.root_eq.trans ?_
    cases context with
    | nil => rfl
    | cons frame rest =>
        rw [if_neg (by simp [Context.gate?])]
        exact (Context.root?_fill_congr (by simp)).trans focused.root_eq.symm
  · intro slot below outside link
    rw [Graph.link_eq_ok still (live slot below) rfl, Graph.link_eq_ok usable below rfl,
      replaced.headers slot outside, Graph.link_repoint]
    split <;> rfl
  · intro slot below outside
    rw [Graph.cachedHeight_eq_ok still (live slot below) rfl,
      Graph.cachedHeight_eq_ok usable below rfl, replaced.height outside]
  · intro slot below
    rw [Graph.payload_eq_ok still (live slot below) rfl, Graph.payload_eq_ok usable below rfl,
      payloads]

section Parts

variable {part : Shape} (usable : tree.graph.Usable) (spells : Spells tree headers shape)
  (inside : ∀ slot ∈ part.slots, slot ∈ shape.slots) (measured : Measured headers part)

include usable spells inside measured

/-- Heights that are right in part of what a tree spells out are right in its graph. -/
theorem Spells.measured_graph : Measured tree.graph.headers part :=
  measured.congr fun slot member =>
    congrArg Header.height (spells.headers_eq usable slot (inside slot member))

/-- A part with the right heights contributes as many levels as it has. -/
theorem Spells.contribution_eq_height (low : part.height < 0x80000000) :
    tree.contribution part.root? = .ok (part.height : Int) := by
  have live : ∀ slot, part.root? = some slot → slot < tree.graph.live := fun slot top =>
    spells.live (inside slot (Shape.mem_slots_of_root? top))
  rw [Graph.contribution_eq_fitted usable rfl live,
    Graph.contribution_root? (spells.measured_graph usable inside measured)]
  exact Graph.fitted_eq_ok ⟨by omega, by omega⟩

end Parts

/-- A node settles one level above its taller side, or level with it where its sides differed by
two levels. -/
theorem height_of_settles (settles : Shape.Settles (.node left slot right) settled mends)
    (sides : (Shape.node left slot right).SidesBalanced) :
    settled.height = max left.height right.height + 1 ∨
      ((left.height : Int) - right.height).natAbs = 2 ∧
        settled.height = max left.height right.height := by
  have height := settles.height_eq sides
  simp only [Shape.height, Shape.Lopsided] at height
  omega

/-- A step of the walk goes on above the slot that it settles. -/
theorem rebalanceWithin_succ {top : Slot} {parent : Option Slot} {session later : Session Tree}
    (settles : settle slot session = .ok top later)
    (above : later.state.link top .parent = .ok parent) (fuel : Nat) :
    rebalanceWithin (fuel + 1) (some slot) session = rebalanceWithin fuel parent later := by
  rw [rebalanceWithin, Action.bind_run settles]
  apply Action.bind_run
  simp only [Action.read, above]

/-- A slot settles when both of its sides are balanced, have the right heights cached and differ by
no more than two levels.  Nothing is asked of its own height and balance or of the rest of the
tree.  A balanced shape with the right heights and the same slots in order then stands in its place,
one level taller than the taller side, or just as tall where the sides differ by two; outside of it
only the link from above changes, and the walk goes on there. -/
theorem settled_of_damage (usable : Usable damaged.arena.ledger damaged.options)
    (spells : Spells damaged headers (Context.fill context (.node left slot right)))
    (leftBalanced : left.Balanced) (rightBalanced : right.Balanced)
    (leftMeasured : Measured headers left) (rightMeasured : Measured headers right) {l r : Int}
    (onLeft : damaged.contribution left.root? = .ok l)
    (onRight : damaged.contribution right.root? = .ok r) (close : (l - r).natAbs ≤ 2)
    (journal : Journal) :
    ∃ top final later settled mends,
      settle slot ⟨damaged, journal⟩ = .ok top final ∧
        (∀ fuel, rebalanceWithin (fuel + 1) (some slot) ⟨damaged, journal⟩ =
          rebalanceWithin fuel (Context.parent? context) final) ∧
        (Shape.node left slot right).settle = (settled, mends) ∧
        Supplants damaged final.state later context (.node left slot right) settled ∧
        settled.root? = some top ∧ settled.Balanced ∧ Measured later settled ∧
        settled.slots = left.slots ++ slot :: right.slots ∧
        (final.state.contribution (some top) = .ok (max l r + 1) ∨
          (l - r).natAbs = 2 ∧ final.state.contribution (some top) = .ok (max l r)) ∧
        final.state.counters = Mend.countAll damaged.counters mends ∧
        final.journal = journal ++ Mend.logAll mends := by
  have inside : ∀ part, part ∈ (Shape.node left slot right).slots →
      part ∈ (Context.fill context (.node left slot right)).slots := fun _ member =>
    Context.mem_slots_fill.mpr (Or.inr member)
  have inLeft : ∀ part ∈ left.slots, part ∈ (Context.fill context (.node left slot right)).slots :=
    fun part member => inside part (Shape.mem_slots_node.mpr (Or.inr (Or.inl member)))
  have inRight : ∀ part ∈ right.slots,
      part ∈ (Context.fill context (.node left slot right)).slots :=
    fun part member => inside part (Shape.mem_slots_node.mpr (Or.inr (Or.inr member)))
  have focused : damaged.graph.Focused context (.node left slot right) :=
    Graph.spans_fill.mp (spells.spans usable)
  have sides : (Shape.node left slot right).SidesBalanced := ⟨leftBalanced, rightBalanced⟩
  have low := sides.height_le (Nat.lt_of_le_of_lt (Nat.le_add_left _ _) (focused.length_lt usable))
  have lowSides : max left.height right.height + 1 ≤ 46 := low
  rw [spells.contribution_eq_height usable inLeft leftMeasured (by omega)] at onLeft
  rw [spells.contribution_eq_height usable inRight rightMeasured (by omega)] at onRight
  cases onLeft
  cases onRight
  obtain ⟨settled, mends, settle_eq, settles⟩ :=
    @Shape.settles_settle slot _ _ leftBalanced rightBalanced (by omega) (by omega)
  obtain ⟨after, top, yields, isTop, replaced, measured⟩ := focused.settles usable
    ⟨spells.measured_graph usable inLeft leftMeasured,
      spells.measured_graph usable inRight rightMeasured⟩ settles rfl
    (Nat.le_trans low (by decide))
  obtain ⟨final, ran, rfl⟩ := yields damaged journal rfl
  have still := replaced.usable usable
  have supplants := replaced.supplants usable focused
  have above : final.link top .parent = .ok (Context.parent? context) := by
    rw [Graph.link_eq_ok still
      (replaced.focused.liveBelow top (Shape.mem_slots_of_root? isTop)) rfl]
    exact congrArg Except.ok (replaced.focused.below.parent_of_root? isTop)
  have height := height_of_settles settles sides
  have contributes := supplants.spells.contribution_eq_height still
    (fun _ member => Context.mem_slots_fill.mpr (Or.inr member)) measured (by omega)
  rw [isTop] at contributes
  refine ⟨top, _, final.graph.headers, settled, mends, ran, rebalanceWithin_succ ran above,
    settle_eq, supplants, isTop, settles.balanced sides, measured, settles.slots_eq, ?_,
    replaced.counters, rfl⟩
  rw [contributes]
  rcases height with taller | ⟨lopsided, level⟩
  · left
    rw [taller]
    congr 1
    omega
  · right
    refine ⟨lopsided, ?_⟩
    rw [level]
    congr 1
    omega

/-- A root whose left child is gone, as in a removal: the right child leans to neither side, and
the slot that is lifted stands one level higher than before. -/
theorem settled_of_damage_level :
    ∃ made first second third fourth fifth damaged final later,
      Tree.create { maxNodes := 5, nodeSize := 1, keySize := 1 } Host.plain = .ok made ∧
        Tree.insert (.leading 1) [2] ⟨made.state, {}⟩ = .ok (.ok ()) first ∧
        Tree.insert (.leading 1) [1] ⟨first.state, {}⟩ = .ok (.ok ()) second ∧
        Tree.insert (.leading 1) [4] ⟨second.state, {}⟩ = .ok (.ok ()) third ∧
        Tree.insert (.leading 1) [3] ⟨third.state, {}⟩ = .ok (.ok ()) fourth ∧
        Tree.insert (.leading 1) [5] ⟨fourth.state, {}⟩ = .ok (.ok ()) fifth ∧
        Tree.setLink 0 .left none ⟨fifth.state, {}⟩ = .ok () damaged ∧
        damaged.state.contribution none = .ok 0 ∧ damaged.state.contribution (some 2) = .ok 2 ∧
        Tree.settle 0 ⟨damaged.state, {}⟩ = .ok 2 final ∧
        Supplants damaged.state final.state later []
          (.node .leaf 0 (.node (.node .leaf 3 .leaf) 2 (.node .leaf 4 .leaf)))
          (.node (.node .leaf 0 (.node .leaf 3 .leaf)) 2 (.node .leaf 4 .leaf)) ∧
        final.state.contribution (some 2) = .ok 3 := by
  have run :
      (match Tree.create { maxNodes := 5, nodeSize := 1, keySize := 1 } Host.plain with
      | .ok made =>
        match Tree.insert (.leading 1) [2] ⟨made.state, {}⟩ with
        | .ok (.ok ()) first =>
          match Tree.insert (.leading 1) [1] ⟨first.state, {}⟩ with
          | .ok (.ok ()) second =>
            match Tree.insert (.leading 1) [4] ⟨second.state, {}⟩ with
            | .ok (.ok ()) third =>
              match Tree.insert (.leading 1) [3] ⟨third.state, {}⟩ with
              | .ok (.ok ()) fourth =>
                match Tree.insert (.leading 1) [5] ⟨fourth.state, {}⟩ with
                | .ok (.ok ()) fifth =>
                  match Tree.setLink 0 .left none ⟨fifth.state, {}⟩ with
                  | .ok () damaged =>
                    match Tree.settle 0 ⟨damaged.state, {}⟩ with
                    | .ok top final =>
                      decide (fifth.state.arena.live = 5 ∧ damaged.state.root = some 0 ∧
                        damaged.state.header 0 = .ok ⟨none, none, some 2, 2⟩ ∧
                        damaged.state.header 2 = .ok ⟨some 0, some 3, some 4, 1⟩ ∧
                        damaged.state.header 3 = .ok ⟨some 2, none, none, 0⟩ ∧
                        damaged.state.header 4 = .ok ⟨some 2, none, none, 0⟩ ∧
                        damaged.state.contribution (some 2) = .ok 2 ∧
                        final.state.contribution (some 2) = .ok 3)
                    | _ => false
                  | _ => false
                | _ => false
              | _ => false
            | _ => false
          | _ => false
        | _ => false
      | .error _ => false) = true := by
    decide +kernel
  split at run <;> try contradiction
  rename_i made created
  split at run <;> try contradiction
  rename_i first insertedFirst
  split at run <;> try contradiction
  rename_i second insertedSecond
  split at run <;> try contradiction
  rename_i third insertedThird
  split at run <;> try contradiction
  rename_i fourth insertedFourth
  split at run <;> try contradiction
  rename_i fifth insertedFifth
  split at run <;> try contradiction
  rename_i damaged damage
  split at run <;> try contradiction
  rename_i top final settling
  obtain ⟨five, root, atRoot, atTop, onLeft, onRight, taller, risen⟩ := of_decide_eq_true run
  have reachable : Reachable fifth.state :=
    .insert (.insert (.insert (.insert (.insert (.create created) insertedFirst) insertedSecond)
      insertedThird) insertedFourth) insertedFifth
  have usable : fifth.state.graph.Usable := reachable.usable_of_damage rfl rfl
  have below : 0 < fifth.state.graph.live := Nat.lt_of_lt_of_eq (by decide) five.symm
  have written := @Graph.yields_setLink fifth.state.graph 0 .left none usable below
    Slot.storable_none
  obtain ⟨_, looks, _⟩ := final_of_yields written rfl damage
  let headers : Slot → Header := fun slot =>
    if slot = 0 then ⟨none, none, some 2, 2⟩
    else if slot = 2 then ⟨some 0, some 3, some 4, 1⟩
    else ⟨some 2, none, none, 0⟩
  let right : Shape := .node (.node .leaf 3 .leaf) 2 (.node .leaf 4 .leaf)
  have spells : Spells damaged.state headers (Context.fill [] (.node .leaf 0 right)) :=
    { header_eq := by
        have all : ∀ slot ∈ [0, 3, 2, 4], damaged.state.header slot = .ok (headers slot) := by
          simp only [List.forall_mem_cons, List.not_mem_nil, false_imp_iff, implies_true, and_true]
          exact ⟨atRoot, onLeft, atTop, onRight⟩
        exact all
      root_eq := root
      linked := by simp [Context.fill, Linked, headers, right, Shape.root?]
      nodup := by decide }
  obtain ⟨top, _, later, settled, mends, ran, _, came, supplants, isTop, _⟩ :=
    settled_of_damage (reachable.usable_of_damage (congrArg Graph.ledger looks)
      (congrArg Graph.options looks)) spells trivial (by simp [right, Shape.Balanced, Shape.height])
      trivial (by simp [Measured, headers, right, Shape.height]) rfl taller (by decide) {}
  rw [settling] at ran
  cases ran
  cases came
  cases isTop
  exact ⟨made, first, second, third, fourth, fifth, damaged, final, later, created, insertedFirst,
    insertedSecond, insertedThird, insertedFourth, insertedFifth, damage, rfl, taller, settling,
    supplants, risen⟩

end SlabTree.Tree
