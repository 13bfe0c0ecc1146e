import SlabTree.Proofs.Tree.Likeness
import SlabTree.Workload

/-!
# Trees in the mirror

What is written once for either side behaves on one as it does on the other.  Under an order and
under its reverse, the same insertions lead to two trees of which one is the other in the mirror:
each slot has the same record, the same slot above and the same height, but its children have
changed sides.  What comes first in one comes last in the other.
-/

namespace SlabTree

/-! ## Shapes in the mirror -/

/-- The header with its children exchanged. -/
def Header.mirror (header : Header) : Header where
  parent := header.parent
  left := header.right
  right := header.left
  height := header.height

namespace Shape

/-- The shape with left and right exchanged everywhere. -/
def mirror : Shape → Shape
  | leaf => leaf
  | node left slot right => node right.mirror slot left.mirror

variable {side : Side} {near far shape : Shape} {slot : Slot}

theorem mirror_join :
    (join side near slot far).mirror = join side.flip near.mirror slot far.mirror := by
  cases side <;> rfl

@[simp]
theorem root?_mirror : shape.mirror.root? = shape.root? := by
  cases shape <;> rfl

@[simp]
theorem height_mirror : shape.mirror.height = shape.height := by
  induction shape with
  | leaf => rfl
  | node left slot right onLeft onRight =>
      rw [mirror, height, height, onLeft, onRight, Nat.max_comm]

@[simp]
theorem slots_mirror : shape.mirror.slots = shape.slots.reverse := by
  induction shape with
  | leaf => rfl
  | node left slot right onLeft onRight => simp [mirror, slots, onLeft, onRight]

theorem end?_mirror : shape.mirror.end? side = shape.end? side.flip := by
  cases side
  · exact (congrArg List.head? slots_mirror).trans List.head?_reverse
  · exact (congrArg List.getLast? slots_mirror).trans List.getLast?_reverse

theorem parts_mirror :
    shape.mirror.parts side.flip =
      (shape.parts side).map fun part => (part.1.mirror, part.2.1, part.2.2.mirror) := by
  cases shape <;> cases side <;> rfl

/-- Exchanging the sides leaves every slot on its level. -/
theorem depth_mirror (nodup : shape.slots.Nodup) (member : slot ∈ shape.slots) :
    shape.mirror.depth slot = shape.depth slot := by
  induction shape with
  | leaf => contradiction
  | node left top right onLeft onRight =>
      obtain ⟨_, _, nodupLeft, nodupRight, _⟩ := nodup_slots_node.mp nodup
      have nodupMirror : (node left top right).mirror.slots.Nodup := by
        rw [slots_mirror]
        exact List.nodup_reverse.mpr nodup
      rcases mem_slots_node.mp member with rfl | below | below
      · rw [mirror, depth_top, depth_top]
      · have inMirror : slot ∈ left.mirror.slots := by simpa using below
        have one : (node left top right).depth slot = left.depth slot + 1 :=
          depth_join .left nodup below
        have other : (node left top right).mirror.depth slot = left.mirror.depth slot + 1 :=
          depth_join .right nodupMirror inMirror
        rw [one, other, onLeft nodupLeft below]
      · have inMirror : slot ∈ right.mirror.slots := by simpa using below
        have one : (node left top right).depth slot = right.depth slot + 1 :=
          depth_join .right nodup below
        have other : (node left top right).mirror.depth slot = right.mirror.depth slot + 1 :=
          depth_join .left nodupMirror inMirror
        rw [one, other, onRight nodupRight below]

end Shape

section Headers

variable {headers : Slot → Header} {parent : Option Slot} {shape : Shape}

theorem Linked.mirror (linked : Linked headers parent shape) :
    Linked (fun slot => (headers slot).mirror) parent shape.mirror := by
  induction shape generalizing parent with
  | leaf => trivial
  | node left slot right onLeft onRight =>
      obtain ⟨up, toLeft, toRight, inLeft, inRight⟩ := linked
      exact ⟨up, toRight.trans Shape.root?_mirror.symm, toLeft.trans Shape.root?_mirror.symm,
        onRight inRight, onLeft inLeft⟩

theorem Measured.mirror (measured : Measured headers shape) :
    Measured (fun slot => (headers slot).mirror) shape.mirror := by
  induction shape with
  | leaf => trivial
  | node left slot right onLeft onRight =>
      obtain ⟨height, inLeft, inRight⟩ := measured
      refine ⟨height.trans ?_, onRight inRight, onLeft inLeft⟩
      rw [Shape.height_mirror, Shape.height_mirror, Nat.max_comm]

end Headers

/-! ## Contexts in the mirror -/

/-- The frame with the hole on the other side. -/
def Frame.mirror (frame : Frame) : Frame :=
  ⟨frame.side.flip, frame.slot, frame.sibling.mirror⟩

theorem Frame.fill_mirror (frame : Frame) (shape : Shape) :
    frame.mirror.fill shape.mirror = (frame.fill shape).mirror :=
  Shape.mirror_join.symm

namespace Context

variable {context : Context} {shape : Shape}

/-- The context with left and right exchanged everywhere. -/
def mirror (context : Context) : Context :=
  context.map Frame.mirror

theorem fill_mirror (context : Context) (shape : Shape) :
    fill context.mirror shape.mirror = (fill context shape).mirror := by
  induction context generalizing shape with
  | nil => rfl
  | cons frame rest inductionHypothesis =>
      have onward := inductionHypothesis (frame.fill shape)
      rw [← Frame.fill_mirror] at onward
      exact onward

theorem before_mirror (context : Context) : before context.mirror = (after context).reverse := by
  induction context with
  | nil => rfl
  | cons frame rest inductionHypothesis =>
      have onward : before (rest.map Frame.mirror) = (after rest).reverse := inductionHypothesis
      rcases frame with ⟨side, slot, sibling⟩
      cases side <;> simp [mirror, Frame.mirror, Side.flip, before, after, onward]

theorem after_mirror (context : Context) : after context.mirror = (before context).reverse := by
  induction context with
  | nil => rfl
  | cons frame rest inductionHypothesis =>
      have onward : after (rest.map Frame.mirror) = (before rest).reverse := inductionHypothesis
      rcases frame with ⟨side, slot, sibling⟩
      cases side <;> simp [mirror, Frame.mirror, Side.flip, before, after, onward]

end Context

/-! ## Mending in the mirror -/

namespace Mend

/-- The mend on the other side. -/
def mirror : Mend → Mend
  | single side slot pivot => single side.flip slot pivot
  | double side slot pivot top => double side.flip slot pivot top

/-- Mends count on one side as they do on the other. -/
theorem countAll_mirror (counters : Counters) (mends : List Mend) :
    countAll counters (mends.map mirror) = countAll counters mends := by
  induction mends generalizing counters with
  | nil => rfl
  | cons mend rest inductionHypothesis =>
      have same : count counters mend.mirror = count counters mend := by cases mend <;> rfl
      exact (congrArg (countAll · (rest.map mirror)) same).trans
        (inductionHypothesis (count counters mend))

end Mend

/-- A mended shape and its mends, with left and right exchanged. -/
def mirrored (mended : Shape × List Mend) : Shape × List Mend :=
  (mended.1.mirror, mended.2.map Mend.mirror)

namespace Shape

variable {side : Side} {near far shape : Shape} {slot : Slot}

theorem mend_mirror :
    mend side.flip near.mirror slot far.mirror = mirrored (mend side near slot far) := by
  rw [mend, mend, parts_mirror]
  cases near.parts side with
  | none => simp only [Option.map_none, mirrored, mirror_join, List.map_nil]
  | some part =>
      obtain ⟨outer, pivot, inner⟩ := part
      simp only [Option.map_some, height_mirror, parts_mirror]
      split
      · simp only [mirrored, mirror_join, List.map_cons, List.map_nil, Mend.mirror]
      · cases inner.parts side with
        | none => simp only [Option.map_none, mirrored, mirror_join, List.map_nil]
        | some part =>
            simp only [Option.map_some, mirrored, mirror_join, List.map_cons, List.map_nil,
              Mend.mirror]

theorem settle_mirror : shape.mirror.settle = mirrored shape.settle := by
  cases shape with
  | leaf => rfl
  | node left slot right =>
      simp only [mirror, settle, height_mirror]
      by_cases leftHeavy : left.height = right.height + 2
      · rw [if_neg (by omega), if_pos leftHeavy, if_pos leftHeavy]
        exact @mend_mirror .left left right slot
      · by_cases rightHeavy : right.height = left.height + 2
        · rw [if_pos rightHeavy, if_neg leftHeavy, if_pos rightHeavy]
          exact @mend_mirror .right right left slot
        · rw [if_neg rightHeavy, if_neg leftHeavy, if_neg leftHeavy, if_neg rightHeavy]
          rfl

end Shape

theorem Context.rebalance_mirror (context : Context) (shape : Shape) :
    rebalance context.mirror shape.mirror = mirrored (rebalance context shape) := by
  induction context generalizing shape with
  | nil => rfl
  | cons frame rest inductionHypothesis =>
      have settled : (frame.mirror.fill shape.mirror).settle =
          mirrored (frame.fill shape).settle := by
        rw [frame.fill_mirror, Shape.settle_mirror]
      have onward : rebalance (rest.map Frame.mirror) (frame.fill shape).settle.1.mirror =
          mirrored (rebalance rest (frame.fill shape).settle.1) := inductionHypothesis _
      simp only [mirror, List.map_cons, rebalance, settled]
      simp only [mirrored] at onward ⊢
      rw [onward, List.map_append]

/-! ## Searches in the mirror -/

namespace Turn

variable {compared : Ordering}

theorem exact_swap : exact compared.swap = (exact compared).map Side.flip := by
  cases compared <;> rfl

theorem above_swap : above compared.swap = (below compared).map Side.flip := by
  cases compared <;> rfl

theorem below_swap : below compared.swap = (above compared).map Side.flip := by
  cases compared <;> rfl

end Turn

section Searches

variable {verdict other : Slot → Ordering} {turn opposite : Turn} {shape rest : Shape}
  {context : Context}

theorem Shape.trail_mirror
    (turned : ∀ slot ∈ shape.slots, opposite (other slot) = (turn (verdict slot)).map Side.flip) :
    shape.mirror.trail other opposite = shape.trail verdict turn := by
  induction shape with
  | leaf => rfl
  | node left slot right onLeft onRight =>
      rw [mirror, trail, trail, turned slot (by simp [slots]),
        onLeft fun inner member => turned inner (by simp [slots, member]),
        onRight fun inner member => turned inner (by simp [slots, member])]
      cases turn (verdict slot) with
      | none => rfl
      | some side => cases side <;> rfl

/-- A search that turns to the other side everywhere ends in the mirror of the place. -/
theorem Descent.mirror (descent : Descent verdict turn shape context rest)
    (turned : ∀ slot ∈ shape.slots, opposite (other slot) = (turn (verdict slot)).map Side.flip) :
    Descent other opposite shape.mirror context.mirror rest.mirror where
  fill_eq := by rw [Context.fill_mirror, descent.fill_eq]
  turned := by
    intro frame member
    obtain ⟨original, inside, rfl⟩ := List.mem_map.mp member
    exact (turned original.slot (descent.frame_mem inside)).trans
      (congrArg (Option.map Side.flip) (descent.turned original inside))
  stopped := by
    intro slot top
    rw [Shape.root?_mirror] at top
    exact (turned slot (descent.top_mem top)).trans
      (congrArg (Option.map Side.flip) (descent.stopped slot top))
  trail_eq := by
    rw [Shape.trail_mirror turned, descent.trail_eq, Shape.root?_mirror, Context.mirror,
      ← List.map_reverse, List.map_map]
    rfl

end Searches

namespace Tree

namespace Graph

/-! ## Trees in the mirror -/

/-- The second graph is the first in the mirror, with the same record in each slot. -/
structure Reflected (shape : Shape) (first second : Graph) : Prop extends Abreast first second where
  sound : first.Sound shape
  alsoSound : second.Sound shape.mirror
  payloads_eq : ∀ slot ∈ shape.slots, second.payloads slot = first.payloads slot

namespace Reflected

variable {first second : Graph} {shape rest : Shape} {context : Context} {order : KeyOrder}
  {record probe : Bytes} {slot : Slot}

theorem header_eq (reflected : Reflected shape first second) (live : slot < first.live) :
    second.headers slot = (first.headers slot).mirror := by
  refine reflected.alsoSound.spans.linked.header_eq reflected.alsoSound.measured
    reflected.sound.spans.linked.mirror reflected.sound.measured.mirror ?_
  rw [Shape.slots_mirror]
  exact List.mem_reverse.mpr (reflected.sound.mem_slots_iff.mpr live)

/-- Under the reverse order comparisons come out the other way around. -/
theorem outcome_eq (reflected : Reflected shape first second) (order : KeyOrder) (probe : Bytes)
    (member : slot ∈ shape.slots) :
    second.outcome order.reverse probe shape.mirror slot =
      (first.outcome order probe shape slot).swap := by
  rw [outcome, outcome, Shape.depth_mirror reflected.sound.spans.nodup member,
    reflected.payloads_eq slot member]
  rfl

/-- Under the reverse order searches go the other way. -/
theorem descent {turn opposite : Turn} (reflected : Reflected shape first second)
    (swapped : ∀ compared, opposite compared.swap = (turn compared).map Side.flip)
    (descent : Descent (first.outcome order probe shape) turn shape context rest) :
    Descent (second.outcome order.reverse probe shape.mirror) opposite shape.mirror context.mirror
      rest.mirror :=
  descent.mirror fun slot member => by
    rw [reflected.outcome_eq order probe member, swapped]

/-- Mirror images stay so when both ask their hosts for the pages of one slot more. -/
theorem commit (reflected : Reflected shape first second)
    (room : first.count ≠ first.options.maxNodes) : Reflected shape first.commit second.commit :=
  have alsoRoom : second.count ≠ second.options.maxNodes := by
    rwa [reflected.count_eq reflected.sound reflected.alsoSound, reflected.options_eq]
  { toAbreast := reflected.toAbreast.commit
    sound := reflected.sound.commit (reflected.sound.slot_left room)
    alsoSound := reflected.alsoSound.commit (reflected.alsoSound.slot_left alsoRoom)
    payloads_eq := reflected.payloads_eq }

/-- The same insertion under the reverse order comes out alike and leaves the mirror image. -/
theorem insert (reflected : Reflected shape first second) (order : KeyOrder) (record : Bytes) :
    ∃ answer after later log notes total,
      Action.Yields Tree.graph (Tree.insert order record) first answer after log ∧
        Action.Yields Tree.graph (Tree.insert order.reverse record) second answer later notes ∧
          Reflected total after later := by
  obtain ⟨context, rest, descent⟩ := exists_descent (first.outcome order record shape) .exact shape
  have opposite := reflected.descent (fun _ => Turn.exact_swap) descent
  rcases reflected.inserts reflected.sound reflected.alsoSound rfl descent opposite
      Shape.root?_mirror with
    ⟨refusal, log, notes, yields, alsoYields⟩ | ⟨room, refusal, log, notes, yields, alsoYields⟩ |
      ⟨rfl, _, after, whole, mends, log, later, total, others, notes, yields, inserted, alsoYields,
        alsoInserted⟩
  · exact ⟨_, first, second, log, notes, shape, yields, alsoYields, reflected⟩
  · exact ⟨_, first.commit, second.commit, log, notes, shape, yields, alsoYields,
      reflected.commit room⟩
  · -- The hole in the mirror, filled alike, rebalances to the shape in the mirror.
    have image := Context.rebalance_mirror context (.node .leaf first.live .leaf)
    rw [inserted.rebalances.rebalance_eq] at image
    have rebalanced := alsoInserted.rebalances.rebalance_eq
    rw [reflected.live_eq] at rebalanced
    cases rebalanced.symm.trans image
    refine ⟨_, after, later, log, notes, whole, yields, alsoYields,
      reflected.inserted inserted alsoInserted fun counters => Mend.countAll_mirror counters mends,
      inserted.sound, alsoInserted.sound, ?_⟩
    intro slot member
    rw [inserted.payloads, alsoInserted.payloads, reflected.live_eq]
    by_cases new : slot = first.live
    · rw [new, Function.update_self, Function.update_self]
    · rw [Function.update_of_ne new, Function.update_of_ne new]
      apply reflected.payloads_eq
      rw [inserted.slots_eq] at member
      rw [← descent.fill_eq, Context.slots_fill]
      simpa [Shape.slots, new] using member

end Reflected

end Graph

/-- Both answer, and the same. -/
def Same {α : Type} (first second : Except Fault α) : Prop :=
  ∃ answer, first = .ok answer ∧ second = .ok answer

/-- In both trees each live slot has the same record, the same slot above and the same height, and
what is on its left in one is on its right in the other. -/
structure Mirrored (tree opposite : Tree) : Prop where
  root_eq : opposite.root = tree.root
  live_eq : opposite.arena.live = tree.arena.live
  count_eq : opposite.count = tree.count
  counters_eq : opposite.counters = tree.counters
  header_eq : ∀ slot < tree.arena.live, ∃ header,
    tree.header slot = .ok header ∧ opposite.header slot = .ok header.mirror
  payload_eq : ∀ slot < tree.arena.live, Same (tree.payload slot) (opposite.payload slot)

/-- What one tree answers about one direction, the other answers about the other. -/
structure Opposed (order : KeyOrder) (tree opposite : Tree) : Prop where
  first_last : Same tree.first opposite.last
  last_first : Same tree.last opposite.first
  next_prev : ∀ key, Same (tree.next order key).result (opposite.prev order.reverse key).result
  prev_next : ∀ key, Same (tree.prev order key).result (opposite.next order.reverse key).result

namespace Graph.Reflected

variable {tree opposite : Tree} {shape : Shape} {order : KeyOrder} {probe : Bytes}
  {search find : Lookup (Option Slot)}

theorem mirrored (reflected : Reflected shape tree.graph opposite.graph) :
    Mirrored tree opposite where
  root_eq := by
    rw [reflected.alsoSound.root_eq rfl, reflected.sound.root_eq rfl, Shape.root?_mirror]
  live_eq := reflected.live_eq
  count_eq := reflected.count_eq reflected.sound reflected.alsoSound
  counters_eq := reflected.counters_eq
  header_eq slot live := by
    have alsoLive : slot < opposite.graph.live := by rwa [reflected.live_eq]
    refine ⟨_, header_eq_ok reflected.sound.usable live rfl, ?_⟩
    rw [header_eq_ok reflected.alsoSound.usable alsoLive rfl, reflected.header_eq live]
  payload_eq slot live := by
    have alsoLive : slot < opposite.graph.live := by rwa [reflected.live_eq]
    refine ⟨_, payload_eq_ok reflected.sound.usable live rfl, ?_⟩
    rw [payload_eq_ok reflected.alsoSound.usable alsoLive rfl,
      reflected.payloads_eq slot (reflected.sound.mem_slots_iff.mpr live)]

/-- A search for what is above meets the search for what is below in the mirror. -/
theorem meet_above (reflected : Reflected shape tree.graph opposite.graph) (order : KeyOrder)
    (probe : Bytes) :
    Meet shape (tree.locateAbove order probe) (opposite.locateBelow order.reverse probe) := by
  obtain ⟨found, told, inside⟩ := reflected.sound.locateAbove_answers order probe
  obtain ⟨context, rest, descent⟩ :=
    exists_descent (tree.graph.outcome order probe shape) .above shape
  obtain rfl := eq_leaf_of_onward descent fun compared => by cases compared <;> decide
  refine ⟨found, told, ?_, inside⟩
  rw [← told, locateAbove_eq reflected.sound descent rfl,
    locateBelow_eq reflected.alsoSound (reflected.descent (fun _ => Turn.below_swap) descent) rfl,
    Context.before_mirror, List.getLast?_reverse]

theorem meet_below (reflected : Reflected shape tree.graph opposite.graph) (order : KeyOrder)
    (probe : Bytes) :
    Meet shape (tree.locateBelow order probe) (opposite.locateAbove order.reverse probe) := by
  obtain ⟨found, told, inside⟩ := reflected.sound.locateBelow_answers order probe
  obtain ⟨context, rest, descent⟩ :=
    exists_descent (tree.graph.outcome order probe shape) .below shape
  obtain rfl := eq_leaf_of_onward descent fun compared => by cases compared <;> decide
  refine ⟨found, told, ?_, inside⟩
  rw [← told, locateBelow_eq reflected.sound descent rfl,
    locateAbove_eq reflected.alsoSound (reflected.descent (fun _ => Turn.above_swap) descent) rfl,
    Context.after_mirror, List.head?_reverse]

/-- The records in slots of the shape are the same in both trees. -/
theorem map_payloads {found : Option Slot} (reflected : Reflected shape tree.graph opposite.graph)
    (inside : ∀ slot ∈ found, slot ∈ shape.slots) :
    found.map opposite.graph.payloads = found.map tree.graph.payloads :=
  Option.map_congr fun slot here => reflected.payloads_eq slot (inside slot here)

/-- Lookups by key whose searches meet are answered with the same record. -/
theorem recordFor_same (reflected : Reflected shape tree.graph opposite.graph)
    (meet : Meet shape search find) :
    Same (tree.recordFor probe search).result (opposite.recordFor probe find).result := by
  obtain ⟨found, told, alsoTold, inside⟩ := meet
  have options_eq : opposite.options = tree.options := reflected.options_eq
  refine ⟨_, reflected.sound.recordFor_result told inside, ?_⟩
  rw [reflected.alsoSound.recordFor_result alsoTold, options_eq, reflected.map_payloads inside]
  intro slot here
  rw [Shape.slots_mirror]
  exact List.mem_reverse.mpr (inside slot here)

/-- The record at one end is the one at the other end in the mirror. -/
theorem extreme_same (reflected : Reflected shape tree.graph opposite.graph) (side : Side) :
    Same (tree.extreme side) (opposite.extreme side.flip) := by
  refine ⟨_, reflected.sound.extreme_eq rfl side, ?_⟩
  rw [reflected.alsoSound.extreme_eq rfl, Shape.end?_mirror, Side.flip_flip]
  cases isEnd : shape.end? side with
  | none => rfl
  | some slot =>
      have same := reflected.payloads_eq slot (Shape.mem_slots_of_end? isEnd)
      simp only [Option.elim_some, same]

theorem opposed (reflected : Reflected shape tree.graph opposite.graph) (order : KeyOrder) :
    Opposed order tree opposite where
  first_last := reflected.extreme_same .left
  last_first := reflected.extreme_same .right
  next_prev key := reflected.recordFor_same (reflected.meet_above order key)
  prev_next key := reflected.recordFor_same (reflected.meet_below order key)

end Graph.Reflected

/-- The same insertions side by side, under an order and under its reverse. -/
theorem tandem_insertAll (order : KeyOrder) (records : List Bytes) :
    Action.Tandem (fun tree opposite => ∃ shape, Graph.Reflected shape tree.graph opposite.graph)
      Eq (insertAll order records) (insertAll order.reverse records) := by
  exact Action.tandem_mapM fun record _ => tandem_of_kin fun shape first second reflected =>
    reflected.insert order record

/-- Whatever was inserted into two new trees with equal options, on hosts that refuse the same and
only hand out other contents, into one under an order and into the other under its reverse: every
insertion came out the same, and one tree is now the other in the mirror, so that what is first,
last, next and previous in one is last, first, previous and next in the other. -/
theorem mirrored_of_run {options : Options} {host : Host} {contents : Nat → Nat → UInt8}
    {made opposite : Session Tree} (created : Tree.create options host = .ok made)
    (alsoCreated : Tree.create options { host with contents } = .ok opposite) (order : KeyOrder)
    (records : List Bytes) :
    ∃ answers final last, insertAll order records made = .ok answers final ∧
      insertAll order.reverse records opposite = .ok answers last ∧
        Mirrored final.state last.state ∧ Opposed order final.state last.state := by
  have reflected : Graph.Reflected .leaf made.state.graph opposite.state.graph :=
    ⟨Graph.abreast_of_create created alsoCreated, (create_sound created).1,
      (create_sound alsoCreated).1, fun slot member => absurd member List.not_mem_nil⟩
  obtain ⟨answers, _, final, last, ran, alsoRan, rfl, shape, still⟩ :=
    tandem_insertAll order records made opposite ⟨.leaf, reflected⟩
  exact ⟨answers, final, last, ran, alsoRan, still.mirrored, still.opposed order⟩

/-- Three records of which the last belongs between the others, which takes a double rotation. -/
theorem mirrored_of_run_between :
    ∃ made final last,
      Tree.create { maxNodes := 4, nodeSize := 2, keySize := 1 } Host.plain = .ok made ∧
        insertAll (.leading 1) [[1, 0], [3, 0], [2, 0]] made =
          .ok [.ok (), .ok (), .ok ()] final ∧
        insertAll (KeyOrder.leading 1).reverse [[1, 0], [3, 0], [2, 0]] made =
          .ok [.ok (), .ok (), .ok ()] last ∧
        final.state.root = some 2 ∧ final.state.counters.doubleRotations = 1 ∧
          Mirrored final.state last.state ∧ Opposed (.leading 1) final.state last.state := by
  have run :
      (match Tree.create { maxNodes := 4, nodeSize := 2, keySize := 1 } Host.plain with
      | .ok made =>
          match insertAll (.leading 1) [[1, 0], [3, 0], [2, 0]] made with
          | .ok answers final =>
              decide (answers = [.ok (), .ok (), .ok ()] ∧ final.state.root = some 2 ∧
                final.state.counters.doubleRotations = 1)
          | _ => false
      | .error _ => false) = true := by
    decide +kernel
  split at run <;> try contradiction
  rename_i made created
  split at run <;> try contradiction
  rename_i answers final ran
  obtain ⟨rfl, root, turned⟩ := of_decide_eq_true run
  obtain ⟨_, _, last, alsoRan, reversed, mirrored, opposed⟩ :=
    mirrored_of_run created created (.leading 1) [[1, 0], [3, 0], [2, 0]]
  cases ran.symm.trans alsoRan
  exact ⟨made, final, last, created, ran, reversed, root, turned, mirrored, opposed⟩

end Tree

end SlabTree
