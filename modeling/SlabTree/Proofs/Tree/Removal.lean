import SlabTree.Proofs.Tree.Relocation
import SlabTree.Proofs.Tree.Traversal

/-!
# Removal

A node with at most one child gives its place to the child, and the shape is
rebalanced from there.  A node with two children takes over the record of the slot
that comes next in order, which has no left child and is unlinked instead.  The slot
that was vacated is given up in the end.  None of this takes more steps than slots are
live.
-/

namespace SlabTree.Tree.Graph

open Context (Rebalances)

variable {graph : Graph} {shape left right child whole : Shape} {context place : Context}
  {slot vacated : Slot} {side : Side} {mends : List Mend} {order : KeyOrder} {key : Bytes}
  {steps : Nat}

/-! ## Making a node one that can be unlinked -/

/-- The node in `slot` was made one that can be unlinked: now `vacated` is to be
unlinked, which has no child but `child`. -/
structure Prepared (graph : Graph) (context : Context) (left : Shape) (slot : Slot)
    (right : Shape) (place : Context) (side : Side) (child : Shape) (vacated : Slot)
    (payloads : Slot → Bytes) : Prop where
  fill_eq : Context.fill place (.join side child vacated .leaf) =
    Context.fill context (.node left slot right)
  which : (left = .leaf ∨ right = .leaf) ∧ vacated = slot ∧ payloads = graph.payloads ∨
    left ≠ .leaf ∧ right.slots.head? = some vacated ∧
      payloads = Function.update graph.payloads slot (graph.payloads vacated)
  records_eq : (Context.before place ++ child.slots ++ Context.after place).map payloads =
    (Context.before context ++ left.slots).map graph.payloads ++
      (right.slots ++ Context.after context).map graph.payloads

/-- A node with one child at most can be unlinked as it is. -/
theorem prepared_self (few : left = .leaf ∨ right = .leaf) :
    ∃ side child, Prepared graph context left slot right context side child slot
      graph.payloads := by
  rcases few with rfl | rfl
  · refine ⟨.right, right, rfl, Or.inl ⟨Or.inl rfl, rfl, rfl⟩, ?_⟩
    simp [Shape.slots]
  · refine ⟨.left, left, rfl, Or.inl ⟨Or.inr rfl, rfl, rfl⟩, ?_⟩
    simp [Shape.slots]

/-- A node with two children takes over the record of the slot that comes next. -/
theorem prepared_next (nodup : (Context.fill context (.node left slot right)).slots.Nodup)
    (onLeft : left ≠ .leaf) (onRight : right ≠ .leaf) :
    ∃ place child vacated, Prepared graph context left slot right place .right child vacated
      (Function.update graph.payloads slot (graph.payloads vacated)) := by
  obtain ⟨inner, vacated, child, rfl, nothing⟩ := Shape.exists_first onRight
  have slots : (Context.fill inner (.node .leaf vacated child)).slots =
      vacated :: (child.slots ++ Context.after inner) := by
    rw [Context.slots_fill_node, nothing]
    rfl
  refine ⟨inner ++ ⟨.right, slot, left⟩ :: context, child, vacated, ?_,
    Or.inr ⟨onLeft, ?_, rfl⟩, ?_⟩
  · rw [Context.fill_append]
    rfl
  · rw [slots]
    rfl
  · rw [Context.slots_fill_node] at nodup
    obtain ⟨absent, _⟩ := List.nodup_cons.mp (List.nodup_middle.mp nodup)
    rw [slots] at absent ⊢
    simp only [List.mem_append, List.mem_cons, not_or] at absent
    obtain ⟨⟨notBefore, notLeft⟩, ⟨_, notChild, notInner⟩, notAfter⟩ := absent
    simp only [Context.before_append, Context.after_append, Context.before, Context.after, nothing,
      List.map_append, List.map_cons, Function.update_self,
      map_update_of_notMem notBefore, map_update_of_notMem notLeft,
      map_update_of_notMem notChild, map_update_of_notMem notInner, map_update_of_notMem notAfter,
      List.append_assoc, List.cons_append, List.nil_append, List.append_nil]

/-- With one child at most, nothing needs to be done. -/
theorem Focused.yields_prepareRemoval_self
    (focused : graph.Focused context (.node left slot right)) (usable : graph.Usable)
    (few : left = .leaf ∨ right = .leaf) :
    Action.Yields Tree.graph (prepareRemoval steps slot) graph slot graph {} := by
  obtain ⟨_, leftLink, rightLink, _⟩ := focused.below
  have live : slot < graph.live := focused.liveBelow slot (Shape.mem_slots_node.mpr (Or.inl rfl))
  refine Action.Yields.silently (yields_header usable live) ?_
  rw [leftLink, rightLink]
  rcases few with rfl | rfl
  · exact Action.yields_pure slot graph
  · cases left.root? <;> exact Action.yields_pure slot graph

/-- Going to the left from the child on the right leads to the slot that comes next. -/
theorem Focused.outermostWithin_eq {tree : Tree} {top : Slot}
    (focused : graph.Focused context (.node left slot right)) (usable : graph.Usable)
    (looks : tree.graph = graph) (isRight : right.root? = some top)
    (next : right.slots.head? = some vacated) (enough : graph.live ≤ steps) :
    tree.outermostWithin .left steps top = .ok vacated := by
  obtain ⟨_, _, _, _, rightLinked⟩ := focused.below
  have rightLive : ∀ part ∈ right.slots, part < graph.live := fun part member =>
    focused.liveBelow part (Shape.mem_slots_node.mpr (Or.inr (Or.inr member)))
  have rightFew : right.slots.length ≤ graph.live := by
    have few := focused.length_le
    simp only [Shape.slots, List.length_append, List.length_cons] at few
    omega
  obtain ⟨last, isFirst, walk⟩ := Graph.outermostWithin_eq .left usable rightLinked rightLive looks
    isRight (Nat.le_trans right.height_le_length (Nat.le_trans rightFew enough))
  rw [walk, Option.some.inj (next.symm.trans isFirst)]

theorem Focused.leftmost_eq {tree : Tree} {top : Slot}
    (focused : graph.Focused context (.node left slot right)) (usable : graph.Usable)
    (looks : tree.graph = graph) (isRight : right.root? = some top)
    (next : right.slots.head? = some vacated) : tree.leftmost top = .ok vacated := by
  have sameLive : tree.arena.live = graph.live := by
    rw [← looks]
    rfl
  exact focused.outermostWithin_eq usable looks isRight next
    (sameLive ▸ Nat.le_succ tree.arena.live)

/-- With two children, the record of the next slot is copied. -/
theorem Focused.yields_prepareRemoval_next
    (focused : graph.Focused context (.node left slot right)) (usable : graph.Usable)
    (onLeft : left ≠ .leaf) (onRight : right ≠ .leaf)
    (next : right.slots.head? = some vacated) (enough : graph.live ≤ steps) :
    Action.Yields Tree.graph (prepareRemoval steps slot) graph vacated
      { graph with payloads := Function.update graph.payloads slot (graph.payloads vacated) }
      {} := by
  obtain ⟨_, leftLink, rightLink, _⟩ := focused.below
  have live : slot < graph.live := focused.liveBelow slot (Shape.mem_slots_node.mpr (Or.inl rfl))
  have nextLive : vacated < graph.live := focused.liveBelow vacated
    (Shape.mem_slots_node.mpr (Or.inr (Or.inr (List.mem_of_head? next))))
  obtain ⟨leftTop, isLeft⟩ := Option.ne_none_iff_exists'.mp (mt Shape.root?_eq_none_iff.mp onLeft)
  obtain ⟨rightTop, isRight⟩ :=
    Option.ne_none_iff_exists'.mp (mt Shape.root?_eq_none_iff.mp onRight)
  refine Action.Yields.silently (yields_header usable live) ?_
  rw [leftLink, rightLink, isLeft, isRight]
  refine Action.Yields.silently (Action.yields_read vacated fun tree looks =>
    focused.outermostWithin_eq usable looks isRight next enough) ?_
  refine Action.Yields.silently (Action.yields_view graph.options.nodeSize ?_) ?_
  · rintro tree rfl
    rfl
  exact (yields_copyPayload usable nextLive live).answering vacated

/-- Preparing the removal of a node reads and copies, but unlinks nothing yet. -/
theorem Sound.yields_prepareRemoval (sound : graph.Sound shape) (enough : graph.live ≤ steps)
    (split : Context.fill context (.node left slot right) = shape) :
    ∃ place side child vacated payloads,
      Prepared graph context left slot right place side child vacated payloads ∧
      Action.Yields Tree.graph (prepareRemoval steps slot) graph vacated
        { graph with payloads := payloads } {} := by
  have focused := sound.focused split
  by_cases few : left = .leaf ∨ right = .leaf
  · obtain ⟨side, child, prepared⟩ := prepared_self few
    exact ⟨context, side, child, slot, graph.payloads, prepared,
      focused.yields_prepareRemoval_self sound.usable few⟩
  · rw [not_or] at few
    obtain ⟨place, child, vacated, prepared⟩ :=
      prepared_next (split ▸ sound.spans.nodup) few.1 few.2
    have next : right.slots.head? = some vacated := by
      rcases prepared.which with ⟨one, _⟩ | ⟨_, next, _⟩
      · exact absurd one (not_or.mpr few)
      · exact next
    exact ⟨place, .right, child, vacated, _, prepared,
      focused.yields_prepareRemoval_next sound.usable few.1 few.2 next enough⟩

/-! ## Unlinking -/

/-- The graph after a node gave its place to its only child, before rebalancing. -/
def detach (graph : Graph) (context : Context) (child : Option Slot) : Graph :=
  (graph.adopt child (Context.parent? context)).repoint (Context.gate? context) child

theorem Focused.detach (focused : graph.Focused context (.join side child vacated .leaf)) :
    (graph.detach context child.root?).Focused context child := by
  obtain ⟨_, _, _, childLinked, _⟩ := linked_join.mp focused.below
  obtain ⟨_, _, nodup, _⟩ := Shape.nodup_slots_join.mp focused.nodupBelow
  have inside : ∀ part ∈ child.slots, part ∈ (Shape.join side child vacated .leaf).slots :=
    fun part member => Shape.mem_slots_join.mpr (Or.inr (Or.inl member))
  refine focused.exchange rfl ?_ (childLinked.rehang nodup ?_) nodup ?_ ?_ (Nat.le_refl _)
  · intro part member link
    have notTop : ¬(child.root? = some part ∧ link = .parent) := fun both =>
      focused.apart member (inside part (Shape.mem_slots_of_root? both.1))
    refine (link_repoint link).trans ?_
    rw [link_adopt, if_neg notTop]
  · intro part member link
    refine (link_repoint link).trans ?_
    rw [link_adopt, if_neg fun leads =>
      focused.apart (Context.mem_slots_of_gate? leads) (inside part member)]
  · exact fun part above member => focused.apart above (inside part member)
  · exact fun part member => focused.liveBelow part (inside part member)

@[simp]
theorem height_detach {child : Option Slot} {other : Slot} :
    ((graph.detach context child).headers other).height = (graph.headers other).height :=
  height_repoint.trans height_adopt

/-- Unlinking a node with one child at most, in a shape whose heights are right. -/
theorem Focused.yields_unlink
    (focused : graph.Focused place (.join side child vacated .leaf)) (usable : graph.Usable)
    (above : Context.Measured graph.headers place) (measured : Measured graph.headers child)
    (rebalances : Rebalances place child whole mends) (enough : graph.live ≤ steps) :
    ∃ after, Action.Yields Tree.graph (unlink steps vacated) graph () after (Mend.logAll mends) ∧
      Replaced (graph.detach place child.root?) after [] (Context.fill place child) whole mends ∧
      Measured after.headers whole := by
  have detached := focused.detach
  obtain ⟨after, walk, replaced, wholeMeasured⟩ := detached.rebalanced rebalances usable
    (above.congr fun _ _ => height_detach) (measured.congr fun _ _ => height_detach)
    (Nat.le_trans detached.length_context_le enough)
  refine ⟨after, ?_, replaced, wholeMeasured⟩
  obtain ⟨up, toChild, toNone, _⟩ := linked_join.mp focused.below
  have member : vacated ∈ (Shape.join side child vacated .leaf).slots :=
    Shape.mem_slots_join.mpr (Or.inl rfl)
  have inside : ∀ part ∈ child.slots, part ∈ (Shape.join side child vacated .leaf).slots :=
    fun part member => Shape.mem_slots_join.mpr (Or.inr (Or.inl member))
  have childLive : ∀ top, child.root? = some top → top < graph.live := fun top here =>
    focused.liveBelow top (inside top (Shape.mem_slots_of_root? here))
  have only : (graph.headers vacated).left.or (graph.headers vacated).right = child.root? := by
    cases side with
    | left =>
        have onLeft : (graph.headers vacated).left = child.root? := toChild
        have onRight : (graph.headers vacated).right = none := toNone
        rw [onLeft, onRight, Option.or_none]
    | right =>
        have onRight : (graph.headers vacated).right = child.root? := toChild
        have onLeft : (graph.headers vacated).left = none := toNone
        rw [onLeft, onRight, Option.none_or]
  have stillAbove : Context.Linked (graph.adopt child.root? (Context.parent? place)).headers place
      (some vacated) := by
    have old := focused.above
    rw [Shape.root?_join] at old
    refine old.congr fun part inContext link => ?_
    have notTop : ¬(child.root? = some part ∧ link = .parent) := fun both =>
      focused.apart inContext (inside part (Shape.mem_slots_of_root? both.1))
    rw [link_adopt, if_neg notTop]
  refine Action.Yields.silently (yields_header usable (focused.liveBelow vacated member)) ?_
  simp only [only, up]
  refine Action.Yields.silently (yields_adopt usable childLive
    (focused.storable_parent usable)) ?_
  refine Action.Yields.silently (yields_replaceChild usable stillAbove
    (fun inContext => focused.apart inContext member) focused.liveAbove
    fun top here => usable.lt_nil (childLive top here)) ?_
  exact walk

/-! ## Removing the record in a slot -/

/-- What unlinking a prepared node and giving up its slot makes of a sound tree. -/
structure Removed (before after : Graph) (place : Context) (child : Shape) (vacated : Slot)
    (payloads : Slot → Bytes) (whole : Shape) (mends : List Mend) : Prop where
  rebalances : Rebalances place child whole mends
  sound : after.Sound (whole.map (Slot.moved (before.live - 1) vacated))
  payloads : ∀ slot ∈ whole.slots,
    after.payloads (Slot.moved (before.live - 1) vacated slot) = payloads slot
  options : after.options = before.options
  ledger : after.ledger = before.ledger.free
  counters : after.counters =
    (if before.live - 1 = vacated then Mend.countAll before.counters mends
      else (Mend.countAll before.counters mends).countRelocation).countRemove

/-- A slot that was unlinked is in no other place. -/
theorem slots_unlinked (nodup : (Context.fill place (.join side child vacated .leaf)).slots.Nodup) :
    vacated ∉ (Context.fill place child).slots ∧
      (Context.fill place child).slots.length + 1 =
        (Context.fill place (.join side child vacated .leaf)).slots.length := by
  obtain ⟨_, nodupNode, apart⟩ := Context.nodup_slots_fill.mp nodup
  obtain ⟨notChild, _⟩ := Shape.nodup_slots_join.mp nodupNode
  have member : vacated ∈ (Shape.join side child vacated .leaf).slots :=
    Shape.mem_slots_join.mpr (Or.inl rfl)
  constructor
  · intro inside
    rcases Context.mem_slots_fill.mp inside with above | below
    · exact apart above member
    · exact notChild below
  · have nodeLength := (@Shape.slots_join_perm side child .leaf vacated).length_eq
    rw [(Context.slots_fill_perm _ _).length_eq, (Context.slots_fill_perm _ _).length_eq,
      List.length_append, List.length_append, nodeLength]
    simp only [Shape.slots, List.append_nil, List.length_cons]
    omega

/-- The graph once a slot was given up and the removal was counted. -/
def discount (graph : Graph) : Graph :=
  { graph with count := graph.count - 1, counters := graph.counters.countRemove }

/-- A prepared node that was unlinked and whose slot was given up is removed. -/
theorem Sound.removed {mid freed : Graph} {payloads : Slot → Bytes} (sound : graph.Sound shape)
    (rebalances : Rebalances place child whole mends) (balanced : whole.Balanced)
    (dense : whole.slots.length + 1 = graph.live)
    (replaced : Replaced (Graph.detach { graph with payloads := payloads } place child.root?) mid []
      (Context.fill place child) whole mends)
    (measured : Measured mid.headers whole) (released : Released mid freed whole vacated) :
    Removed graph freed.discount place child vacated payloads whole mends := by
  obtain ⟨midPayloads, midCount, midOptions, midLedger⟩ := of_contents replaced.contents
  have midLive : mid.live = graph.live := replaced.live
  obtain ⟨spans, heights, kept, count, options, ledger, counters⟩ := released
  rw [midLive] at spans heights kept counters
  have live : freed.live = graph.live - 1 := by
    rw [live, ledger, midLedger]
    rfl
  have usable : freed.Usable := by
    rw [Usable, ledger, options]
    exact usable_free (replaced.usable sound.usable)
  refine ⟨rebalances, ?_, ?_, options.trans midOptions, ?_, ?_⟩
  · refine ⟨usable, ⟨spans.root_eq, spans.linked, spans.nodup, spans.live⟩, ?_,
      measured.map heights, Shape.balanced_map.mpr balanced, ?_⟩
    · rw [Shape.slots_map, List.length_map]
      change _ = freed.live
      omega
    · change freed.count - 1 = freed.live
      rw [live, count, midCount]
      exact congrArg (· - 1) sound.count_eq
  · intro slot member
    refine (kept slot member).trans ?_
    rw [midPayloads]
    rfl
  · exact ledger.trans (congrArg Arena.Ledger.free midLedger)
  · change freed.counters.countRemove = _
    rw [counters, replaced.counters]
    rfl

/-- Removing the record in a slot of a sound tree. -/
theorem Sound.yields_removeAt (sound : graph.Sound shape) (enough : graph.live ≤ steps)
    (split : Context.fill context (.node left slot right) = shape) :
    ∃ after place side child vacated payloads whole mends,
      Prepared graph context left slot right place side child vacated payloads ∧
      Action.Yields Tree.graph (removeAt steps slot) graph (.ok ()) after
        (Mend.logAll mends ++ (relocationLog (graph.live - 1) vacated ++
          Arena.freeLog graph.ledger)) ∧
      Removed graph after place child vacated payloads whole mends := by
  obtain ⟨place, side, child, vacated, payloads, prepared, prepares⟩ :=
    sound.yields_prepareRemoval enough split
  have there := prepared.fill_eq.trans split
  obtain ⟨aboveMeasured, nodeMeasured⟩ := sound.measured_parts there
  obtain ⟨_, childMeasured, _⟩ := measured_join.mp nodeMeasured
  have wholeBalanced : (Context.fill place (.join side child vacated .leaf)).Balanced :=
    there ▸ sound.balanced
  obtain ⟨_, _, childBalanced, _⟩ := Shape.balanced_join.mp
    (Context.balanced_of_fill wholeBalanced)
  obtain ⟨whole, mends, rebalances, balanced, _⟩ := Context.exists_rebalances wholeBalanced
    childBalanced (by rw [Shape.height_join]; omega)
      (by rw [Shape.height_join, Shape.height]; omega)
  have focused : Graph.Focused { graph with payloads := payloads } place
      (.join side child vacated .leaf) :=
    (sound.focused there).congr (fun _ _ => rfl) rfl rfl
  obtain ⟨mid, unlinks, replaced, measured⟩ := focused.yields_unlink sound.usable aboveMeasured
    childMeasured rebalances enough
  obtain ⟨absent, fewer⟩ := slots_unlinked (there ▸ sound.spans.nodup)
  have midLive : mid.live = graph.live := replaced.live
  rw [← rebalances.slots_eq] at absent fewer
  rw [there, sound.length_eq] at fewer
  have vacatedLive : vacated < graph.live :=
    focused.liveBelow vacated (Shape.mem_slots_join.mpr (Or.inl rfl))
  obtain ⟨freed, releases, released⟩ := replaced.spans.yields_releaseSlot
    (replaced.usable sound.usable) (midLive ▸ vacatedLive) absent (midLive ▸ fewer)
  obtain ⟨_, _, _, midLedger⟩ := of_contents replaced.contents
  rw [midLive, midLedger] at releases
  refine ⟨freed.discount, place, side, child, vacated, payloads, whole, mends, prepared, ?_,
    sound.removed rebalances balanced fewer replaced measured released⟩
  refine Action.Yields.silently prepares (unlinks.bind ?_)
  refine Action.Yields.concluding releases ?_
  refine Action.Yields.silently (yields_updateCount _) ?_
  exact (yields_updateCounters _).answering _

/-- Of the records of a sound tree, the one in the slot is gone afterwards. -/
theorem Removed.records_eq {after : Graph} {payloads : Slot → Bytes}
    (prepared : Prepared graph context left slot right place side child vacated payloads)
    (removed : Removed graph after place child vacated payloads whole mends) :
    after.records (whole.map (Slot.moved (graph.live - 1) vacated)) =
      (Context.before context ++ left.slots).map graph.payloads ++
        (right.slots ++ Context.after context).map graph.payloads :=
  calc
    after.records (whole.map (Slot.moved (graph.live - 1) vacated))
        = whole.slots.map payloads := by
      rw [records, Shape.slots_map, List.map_map]
      exact List.map_congr_left removed.payloads
    _ = (Context.before place ++ child.slots ++ Context.after place).map payloads := by
      rw [removed.rebalances.slots_eq, Context.slots_fill]
    _ = _ := prepared.records_eq

/-! ## Removal as a whole -/

theorem locateWithin_eq (sound : graph.Sound shape)
    (descent : Descent (graph.outcome order key shape) .exact shape context right) {tree : Tree}
    (looks : tree.graph = graph) (enough : graph.live ≤ steps) :
    tree.locateWithin steps order key =
      ⟨(graph.searchPath order .exact key shape).visits, .ok right.root?⟩ := by
  rw [locateWithin, Lookup.ofPath, sound.spans.pathWithin_eq sound.usable looks enough,
    ← found_eq descent]
  rfl

theorem locate_eq (sound : graph.Sound shape)
    (descent : Descent (graph.outcome order key shape) .exact shape context right) {tree : Tree}
    (looks : tree.graph = graph) :
    tree.locate order key =
      ⟨(graph.searchPath order .exact key shape).visits, .ok right.root?⟩ :=
  locateWithin_eq sound descent looks sound.usable.live_le_walkLimit

/-- A key that is too short is refused. -/
theorem yields_remove_short (short : key.length < graph.options.keySize) :
    Action.Yields Tree.graph (removeWithin steps order key) graph
      (.error (.invalidArgument .shortKey)) graph
      {} := by
  refine Action.Yields.silently
    (Action.yields_view (.error (.invalidArgument .shortKey)) ?_) ?_
  · rintro tree rfl
    exact if_pos short
  exact Action.yields_pure _ graph

/-- A key that is long enough is looked for in a tree that has records. -/
theorem yields_remove_checked {after : Graph} {answer : Except Refusal Unit} {log : Journal}
    (long : graph.options.keySize ≤ key.length)
    (onward : Action.Yields Tree.graph
      (if graph.count = 0 then pure (.error .emptyTree)
        else do
          match ← consult (·.locateWithin steps order key) with
          | none => pure (.error .notFound)
          | some slot => removeAt steps slot) graph answer after log) :
    Action.Yields Tree.graph (removeWithin steps order key) graph answer after log := by
  refine Action.Yields.silently (Action.yields_view (.ok ()) ?_) ?_
  · rintro tree rfl
    exact if_neg (Nat.not_lt_of_le long)
  refine Action.Yields.silently (Action.yields_view graph.count ?_) onward
  rintro tree rfl
  rfl

/-- An empty tree has nothing to remove. -/
theorem yields_remove_empty (long : graph.options.keySize ≤ key.length)
    (empty : graph.count = 0) :
    Action.Yields Tree.graph (removeWithin steps order key) graph (.error .emptyTree) graph {} := by
  apply yields_remove_checked long
  rw [if_pos empty]
  exact Action.yields_pure _ graph

/-- A key that no record has is not found. -/
theorem Sound.yields_remove_missing (sound : graph.Sound shape) (enough : graph.live ≤ steps)
    (long : graph.options.keySize ≤ key.length) (used : graph.count ≠ 0)
    (descent : Descent (graph.outcome order key shape) .exact shape context .leaf) :
    Action.Yields Tree.graph (removeWithin steps order key) graph (.error .notFound) graph
      (graph.comparisons order .exact key shape) := by
  apply yields_remove_checked long
  rw [if_neg used]
  exact Action.Yields.concluding
    (yields_consult fun tree looks => locateWithin_eq sound descent looks enough)
    (Action.yields_pure _ graph)

/-- A record that is found is removed. -/
theorem Sound.yields_remove (sound : graph.Sound shape) (enough : graph.live ≤ steps)
    (long : graph.options.keySize ≤ key.length) (used : graph.count ≠ 0)
    (descent : Descent (graph.outcome order key shape) .exact shape context
      (.node left slot right)) :
    ∃ after place side child vacated payloads whole mends,
      Prepared graph context left slot right place side child vacated payloads ∧
      Action.Yields Tree.graph (removeWithin steps order key) graph (.ok ()) after
        (graph.comparisons order .exact key shape ++
          (Mend.logAll mends ++ (relocationLog (graph.live - 1) vacated ++
            Arena.freeLog graph.ledger))) ∧
      Removed graph after place child vacated payloads whole mends := by
  obtain ⟨after, place, side, child, vacated, payloads, whole, mends, prepared, removes,
    removed⟩ := sound.yields_removeAt enough descent.fill_eq
  refine ⟨after, place, side, child, vacated, payloads, whole, mends, prepared, ?_, removed⟩
  apply yields_remove_checked long
  rw [if_neg used]
  exact Action.Yields.bind
    (yields_consult fun tree looks => locateWithin_eq sound descent looks enough) removes

/-- The ways in which a removal comes out: what it answers, what is there afterwards, and what
it logs. -/
inductive Removes (graph : Graph) (shape : Shape) (order : KeyOrder) (key : Bytes) :
    Except Refusal Unit → Graph → Shape → Journal → Prop
  | short (short : key.length < graph.options.keySize) :
      Removes graph shape order key (.error (.invalidArgument .shortKey)) graph shape {}
  | empty (long : graph.options.keySize ≤ key.length) (empty : graph.count = 0) :
      Removes graph shape order key (.error .emptyTree) graph shape {}
  | missing {context : Context} (long : graph.options.keySize ≤ key.length)
      (used : graph.count ≠ 0)
      (descent : Descent (graph.outcome order key shape) .exact shape context .leaf) :
      Removes graph shape order key (.error .notFound) graph shape
        (graph.comparisons order .exact key shape)
  | removed {context place : Context} {left right child whole : Shape} {slot vacated : Slot}
      {side : Side} {payloads : Slot → Bytes} {after : Graph} {mends : List Mend}
      (long : graph.options.keySize ≤ key.length) (used : graph.count ≠ 0)
      (descent : Descent (graph.outcome order key shape) .exact shape context
        (.node left slot right))
      (prepared : Prepared graph context left slot right place side child vacated payloads)
      (removed : Removed graph after place child vacated payloads whole mends) :
      Removes graph shape order key (.ok ()) after
        (whole.map (Slot.moved (graph.live - 1) vacated))
        (graph.comparisons order .exact key shape ++
          (Mend.logAll mends ++ (relocationLog (graph.live - 1) vacated ++
            Arena.freeLog graph.ledger)))

/-- Every removal from a sound tree comes out in one of the ways, in walks of as many steps as
slots are live. -/
theorem Sound.exists_removesWithin (sound : graph.Sound shape) (enough : graph.live ≤ steps)
    (order : KeyOrder) (key : Bytes) :
    ∃ answer after whole log,
      Action.Yields Tree.graph (removeWithin steps order key) graph answer after log ∧
        Removes graph shape order key answer after whole log := by
  obtain ⟨context, rest, descent⟩ := exists_descent (graph.outcome order key shape) .exact shape
  by_cases short : key.length < graph.options.keySize
  · exact ⟨_, graph, shape, _, yields_remove_short short, .short short⟩
  have long := Nat.le_of_not_lt short
  by_cases empty : graph.count = 0
  · exact ⟨_, graph, shape, _, yields_remove_empty long empty, .empty long empty⟩
  cases rest with
  | leaf =>
      exact ⟨_, graph, shape, _, sound.yields_remove_missing enough long empty descent,
        .missing long empty descent⟩
  | node left slot right =>
      obtain ⟨after, place, side, child, vacated, payloads, whole, mends, prepared, removes,
        removed⟩ := sound.yields_remove enough long empty descent
      exact ⟨_, after, _, _, removes, .removed long empty descent prepared removed⟩

theorem Sound.exists_removes (sound : graph.Sound shape) (order : KeyOrder) (key : Bytes) :
    ∃ answer after whole log,
      Action.Yields Tree.graph (remove order key) graph answer after log ∧
        Removes graph shape order key answer after whole log :=
  sound.exists_removesWithin sound.usable.live_le_walkLimit order key

theorem Removes.sound {answer : Except Refusal Unit} {after : Graph} {log : Journal}
    (removes : graph.Removes shape order key answer after whole log)
    (sound : graph.Sound shape) : after.Sound whole := by
  cases removes with
  | short | empty | missing => exact sound
  | removed _ _ _ _ removed => exact removed.sound

theorem Removes.options_eq {answer : Except Refusal Unit} {after : Graph} {log : Journal}
    (removes : graph.Removes shape order key answer after whole log) :
    after.options = graph.options := by
  cases removes with
  | short | empty | missing => rfl
  | removed _ _ _ _ removed => exact removed.options

theorem Removes.host_eq {answer : Except Refusal Unit} {after : Graph} {log : Journal}
    (removes : graph.Removes shape order key answer after whole log) :
    after.ledger.host = graph.ledger.host := by
  cases removes with
  | short | empty | missing => rfl
  | removed _ _ _ _ removed =>
      rw [removed.ledger]
      rfl

/-- Every removal from a sound tree answers and leaves a sound tree: the same one if it
was refused, and otherwise one without a record that came out equal to the key in the
last comparison. -/
theorem Sound.remove_answers (sound : graph.Sound shape) (order : KeyOrder) (key : Bytes) :
    ∃ answer after log whole,
      Action.Yields Tree.graph (remove order key) graph answer after log ∧
      after.Sound whole ∧
        ((∃ refusal, answer = .error refusal) ∧ after = graph ∧ whole = shape ∨
          answer = .ok () ∧ ∃ earlier record later,
            graph.records shape = earlier ++ record :: later ∧
              (∃ asked, log.comparisons = asked + 1 ∧ order.compare asked key record = .eq) ∧
                after.records whole = earlier ++ later) := by
  obtain ⟨answer, after, whole, log, yields, removes⟩ := sound.exists_removes order key
  refine ⟨answer, after, log, whole, yields, removes.sound sound, ?_⟩
  cases removes with
  | short | empty | missing => exact Or.inl ⟨⟨_, rfl⟩, rfl, rfl⟩
  | @removed context place left right child whole slot vacated side payloads after mends long used
      descent prepared removed =>
      refine Or.inr ⟨rfl,
        (Context.before context ++ left.slots).map graph.payloads, graph.payloads slot,
        (right.slots ++ Context.after context).map graph.payloads, ?_,
        ⟨shape.depth slot, ?_, exact_eq_none (descent.stopped slot rfl)⟩,
        removed.records_eq prepared⟩
      · rw [records, ← descent.fill_eq, Context.slots_fill_node, List.map_append, List.map_cons]
      · simp [comparisons, length_visits descent sound.spans.nodup rfl]

end SlabTree.Tree.Graph
