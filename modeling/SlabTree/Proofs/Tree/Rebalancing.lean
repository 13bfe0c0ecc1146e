import SlabTree.Proofs.Tree.Rotation

/-!
# Rebalancing a linked shape

One step of the walk to the root settles the node where it stands: it takes the
shape there to the settled shape, in the same place, with right heights, and
changes nothing outside but the link into that place.  The walk as a whole does
what mending the shape all the way up does.
-/

namespace SlabTree.Tree.Graph

open Shape (Settles)

variable {graph mid after : Graph} {context : Context} {shape settled near far : Shape}
  {side : Side} {slot other : Slot} {mends : List Mend}

/-- Heights up to this one, and one or two levels more, fit their four bytes. -/
def tallest : Nat := 2 ^ 30

/-- The link into a place leads there already. -/
theorem Focused.repoint_root? (focused : graph.Focused context shape) (slot : Slot) :
    (graph.repoint (Context.gate? context) shape.root?).headers slot = graph.headers slot := by
  apply Header.eq_of_links
  · intro link
    rw [link_repoint]
    split
    next leads =>
      cases context with
      | nil => contradiction
      | cons frame rest =>
          cases leads
          exact focused.above.2.1.symm
    · rfl
  · exact height_repoint

/-! ## One shape in the place of another -/

/-- A shape has taken the place of another, and nothing else changed but the
counters, by the mends. -/
structure Replaced (before after : Graph) (context : Context) (old new : Shape)
    (mends : List Mend) : Prop where
  focused : after.Focused context new
  contents : after.contents = before.contents
  counters : after.counters = Mend.countAll before.counters mends
  headers : ∀ slot, slot ∉ old.slots →
    after.headers slot = (before.repoint (Context.gate? context) new.root?).headers slot

namespace Replaced

variable {old new last : Shape} {rest : List Mend}

theorem height (replaced : Replaced graph after context old new mends)
    (outside : slot ∉ old.slots) :
    (after.headers slot).height = (graph.headers slot).height := by
  rw [replaced.headers slot outside, height_repoint]

theorem measured {part : Shape} (replaced : Replaced graph after context old new mends)
    (apart : part.slots.Disjoint old.slots) (measured : Measured graph.headers part) :
    Measured after.headers part :=
  measured.congr fun _ member => replaced.height (apart member)

theorem spans (replaced : Replaced graph after [] old new mends) : after.Spans new :=
  (@spans_fill after [] new).mpr replaced.focused

theorem live (replaced : Replaced graph after context old new mends) : after.live = graph.live :=
  live_of_contents replaced.contents

theorem usable (replaced : Replaced graph after context old new mends)
    (usable : graph.Usable) : after.Usable :=
  usable_of_contents usable replaced.contents

theorem trans (first : Replaced graph mid context old new mends)
    (second : Replaced mid after context new last rest)
    (inside : ∀ slot ∈ new.slots, slot ∈ old.slots) :
    Replaced graph after context old last (mends ++ rest) where
  focused := second.focused
  contents := second.contents.trans first.contents
  counters := by rw [second.counters, first.counters, Mend.countAll_append]
  headers := by
    intro slot outside
    rw [second.headers slot fun member => outside (inside slot member)]
    apply Header.eq_of_links
    · intro link
      rw [link_repoint, link_repoint, first.headers slot outside, link_repoint]
      split <;> rfl
    · rw [height_repoint, height_repoint, first.height outside]

/-- What is replaced below a node is replaced in the node. -/
theorem outward {frame : Frame} (focused : graph.Focused context (frame.fill old))
    (replaced : Replaced graph after (frame :: context) old new mends) :
    Replaced graph after context (frame.fill old) (frame.fill new) mends where
  focused := focused_cons.mp replaced.focused
  contents := replaced.contents
  counters := replaced.counters
  headers := by
    intro slot outside
    obtain ⟨notFrame, inside⟩ := not_or.mp (fun member => outside (Shape.mem_slots_join.mpr member))
    have top : (frame.fill new).root? = (frame.fill old).root? :=
      Shape.root?_join.trans Shape.root?_join.symm
    rw [replaced.headers slot fun member => inside (Or.inl member), top, focused.repoint_root?]
    exact if_neg notFrame

/-- What is replaced in a place is replaced in the whole. -/
theorem throughout (replaced : Replaced graph after context old new mends)
    (focused : graph.Focused context old) :
    Replaced graph after [] (Context.fill context old) (Context.fill context new) mends := by
  induction context generalizing old new with
  | nil => exact replaced
  | cons frame rest inductionHypothesis =>
      have node := focused_cons.mp focused
      exact inductionHypothesis (outward node replaced) node

end Replaced

/-- Every shape has taken its own place. -/
theorem Focused.unchanged (focused : graph.Focused context shape) :
    Replaced graph graph context shape shape [] where
  focused := focused
  contents := rfl
  counters := rfl
  headers := fun slot _ => (focused.repoint_root? slot).symm

/-- Counting a mend. -/
theorem Focused.counted (focused : graph.Focused context shape) (mend : Mend) :
    Replaced graph { graph with counters := mend.count graph.counters } context shape shape
      [mend] where
  focused := focused.congr (fun _ _ => rfl) rfl rfl
  contents := rfl
  counters := rfl
  headers := fun slot _ => (focused.repoint_root? slot).symm

/-! ## Heights and balance -/

theorem heightFromChildren_of_sides (linked : Linked graph.headers (Context.parent? context)
    (near.join side slot far)) (nearMeasured : Measured graph.headers near)
    (farMeasured : Measured graph.headers far) :
    graph.heightFromChildren slot = (max near.height far.height : Nat) := by
  obtain ⟨_, toNear, toFar, _⟩ := linked_join.mp linked
  rw [heightFromChildren_eq side, toNear, toFar, contribution_root? nearMeasured,
    contribution_root? farMeasured]
  omega

/-- The balance of a slot is the difference in height of its two sides. -/
theorem tilt_balance {parent : Option Slot}
    (linked : Linked graph.headers parent (near.join side slot far))
    (nearMeasured : Measured graph.headers near) (farMeasured : Measured graph.headers far) :
    tilt side (graph.balance slot) = (near.height : Int) - far.height := by
  obtain ⟨_, toNear, toFar, _⟩ := linked_join.mp linked
  have onNear := contribution_root? nearMeasured
  have onFar := contribution_root? farMeasured
  rw [← toNear] at onNear
  rw [← toFar] at onFar
  cases side with
  | left =>
      change -(graph.contribution ((graph.headers slot).child Side.left.flip) -
        graph.contribution ((graph.headers slot).child .left)) = _
      rw [onNear, onFar]
      omega
  | right =>
      change graph.contribution ((graph.headers slot).child .right) -
        graph.contribution ((graph.headers slot).child Side.right.flip) = _
      rw [onNear, onFar]

theorem Focused.safeChildren (focused : graph.Focused context (near.join side slot far))
    (nearMeasured : Measured graph.headers near) (farMeasured : Measured graph.headers far)
    (low : near.height ≤ tallest ∧ far.height ≤ tallest) : graph.SafeChildren slot := by
  unfold tallest at low
  obtain ⟨_, toNear, toFar, _⟩ := linked_join.mp focused.below
  apply safeChildren_of side
  · rw [toNear]
    exact fun child top => safe_top nearMeasured (by omega) (fun member => focused.liveBelow _
      (Shape.mem_slots_join.mpr (Or.inr (Or.inl member)))) top
  · rw [toFar]
    exact fun child top => safe_top farMeasured (by omega) (fun member => focused.liveBelow _
      (Shape.mem_slots_join.mpr (Or.inr (Or.inr member)))) top

/-- Refreshing the height at the top of a shape. -/
theorem Focused.refreshed (focused : graph.Focused context (near.join side slot far))
    (nearMeasured : Measured graph.headers near) (farMeasured : Measured graph.headers far) :
    Replaced graph (graph.refresh slot) context (near.join side slot far)
        (near.join side slot far) [] ∧
      Measured (graph.refresh slot).headers (near.join side slot far) := by
  obtain ⟨slotNear, slotFar, _⟩ := Shape.nodup_slots_join.mp focused.nodupBelow
  have kept : ∀ other, other ≠ slot →
      (graph.refresh slot).headers other = graph.headers other := by
    intro other different
    exact Header.eq_of_links (fun link => link_refresh link)
      ((height_refresh).trans (if_neg different))
  refine ⟨⟨focused.congr (fun other link => link_refresh link) rfl rfl, rfl, rfl, ?_⟩,
    measured_join.mpr ⟨?_, nearMeasured.congr ?_, farMeasured.congr ?_⟩⟩
  · intro other outside
    rw [focused.repoint_root?]
    refine kept other ?_
    rintro rfl
    exact outside (Shape.mem_slots_join.mpr (Or.inl rfl))
  · rw [height_refresh, if_pos rfl, heightFromChildren_of_sides focused.below nearMeasured
      farMeasured]
  · exact fun part member => by rw [kept part (ne_of_mem_of_not_mem member slotNear)]
  · exact fun part member => by rw [kept part (ne_of_mem_of_not_mem member slotFar)]

/-- A rotation puts the lifted shape in the place of the old one. -/
theorem Focused.rotated {outer within : Shape} {pivot : Slot}
    (focused : graph.Focused context (.join side (.join side outer pivot within) slot far))
    (usable : graph.Usable) (outerMeasured : Measured graph.headers outer)
    (withinMeasured : Measured graph.headers within) (farMeasured : Measured graph.headers far)
    (low : outer.height ≤ tallest ∧ within.height ≤ tallest ∧ far.height ≤ tallest) :
    ∃ after, Action.Yields Tree.graph (rotate side slot) graph pivot after
        ⟨#[.rotate side slot pivot], 0⟩ ∧
      Replaced graph after context (.join side (.join side outer pivot within) slot far)
        (.join side outer pivot (.join side within slot far)) [] ∧
      Measured after.headers (.join side outer pivot (.join side within slot far)) := by
  unfold tallest at low
  refine ⟨_, focused.yields_rotate usable outerMeasured withinMeasured farMeasured (by omega),
    ⟨focused.lift, rfl, rfl, ?_⟩,
    focused.measured_lift outerMeasured withinMeasured farMeasured⟩
  intro other outside
  rw [Shape.root?_join]
  exact headers_lift outside

/-- A rotation of the near child the other way lifts what stands between the two. -/
theorem Focused.straightened {outer close distant : Shape} {pivot top : Slot}
    (focused : graph.Focused context
      (.join side (.join side outer pivot (.join side close top distant)) slot far))
    (usable : graph.Usable)
    (nearMeasured : Measured graph.headers
      (.join side outer pivot (.join side close top distant)))
    (low : outer.height ≤ tallest ∧ close.height ≤ tallest ∧ distant.height ≤ tallest) :
    ∃ after, Action.Yields Tree.graph (rotate side.flip pivot) graph top after
        ⟨#[.rotate side.flip pivot top], 0⟩ ∧
      Replaced graph after context
        (.join side (.join side outer pivot (.join side close top distant)) slot far)
        (.join side (.join side (.join side outer pivot close) top distant) slot far) [] ∧
      Replaced graph after (⟨side, slot, far⟩ :: context)
        (.join side outer pivot (.join side close top distant))
        (.join side (.join side outer pivot close) top distant) [] ∧
      Measured after.headers (.join side (.join side outer pivot close) top distant) := by
  obtain ⟨_, outerMeasured, innerMeasured⟩ := measured_join.mp nearMeasured
  obtain ⟨_, closeMeasured, distantMeasured⟩ := measured_join.mp innerMeasured
  -- Seen from the other side, the child itself has a tall near child to be lifted.
  have mirrored : graph.Focused (⟨side, slot, far⟩ :: context)
      (.join side.flip (.join side.flip distant top close) pivot outer) := by
    rw [Shape.join_flip, Shape.join_flip]
    exact focused_cons.mpr focused
  obtain ⟨after, rotates, replaced, measured⟩ := mirrored.rotated usable distantMeasured
    closeMeasured outerMeasured ⟨low.2.2, low.2.1, low.1⟩
  rw [Shape.join_flip, Shape.join_flip side distant, Shape.join_flip side distant,
    Shape.join_flip side close] at replaced
  rw [Shape.join_flip side distant, Shape.join_flip side close] at measured
  exact ⟨after, rotates, replaced.outward focused, replaced, measured⟩

/-! ## Mending a node -/

/-- Mending starts with the balance of the near child. -/
theorem Focused.yields_mend {outer inner : Shape} {pivot answer : Slot} {log : Journal}
    (focused : graph.Focused context (.join side (.join side outer pivot inner) slot far))
    (usable : graph.Usable) (nearMeasured : Measured graph.headers (.join side outer pivot inner))
    (low : outer.height ≤ tallest ∧ inner.height ≤ tallest)
    (decided : ∀ balance, tilt side balance = (outer.height : Int) - inner.height →
      Action.Yields Tree.graph
        (if 0 ≤ tilt side balance then do
          updateCounters Counters.countSingle
          rotate side slot
        else do
          updateCounters Counters.countDouble
          let _ ← rotate side.flip pivot
          rotate side slot) graph answer after log) :
    Action.Yields Tree.graph (Tree.mend side slot) graph answer after log := by
  obtain ⟨_, toPivot, _, nearLinked, _⟩ := linked_join.mp focused.below
  obtain ⟨_, outerMeasured, innerMeasured⟩ := measured_join.mp nearMeasured
  have child : graph.Focused (⟨side, slot, far⟩ :: context) (.join side outer pivot inner) :=
    focused_cons.mpr focused
  rw [Shape.root?_join] at toPivot
  refine Action.Yields.silently (yields_requireChild usable (focused.liveBelow slot
    (Shape.mem_slots_join.mpr (Or.inl rfl))) toPivot) ?_
  refine Action.Yields.silently (yields_balance usable (child.liveBelow pivot
    (Shape.mem_slots_join.mpr (Or.inl rfl)))
    (child.safeChildren outerMeasured innerMeasured low)) ?_
  exact decided _ (tilt_balance nearLinked outerMeasured innerMeasured)

/-- A slot whose near child leans no other way has it lifted. -/
theorem Focused.mended_single {outer inner : Shape} {pivot : Slot}
    (focused : graph.Focused context (.join side (.join side outer pivot inner) slot far))
    (usable : graph.Usable) (nearMeasured : Measured graph.headers (.join side outer pivot inner))
    (farMeasured : Measured graph.headers far) (leans : inner.height ≤ outer.height)
    (low : outer.height ≤ tallest ∧ inner.height ≤ tallest ∧ far.height ≤ tallest) :
    ∃ after, Action.Yields Tree.graph (Tree.mend side slot) graph pivot after
        (Mend.single side slot pivot).log ∧
      Replaced graph after context (.join side (.join side outer pivot inner) slot far)
        (.join side outer pivot (.join side inner slot far)) [.single side slot pivot] ∧
      Measured after.headers (.join side outer pivot (.join side inner slot far)) := by
  obtain ⟨_, outerMeasured, innerMeasured⟩ := measured_join.mp nearMeasured
  have counted := focused.counted (.single side slot pivot)
  obtain ⟨after, rotates, replaced, measured⟩ :=
    counted.focused.rotated usable outerMeasured innerMeasured farMeasured low
  refine ⟨after, ?_, counted.trans replaced (fun _ member => member), measured⟩
  refine focused.yields_mend usable nearMeasured ⟨low.1, low.2.1⟩ fun balance tilted => ?_
  rw [if_pos (by omega)]
  exact Action.Yields.silently (yields_updateCounters _) rotates

/-- A slot whose near child leans the other way has that child straightened first. -/
theorem Focused.mended_double {outer close distant : Shape} {pivot top : Slot}
    (focused : graph.Focused context
      (.join side (.join side outer pivot (.join side close top distant)) slot far))
    (usable : graph.Usable)
    (nearMeasured : Measured graph.headers
      (.join side outer pivot (.join side close top distant)))
    (farMeasured : Measured graph.headers far)
    (leans : outer.height ≤ max close.height distant.height)
    (low : max close.height distant.height ≤ tallest - 2 ∧ far.height ≤ tallest) :
    ∃ after, Action.Yields Tree.graph (Tree.mend side slot) graph top after
        (Mend.double side slot pivot top).log ∧
      Replaced graph after context
        (.join side (.join side outer pivot (.join side close top distant)) slot far)
        (.join side (.join side outer pivot close) top (.join side distant slot far))
        [.double side slot pivot top] ∧
      Measured after.headers
        (.join side (.join side outer pivot close) top (.join side distant slot far)) := by
  unfold tallest at low
  have counted := focused.counted (.double side slot pivot top)
  obtain ⟨mid, straightens, straight, straightNear, midMeasured⟩ :=
    counted.focused.straightened usable nearMeasured (by unfold tallest; omega)
  have first := counted.trans straight (fun _ member => member)
  have nearFar := (Shape.nodup_slots_join.mp focused.nodupBelow).2.2.2.2
  have midFar : Measured mid.headers far := straightNear.measured nearFar.symm farMeasured
  obtain ⟨_, midOuter, midDistant⟩ := measured_join.mp midMeasured
  obtain ⟨after, lifts, lifted, measured⟩ := first.focused.rotated (first.usable usable) midOuter
    midDistant midFar (by rw [Shape.height_join]; unfold tallest; omega)
  have sameSlots : (Shape.join side (.join side outer pivot (.join side close top distant)) slot
      far).slots = (Shape.join side (.join side (.join side outer pivot close) top distant) slot
        far).slots :=
    Shape.slots_join_congr (Shape.slots_lift side outer pivot close top distant)
  refine ⟨after, ?_, first.trans lifted (sameSlots ▸ fun _ member => member), measured⟩
  refine focused.yields_mend usable nearMeasured
    (by rw [Shape.height_join]; unfold tallest; omega) fun balance tilted => ?_
  rw [Shape.height_join] at tilted
  rw [if_neg (by omega)]
  refine Action.Yields.silently (yields_updateCounters _) ?_
  have both : Action.Yields Tree.graph (rotate side.flip pivot >>= fun _ => rotate side slot)
      _ top after _ := straightens.bind lifts
  exact both

/-! ## Settling a node -/

section Settling

variable {log : Journal} {answer : Slot}

/-- Settling starts with the height and the balance of the slot. -/
theorem Focused.yields_settle (focused : graph.Focused context (near.join side slot far))
    (usable : graph.Usable) (nearMeasured : Measured graph.headers near)
    (farMeasured : Measured graph.headers far) (low : (near.join side slot far).height ≤ tallest)
    (decided : ∀ balance, tilt side balance = (near.height : Int) - far.height →
      Action.Yields Tree.graph
        (if -1 ≤ balance ∧ balance ≤ 1 then pure slot
          else if balance = -2 then Tree.mend .left slot
          else if balance = 2 then Tree.mend .right slot
          else corrupt slot balance) (graph.refresh slot) answer after log) :
    Action.Yields Tree.graph (settle slot) graph answer after log := by
  have live := focused.liveBelow slot (Shape.mem_slots_join.mpr (Or.inl rfl))
  obtain ⟨refreshed, measured⟩ := focused.refreshed nearMeasured farMeasured
  obtain ⟨_, nearAgain, farAgain⟩ := measured_join.mp measured
  have sides : near.height ≤ tallest ∧ far.height ≤ tallest := by
    rw [Shape.height_join] at low
    omega
  refine Action.Yields.silently (yields_updateHeight usable live
    (focused.safeChildren nearMeasured farMeasured sides)) ?_
  refine Action.Yields.silently (yields_balance (refreshed.usable usable) live
    (refreshed.focused.safeChildren nearAgain farAgain sides)) ?_
  exact decided _ (tilt_balance refreshed.focused.below nearAgain farAgain)

theorem Focused.yields_settle_even (focused : graph.Focused context (near.join side slot far))
    (usable : graph.Usable) (nearMeasured : Measured graph.headers near)
    (farMeasured : Measured graph.headers far) (low : (near.join side slot far).height ≤ tallest)
    (nearLow : near.height ≤ far.height + 1) (farLow : far.height ≤ near.height + 1) :
    Action.Yields Tree.graph (settle slot) graph slot (graph.refresh slot) {} := by
  refine focused.yields_settle usable nearMeasured farMeasured low fun balance tilted => ?_
  have small : -1 ≤ balance ∧ balance ≤ 1 := by
    cases side <;> simp only [tilt] at tilted <;> omega
  rw [if_pos small]
  exact Action.yields_pure slot _

theorem Focused.yields_settle_heavy (focused : graph.Focused context (near.join side slot far))
    (usable : graph.Usable) (nearMeasured : Measured graph.headers near)
    (farMeasured : Measured graph.headers far) (low : (near.join side slot far).height ≤ tallest)
    (heavy : near.height = far.height + 2)
    (mends : Action.Yields Tree.graph (Tree.mend side slot) (graph.refresh slot) answer after log) :
    Action.Yields Tree.graph (settle slot) graph answer after log := by
  refine focused.yields_settle usable nearMeasured farMeasured low fun balance tilted => ?_
  cases side with
  | left =>
      simp only [tilt] at tilted
      rw [if_neg (by omega), if_pos (by omega)]
      exact mends
  | right =>
      simp only [tilt] at tilted
      rw [if_neg (by omega), if_neg (by omega), if_pos (by omega)]
      exact mends

/-- A slot that is too tall on one side is mended after its height was refreshed. -/
theorem Focused.settles_heavy {new : Shape} {mend : Mend}
    (focused : graph.Focused context (near.join side slot far)) (usable : graph.Usable)
    (nearMeasured : Measured graph.headers near) (farMeasured : Measured graph.headers far)
    (low : near.height + 1 ≤ tallest) (heavy : near.height = far.height + 2)
    (mended : ∀ refreshed : Graph, refreshed.Focused context (near.join side slot far) →
      refreshed.Usable → Measured refreshed.headers near → Measured refreshed.headers far →
        ∃ after, Action.Yields Tree.graph (Tree.mend side slot) refreshed answer after mend.log ∧
          Replaced refreshed after context (near.join side slot far) new [mend] ∧
          Measured after.headers new) :
    ∃ after, Action.Yields Tree.graph (settle slot) graph answer after mend.log ∧
      Replaced graph after context (near.join side slot far) new [mend] ∧
      Measured after.headers new := by
  obtain ⟨refreshed, measured⟩ := focused.refreshed nearMeasured farMeasured
  obtain ⟨_, nearAgain, farAgain⟩ := measured_join.mp measured
  obtain ⟨after, mends, replaced, right⟩ :=
    mended _ refreshed.focused (refreshed.usable usable) nearAgain farAgain
  refine ⟨after, ?_, refreshed.trans replaced (fun _ member => member), right⟩
  refine focused.yields_settle_heavy usable nearMeasured farMeasured ?_ heavy mends
  rw [Shape.height_join]
  omega

end Settling

/-- Settling a node whose sides are right puts the settled shape in its place. -/
theorem Focused.settles (focused : graph.Focused context shape) (usable : graph.Usable)
    (sides : SidesMeasured graph.headers shape) (settles : Settles shape settled mends)
    (top : shape.root? = some slot) (low : shape.height ≤ tallest - 2) :
    ∃ after above, Action.Yields Tree.graph (settle slot) graph above after (Mend.logAll mends) ∧
      settled.root? = some above ∧ Replaced graph after context shape settled mends ∧
      Measured after.headers settled := by
  unfold tallest at low
  cases settles with
  | @even left right middle leftLow rightLow =>
      cases top
      have node : graph.Focused context (left.join .left slot right) := focused
      obtain ⟨refreshed, measured⟩ := node.refreshed sides.1 sides.2
      exact ⟨_, slot, node.yields_settle_even usable sides.1 sides.2
        (Nat.le_trans low (by decide)) leftLow rightLow, rfl, refreshed, measured⟩
  | @single side outer inner far middle pivot tall leans =>
      rw [Shape.root?_join] at top
      cases top
      obtain ⟨nearMeasured, farMeasured⟩ := sidesMeasured_join.mp sides
      have heavy : (Shape.join side outer pivot inner).height = far.height + 2 := by
        rw [Shape.height_join]
        omega
      rw [Shape.height_join, heavy] at low
      obtain ⟨after, settles, replaced, measured⟩ := focused.settles_heavy usable nearMeasured
        farMeasured (by unfold tallest; omega) heavy
        fun refreshed again stillUsable nearAgain farAgain =>
          again.mended_single stillUsable nearAgain farAgain leans (by unfold tallest; omega)
      refine ⟨after, pivot, ?_, Shape.root?_join, replaced, measured⟩
      rwa [Mend.logAll, Mend.logAll, Journal.append_empty]
  | @double side outer close distant far middle pivot top' lean tall =>
      rw [Shape.root?_join] at top
      cases top
      obtain ⟨nearMeasured, farMeasured⟩ := sidesMeasured_join.mp sides
      have heavy : (Shape.join side outer pivot (.join side close top' distant)).height =
          far.height + 2 := by
        rw [Shape.height_join]
        omega
      rw [Shape.height_join, heavy] at low
      rw [Shape.height_join] at tall
      obtain ⟨after, settles, replaced, measured⟩ := focused.settles_heavy usable nearMeasured
        farMeasured (by unfold tallest; omega) heavy
        fun refreshed again stillUsable nearAgain farAgain =>
          again.mended_double stillUsable nearAgain farAgain (by omega) (by unfold tallest; omega)
      refine ⟨after, top', ?_, Shape.root?_join, replaced, measured⟩
      rwa [Mend.logAll, Mend.logAll, Journal.append_empty]

/-! ## The walk to the root -/

open Context (Rebalances)

/-- The walk to the root rebalances what it starts in. -/
theorem Focused.rebalanced {whole : Shape} (focused : graph.Focused context shape)
    (rebalances : Rebalances context shape whole mends) (usable : graph.Usable)
    (above : Context.Measured graph.headers context) (measured : Measured graph.headers shape)
    {fuel : Nat} (enough : context.length ≤ fuel) :
    ∃ after, Action.Yields Tree.graph (rebalanceWithin fuel (Context.parent? context)) graph ()
        after (Mend.logAll mends) ∧
      Replaced graph after [] (Context.fill context shape) whole mends ∧
      Measured after.headers whole := by
  induction rebalances generalizing graph fuel with
  | @done shape =>
      refine ⟨graph, ?_, focused.unchanged, measured⟩
      cases fuel <;> exact Action.yields_pure () graph
  | @up frame rest shape settled whole mends others sides settle_eq settles onward
      inductionHypothesis =>
      obtain ⟨siblingMeasured, restMeasured⟩ := above
      have node := focused_cons.mp focused
      have low : (frame.fill shape).height ≤ tallest - 2 :=
        Nat.le_trans (sides.height_le (Nat.lt_of_le_of_lt (Nat.le_add_left _ _)
          (node.length_lt usable))) (by decide)
      obtain ⟨mid, top, steps, isTop, replaced, midMeasured⟩ := node.settles usable
        (sidesMeasured_join.mpr ⟨measured, siblingMeasured⟩) settles Shape.root?_join low
      have midRest : Context.Measured mid.headers rest :=
        restMeasured.congr fun slot member =>
          replaced.height fun inside => node.apart member inside
      cases fuel with
      | zero => contradiction
      | succ fuel =>
          obtain ⟨after, walk, rebalanced, finalMeasured⟩ := inductionHypothesis
            replaced.focused (replaced.usable usable) midRest midMeasured
            (Nat.le_of_succ_le_succ enough)
          have topLive : top < mid.live :=
            replaced.focused.liveBelow top (Shape.mem_slots_of_root? isTop)
          have up : (mid.headers top).link .parent = Context.parent? rest :=
            replaced.focused.below.parent_of_root? isTop
          refine ⟨after, ?_, (replaced.throughout node).trans rebalanced ?_, finalMeasured⟩
          · rw [Mend.logAll_append]
            refine steps.bind ?_
            refine Action.Yields.silently (yields_link (replaced.usable usable) topLive .parent) ?_
            rw [up]
            exact walk
          · intro slot member
            rw [Context.slots_fill_congr settles.slots_eq] at member
            exact member

/-- A walk that may take as many steps as slots are live gets from any hole to the root. -/
theorem Focused.length_context_le (focused : graph.Focused context shape) :
    context.length ≤ graph.live := by
  have few := focused.length_le
  have short := Context.length_le_slots context
  omega

end SlabTree.Tree.Graph
