import SlabTree.Proofs.Tree.Verification

/-!
# Rebalancing under heights that lie

The walk to the root decides by cached heights, and these may be anything.  Whatever it makes
of them, it changes links by rotations only, and a rotation of a linked shape leaves a linked
shape with the same slots in order, whether or not it was called for.  A walk along such a shape
goes up a level with every step, so it comes to an end: at the root, or at a slot whose heights
are those of no balanced tree, or where the height of a node does not fit any more.
-/

namespace SlabTree.Tree.Graph

variable {graph mid after : Graph} {context : Context} {shape old new last near far : Shape}
  {side : Side} {slot : Slot} {child : Option Slot} {slots : List Slot} {fault : Fault}
  {rise more : Nat} {tree : Tree}

/-! ## Heights and balances that may not fit -/

/-- The outcome is this answer, or a fault of a kind. -/
def Unless {α : Type} (kind : Fault → Prop) (outcome : Except Fault α) (answer : α) : Prop :=
  outcome = .ok answer ∨ ∃ fault, outcome = .error fault ∧ kind fault

theorem Unless.bind {α β : Type} {kind : Fault → Prop} {outcome : Except Fault α}
    {f : α → Except Fault β} {first : α} {second : β} (head : Unless kind outcome first)
    (tail : Unless kind (f first) second) : Unless kind (outcome >>= f) second := by
  rcases head with rfl | ⟨fault, rfl, this⟩
  · exact tail
  · exact Or.inr ⟨fault, rfl, this⟩

theorem fitted_unless {kind : Fault → Prop} {height : Int}
    (large : ¬FitsHeight height → kind (.heightOverflow height)) :
    Unless kind (fitted height) height := by
  by_cases fits : FitsHeight height
  · exact Or.inl (if_pos fits)
  · exact Or.inr ⟨_, if_neg fits, large fits⟩

/-- The height that a slot has by the cached heights of its children, if both of these leave
room for a further level. -/
def fittedHeight (graph : Graph) (slot : Slot) : Except Fault Int := do
  let left ← fitted (graph.contribution (graph.headers slot).left)
  let right ← fitted (graph.contribution (graph.headers slot).right)
  .ok (max left right)

/-- The balance of a slot by the cached heights of its children, if it and they fit. -/
def fittedBalance (graph : Graph) (slot : Slot) : Except Fault Int := do
  let right ← fitted (graph.contribution (graph.headers slot).right)
  let left ← fitted (graph.contribution (graph.headers slot).left)
  fitted (right - left)

theorem contribution_eq_fitted (usable : graph.Usable) (looks : tree.graph = graph)
    (live : ∀ slot, child = some slot → slot < graph.live) :
    tree.contribution child = fitted (graph.contribution child) := by
  cases child with
  | none => rfl
  | some slot =>
      simp only [Tree.contribution, cachedHeight_eq_ok usable (live slot rfl) looks, Bind.bind,
        Except.bind, contribution]

section Reads

variable (usable : graph.Usable) (looks : tree.graph = graph) (live : slot < graph.live)
  (children : ∀ side child, (graph.headers slot).child side = some child → child < graph.live)

include usable looks live children

theorem heightFromChildren_eq_fitted :
    tree.heightFromChildren slot = graph.fittedHeight slot := by
  have onLeft : tree.contribution (graph.headers slot).left = _ :=
    contribution_eq_fitted usable looks (children .left)
  have onRight : tree.contribution (graph.headers slot).right = _ :=
    contribution_eq_fitted usable looks (children .right)
  rw [Tree.heightFromChildren, header_eq_ok usable live looks]
  simp only [Bind.bind, Except.bind, onLeft, onRight]
  rfl

theorem balance_eq_fitted : tree.balance slot = graph.fittedBalance slot := by
  have onLeft : tree.contribution (graph.headers slot).left = _ :=
    contribution_eq_fitted usable looks (children .left)
  have onRight : tree.contribution (graph.headers slot).right = _ :=
    contribution_eq_fitted usable looks (children .right)
  rw [Tree.balance, header_eq_ok usable live looks]
  simp only [Bind.bind, Except.bind, onLeft, onRight]
  rfl

end Reads

/-! ## How large heights are -/

/-- Cached heights of these slots are not far below zero, and not above a bound. -/
def Ceiling (graph : Graph) (slots : List Slot) (bound : Int) : Prop :=
  0 ≤ bound ∧ ∀ slot ∈ slots,
    -0x40000000 ≤ (graph.headers slot).height ∧ (graph.headers slot).height ≤ bound

theorem Ceiling.mono {bound higher : Int} (ceiling : graph.Ceiling slots bound)
    (le : bound ≤ higher) : graph.Ceiling slots higher :=
  ⟨ceiling.1.trans le, fun slot member =>
    ⟨(ceiling.2 slot member).1, (ceiling.2 slot member).2.trans le⟩⟩

theorem Ceiling.contribution {bound : Int} (ceiling : graph.Ceiling slots bound)
    (inside : ∀ slot, child = some slot → slot ∈ slots) :
    -0x40000000 < graph.contribution child ∧ graph.contribution child ≤ bound + 1 := by
  cases child with
  | none =>
      have := ceiling.1
      constructor <;> simp only [Graph.contribution] <;> omega
  | some slot =>
      have := ceiling.2 slot (inside slot rfl)
      constructor <;> simp only [Graph.contribution] <;> omega

/-- A height came out that does not fit, which takes a cached height that is large already. -/
def Overflows (graph : Graph) (slots : List Slot) (fault : Fault) : Prop :=
  ∃ height, fault = .heightOverflow height ∧ ¬FitsHeight height ∧
    ∀ bound, graph.Ceiling slots bound → 0x40000000 ≤ bound

/-- Heights at a slot are those of no balanced tree: its sides differ by more than two, or there
is nothing on the side that is the taller. -/
def Corrupts (graph : Graph) (slots : List Slot) (fault : Fault) : Prop :=
  ∃ slot ∈ slots, ∃ balance, fault = .corrupt slot balance ∧
    graph.fittedBalance slot = .ok balance ∧
      (balance < -2 ∨ 2 < balance ∨
        ∃ side, 0 < tilt side balance ∧ (graph.headers slot).child side = none)

/-- The reasons for which a walk stops before it is at the root. -/
def Halts (graph : Graph) (slots : List Slot) (fault : Fault) : Prop :=
  graph.Overflows slots fault ∨ graph.Corrupts slots fault

section Fitted

variable (inside : ∀ side child, (graph.headers slot).child side = some child → child ∈ slots)

include inside

theorem contribution_unless (side : Side) :
    Unless (graph.Overflows slots) (fitted (graph.contribution ((graph.headers slot).child side)))
      (graph.contribution ((graph.headers slot).child side)) := by
  refine fitted_unless fun large => ⟨_, rfl, large, fun bound ceiling => ?_⟩
  have between := ceiling.contribution (inside side)
  by_contra low
  exact large ⟨by omega, by omega⟩

theorem fittedHeight_unless :
    Unless (graph.Overflows slots) (graph.fittedHeight slot) (graph.heightFromChildren slot) :=
  (contribution_unless inside .left).bind ((contribution_unless inside .right).bind (Or.inl rfl))

theorem fittedBalance_unless :
    Unless (graph.Overflows slots) (graph.fittedBalance slot) (graph.balance slot) := by
  refine (contribution_unless inside .right).bind ((contribution_unless inside .left).bind ?_)
  refine fitted_unless fun large => ⟨_, rfl, large, fun bound ceiling => ?_⟩
  have onRight := ceiling.contribution (inside .right)
  have onLeft := ceiling.contribution (inside .left)
  by_contra low
  exact large ⟨by omega, by omega⟩

/-- Refreshing one height raises the ceiling by one level at most. -/
theorem Ceiling.refresh {bound : Int} (ceiling : graph.Ceiling slots bound) :
    (graph.refresh slot).Ceiling slots (bound + 1) := by
  have onRight : -0x40000000 < graph.contribution (graph.headers slot).right ∧ _ :=
    ceiling.contribution (inside .right)
  have onLeft : -0x40000000 < graph.contribution (graph.headers slot).left ∧ _ :=
    ceiling.contribution (inside .left)
  refine ⟨by have := ceiling.1; omega, fun other member => ?_⟩
  have before := ceiling.2 other member
  rw [height_refresh]
  split
  · unfold heightFromChildren
    omega
  · omega

end Fitted

theorem fits_of_fitted {height answer : Int} (answered : fitted height = .ok answer) :
    FitsHeight answer := by
  unfold fitted at answered
  split at answered
  · cases answered
    assumption
  · cases answered

/-- Heights of slots whose children leave room for a further level fit. -/
theorem fits_of_fittedHeight {height : Int} (answered : graph.fittedHeight slot = .ok height) :
    FitsHeight height := by
  obtain ⟨left, onLeft, answered⟩ := exists_of_bind_eq_ok answered
  obtain ⟨right, onRight, answered⟩ := exists_of_bind_eq_ok answered
  cases answered
  rcases max_choice left right with larger | larger
  · rw [larger]
    exact fits_of_fitted onLeft
  · rw [larger]
    exact fits_of_fitted onRight

/-! ## One linked shape after another -/

/-- The links spell out a shape in its place, and all slots in order are these. -/
structure Standing (graph : Graph) (slots : List Slot) (context : Context) (shape : Shape) :
    Prop where
  usable : graph.Usable
  focused : graph.Focused context shape
  slots_eq : (Context.fill context shape).slots = slots

/-- Restructuring changes no records, and raises cached heights by so much at most. -/
structure Shifts (before after : Graph) (slots : List Slot) (rise : Nat) : Prop where
  contents : after.contents = before.contents
  ceiling : ∀ bound, before.Ceiling slots bound → after.Ceiling slots (bound + rise)

theorem Shifts.refl (graph : Graph) (slots : List Slot) : graph.Shifts graph slots 0 :=
  ⟨rfl, fun _ ceiling => ceiling.mono (by omega)⟩

theorem Shifts.trans (first : graph.Shifts mid slots rise) (second : mid.Shifts after slots more) :
    graph.Shifts after slots (rise + more) :=
  ⟨second.contents.trans first.contents, fun _ ceiling =>
    (second.ceiling _ (first.ceiling _ ceiling)).mono (by omega)⟩

theorem Shifts.mono (shifts : graph.Shifts after slots rise) (le : rise ≤ more) :
    graph.Shifts after slots more :=
  ⟨shifts.contents, fun _ ceiling => (shifts.ceiling _ ceiling).mono (by omega)⟩

namespace Standing

theorem mem_slots (standing : graph.Standing slots context shape) (member : slot ∈ shape.slots) :
    slot ∈ slots := by
  rw [← standing.slots_eq]
  exact Context.mem_slots_fill.mpr (Or.inr member)

theorem live (standing : graph.Standing slots context shape) (member : slot ∈ slots) :
    slot < graph.live := by
  rw [← standing.slots_eq] at member
  exact (spans_fill.mpr standing.focused).live slot member

/-- Links lead from slots to slots. -/
theorem inside (standing : graph.Standing slots context shape) (member : slot ∈ slots) :
    ∀ side child, (graph.headers slot).child side = some child → child ∈ slots := by
  intro side child leads
  rw [← standing.slots_eq] at member ⊢
  exact (spans_fill.mpr standing.focused).linked.child_mem member leads

/-- Another shape with the same slots may stand in the place. -/
theorem replace (standing : graph.Standing slots context old) (usable : after.Usable)
    (focused : after.Focused context new) (same : new.slots = old.slots) :
    after.Standing slots context new :=
  ⟨usable, focused, (Context.slots_fill_congr same).trans standing.slots_eq⟩

theorem inward {frame : Frame} (standing : graph.Standing slots context (frame.fill shape)) :
    graph.Standing slots (frame :: context) shape :=
  ⟨standing.usable, focused_cons.mpr standing.focused, standing.slots_eq⟩

theorem outward {frame : Frame} (standing : graph.Standing slots (frame :: context) shape) :
    graph.Standing slots context (frame.fill shape) :=
  ⟨standing.usable, focused_cons.mp standing.focused, standing.slots_eq⟩

/-- What stands in a place stands there as part of the whole. -/
theorem throughout (standing : graph.Standing slots context shape) :
    graph.Standing slots [] (Context.fill context shape) :=
  ⟨standing.usable, (@spans_fill graph [] (Context.fill context shape)).mp
    ((@spans_fill graph context shape).mpr standing.focused), standing.slots_eq⟩

/-- Part of the whole stands in its place. -/
theorem part (standing : graph.Standing slots [] (Context.fill context shape)) :
    graph.Standing slots context shape :=
  ⟨standing.usable, (@spans_fill graph context shape).mp
    ((@spans_fill graph [] (Context.fill context shape)).mpr standing.focused), standing.slots_eq⟩

/-- Counters and heights do not matter to where slots stand. -/
theorem congr (standing : graph.Standing slots context shape)
    (links : ∀ slot link, (after.headers slot).link link = (graph.headers slot).link link)
    (root : after.root = graph.root) (contents : after.contents = graph.contents) :
    after.Standing slots context shape :=
  standing.replace (usable_of_contents standing.usable contents)
    (standing.focused.congr links root (live_of_contents contents)) rfl

/-! ## Single steps -/

/-- A look at the balance of a slot. -/
theorem comes_balance (standing : graph.Standing slots context shape) (member : slot ∈ slots) :
    Action.Comes Tree.graph (Action.read (·.balance slot)) graph fun result after =>
      result = graph.fittedBalance slot ∧ after = graph :=
  Action.comes_read (fun _ looks => balance_eq_fitted standing.usable looks (standing.live member)
    fun _ child leads => standing.live (standing.inside member _ child leads)) ⟨rfl, rfl⟩

/-- A balance that cannot be seen is one that does not fit. -/
theorem overflows_of_balance (standing : graph.Standing slots context shape)
    (member : slot ∈ slots) (stopped : .error fault = graph.fittedBalance slot) :
    graph.Overflows slots fault := by
  rcases fittedBalance_unless (standing.inside member) with fits | ⟨_, large, overflows⟩
  · cases stopped.trans fits
  · cases stopped.trans large
    exact overflows

/-- Refreshing the height of a slot leaves it where it is. -/
theorem comes_updateHeight (standing : graph.Standing slots context shape)
    (member : slot ∈ slots) :
    Action.Comes Tree.graph (updateHeight slot) graph fun result after =>
      graph.Shifts after slots 1 ∧ after.Standing slots context shape ∧
        ∀ fault, result = .error fault → after.Overflows slots fault := by
  have inside := standing.inside member
  have reads : ∀ tree : Tree, tree.graph = graph → tree.heightFromChildren slot =
      graph.fittedHeight slot := fun _ looks =>
    heightFromChildren_eq_fitted standing.usable looks (standing.live member)
      fun _ child leads => standing.live (inside _ child leads)
  rcases fittedHeight_unless inside with fits | ⟨fault, large, overflows⟩
  · have both := fits_of_fittedHeight fits
    have steps : Action.Yields Tree.graph (updateHeight slot) graph () (graph.refresh slot) {} :=
      (Action.yields_read _ fun tree looks => (reads tree looks).trans fits).silently
        (yields_setCachedHeight standing.usable (standing.live member) both.1 both.2)
    exact steps.ends.comes ⟨⟨rfl, fun _ ceiling => ceiling.refresh inside⟩,
      standing.congr (fun _ => link_refresh) rfl rfl, nofun⟩
  · have stops : Action.Ends Tree.graph (updateHeight slot) graph (.error fault) graph {} :=
      (Action.ends_read fun tree looks => (reads tree looks).trans large).breaking
    exact stops.comes ⟨(Shifts.refl graph slots).mono (Nat.zero_le 1), standing,
      fun _ same => Except.error.inj same ▸ overflows⟩

end Standing

/-- A place has been restructured: a shape with the same slots stands there, and the answer is the
slot at its top, or else there is a reason to halt. -/
structure Leaves (before after : Graph) (slots : List Slot) (context : Context) (new : Shape)
    (rise : Nat) (result : Except Fault Slot) : Prop where
  shifts : before.Shifts after slots rise
  standing : after.Standing slots context new
  top : ∀ top, result = .ok top → new.root? = some top
  halts : ∀ fault, result = .error fault → after.Halts slots fault

theorem Leaves.following {result : Except Fault Slot} (shifts : graph.Shifts mid slots rise)
    (leaves : mid.Leaves after slots context new more result) :
    graph.Leaves after slots context new (rise + more) result :=
  { leaves with shifts := shifts.trans leaves.shifts }

theorem Leaves.mono {result : Except Fault Slot}
    (leaves : graph.Leaves after slots context new rise result) (le : rise ≤ more) :
    graph.Leaves after slots context new more result :=
  { leaves with shifts := leaves.shifts.mono le }

namespace Standing

/-- What halts leaves everything as it is. -/
theorem leaves_of_halts {fault : Fault} (standing : graph.Standing slots context shape)
    (halts : graph.Halts slots fault) :
    graph.Leaves graph slots context shape 0 (.error fault) :=
  ⟨Shifts.refl graph slots, standing, nofun, fun _ same => Except.error.inj same ▸ halts⟩

/-- The links of a rotation, without the heights. -/
theorem relinked {outer within : Shape} {pivot : Slot}
    (standing : graph.Standing slots context
      (.join side (.join side outer pivot within) slot far)) :
    (graph.relink side slot pivot within.root? (Context.parent? context)
      (Context.gate? context)).Standing slots context
        (.join side outer pivot (.join side within slot far)) :=
  standing.replace standing.usable
    (standing.focused.lift.congr (fun _ link => (link_lift link).symm) rfl rfl)
    (Shape.slots_lift side outer pivot within slot far)

/-- A rotation lifts a child that is there, also where the heights do not fit. -/
theorem comes_rotate {outer within : Shape} {pivot : Slot}
    (standing : graph.Standing slots context
      (.join side (.join side outer pivot within) slot far)) :
    Action.Comes Tree.graph (rotate side slot) graph fun result after =>
      graph.Leaves after slots context (.join side outer pivot (.join side within slot far)) 2
        result := by
  have relinked := standing.relinked
  have same : graph.Shifts (graph.relink side slot pivot within.root? (Context.parent? context)
      (Context.gate? context)) slots 0 := by
    refine ⟨rfl, fun bound ceiling => ⟨by have := ceiling.1; omega, fun other member => ?_⟩⟩
    have := ceiling.2 other member
    rw [height_relink]
    omega
  have slotMember : slot ∈ slots := standing.mem_slots (mem_slots_around.mpr (Or.inl rfl))
  have pivotMember : pivot ∈ slots :=
    standing.mem_slots (mem_slots_around.mpr (Or.inr (Or.inl rfl)))
  obtain ⟨result, after, log, ends, leaves⟩ :
      Action.Comes Tree.graph
        (do
          updateHeight slot
          updateHeight pivot
          Action.log (.rotate side slot pivot)
          pure pivot)
        (graph.relink side slot pivot within.root? (Context.parent? context)
          (Context.gate? context))
        fun result after => graph.Leaves after slots context
          (.join side outer pivot (.join side within slot far)) 2 result := by
    refine (relinked.comes_updateHeight slotMember).bind ?_ ?_
    · rintro fault after ⟨shifts, stands, overflows⟩
      exact ⟨(same.trans shifts).mono (by omega), stands, nofun,
        fun _ same => Or.inl (overflows _ (by cases same; rfl))⟩
    rintro ⟨⟩ lower ⟨shifts, stands, _⟩
    have first := same.trans shifts
    refine (stands.comes_updateHeight pivotMember).bind ?_ ?_
    · rintro fault after ⟨shifts, stands, overflows⟩
      exact ⟨(first.trans shifts).mono (by omega), stands, nofun,
        fun _ same => Or.inl (overflows _ (by cases same; rfl))⟩
    rintro ⟨⟩ upper ⟨shifts, stands, _⟩
    have logs : Action.Yields Tree.graph (Action.log (.rotate side slot pivot) >>= fun _ =>
        pure pivot) upper pivot upper _ := (Action.yields_log _).answering pivot
    exact logs.ends.comes ⟨(first.trans shifts).mono (by omega), stands,
      fun _ same => Except.ok.inj same ▸ Shape.root?_join, nofun⟩
  exact ⟨result, after, log, standing.focused.ends_rotate standing.usable ends, leaves⟩

/-- A child that a rotation has to lift and that is not there ends the run. -/
theorem comes_requireChild (standing : graph.Standing slots context shape) (member : slot ∈ slots)
    (missing : (graph.headers slot).child side = none)
    (taller : ∀ balance, graph.fittedBalance slot = .ok balance → 0 < tilt side balance) :
    Action.Comes Tree.graph (requireChild slot side) graph fun result after =>
      ∃ fault, result = .error fault ∧ after = graph ∧ graph.Halts slots fault := by
  refine (yields_child standing.usable (standing.live member) side).comes ?_
  rw [missing]
  refine (standing.comes_balance member).bind ?_ ?_
  · rintro fault after ⟨large, rfl⟩
    exact ⟨_, rfl, rfl, Or.inl (standing.overflows_of_balance member large)⟩
  · rintro balance after ⟨fits, rfl⟩
    have stops : Action.Ends Tree.graph (corrupt slot balance : Action Tree Slot) after
        (.error (.corrupt slot balance)) after _ :=
      (Action.yields_log _).onward (Action.ends_fail _)
    exact stops.comes ⟨_, rfl, rfl, Or.inr ⟨slot, member, balance, rfl, fits.symm, Or.inr (Or.inr
      ⟨side, taller balance fits.symm, missing⟩)⟩⟩

/-- A rotation for which the child is not there ends the run at once. -/
theorem comes_rotate_missing (standing : graph.Standing slots context shape)
    (member : slot ∈ slots) (missing : (graph.headers slot).child side = none)
    (taller : ∀ balance, graph.fittedBalance slot = .ok balance → 0 < tilt side balance) :
    Action.Comes Tree.graph (rotate side slot) graph fun result after =>
      ∃ fault, result = .error fault ∧ after = graph ∧ graph.Halts slots fault := by
  refine (yields_link standing.usable (standing.live member) .parent).comes ?_
  refine (standing.comes_requireChild member missing taller).bind (fun _ _ halts => halts) ?_
  rintro _ _ ⟨_, ⟨⟩, _⟩

/-- Counters do not matter. -/
theorem counted (standing : graph.Standing slots context shape) (counters : Counters) :
    ({ graph with counters := counters } : Graph).Standing slots context shape :=
  standing.congr (fun _ _ => rfl) rfl rfl

theorem shifts_counted (graph : Graph) (slots : List Slot) (counters : Counters) :
    graph.Shifts { graph with counters := counters } slots 0 :=
  ⟨rfl, fun _ ceiling => ceiling.mono (by omega)⟩

/-! ## Mending -/

/-- A child that leans the other way is straightened before it is lifted. -/
theorem comes_double {outer inner : Shape} {pivot : Slot}
    (standing : graph.Standing slots context
      (.join side (.join side outer pivot inner) slot far))
    (taller : ∀ balance, graph.fittedBalance pivot = .ok balance → 0 < tilt side.flip balance) :
    Action.Comes Tree.graph (rotate side.flip pivot >>= fun _ => rotate side slot) graph
      fun result after => ∃ new, graph.Leaves after slots context new 4 result := by
  have pivotMember : pivot ∈ slots :=
    standing.mem_slots (mem_slots_around.mpr (Or.inr (Or.inl rfl)))
  have inward : graph.Standing slots (⟨side, slot, far⟩ :: context)
      (.join side.flip inner pivot outer) := by
    rw [Shape.join_flip]
    exact standing.inward
  by_cases empty : inner = .leaf
  · subst empty
    obtain ⟨_, toInner, _⟩ := linked_join.mp inward.focused.below
    refine (inward.comes_rotate_missing pivotMember toInner taller).bind ?_ ?_
    · rintro fault after ⟨_, ⟨⟩, rfl, halts⟩
      exact ⟨_, (standing.leaves_of_halts halts).mono (Nat.zero_le _)⟩
    · rintro _ _ ⟨_, ⟨⟩, _⟩
  · obtain ⟨distant, top, close, rfl⟩ := Shape.exists_join side.flip empty
    refine inward.comes_rotate.bind ?_ ?_
    · rintro fault after leaves
      exact ⟨_, leaves.shifts.mono (by omega), leaves.standing.outward, nofun, leaves.halts⟩
    · rintro lifted middle leaves
      have straight := leaves.standing
      rw [Shape.join_flip, Shape.join_flip] at straight
      refine straight.outward.comes_rotate.mono fun result after again => ?_
      exact ⟨_, (again.following leaves.shifts).mono (by omega)⟩

/-- What `mend` does with the child on the heavy side, whatever its heights. -/
theorem comes_mend (standing : graph.Standing slots context (near.join side slot far))
    (taller : ∀ balance, graph.fittedBalance slot = .ok balance → 0 < tilt side balance) :
    Action.Comes Tree.graph (Tree.mend side slot) graph
      fun result after => ∃ new, graph.Leaves after slots context new 4 result := by
  have member : slot ∈ slots := standing.mem_slots (Shape.mem_slots_join.mpr (Or.inl rfl))
  obtain ⟨_, toNear, _⟩ := linked_join.mp standing.focused.below
  by_cases empty : near = .leaf
  · subst empty
    refine (standing.comes_requireChild member toNear taller).bind ?_ ?_
    · rintro fault after ⟨_, ⟨⟩, rfl, halts⟩
      exact ⟨_, (standing.leaves_of_halts halts).mono (Nat.zero_le _)⟩
    · rintro _ _ ⟨_, ⟨⟩, _⟩
  obtain ⟨outer, pivot, inner, rfl⟩ := Shape.exists_join side empty
  have pivotMember : pivot ∈ slots :=
    standing.mem_slots (mem_slots_around.mpr (Or.inr (Or.inl rfl)))
  rw [Shape.root?_join] at toNear
  refine (yields_requireChild standing.usable (standing.live member) toNear).comes ?_
  refine (standing.comes_balance pivotMember).bind ?_ ?_
  · rintro fault after ⟨large, rfl⟩
    exact ⟨_, (standing.leaves_of_halts
      (Or.inl (standing.overflows_of_balance pivotMember large))).mono (Nat.zero_le _)⟩
  rintro balance after ⟨fits, rfl⟩
  split
  · refine (yields_updateCounters _).comes ?_
    refine (standing.counted _).comes_rotate.mono fun result after leaves => ?_
    exact ⟨_, (leaves.following (shifts_counted _ slots _)).mono (by omega)⟩
  next other =>
    have leans : ∀ balance, after.fittedBalance pivot = .ok balance →
        0 < tilt side.flip balance := by
      intro again same
      cases fits.trans same
      cases side <;> simp only [tilt, Side.flip] at other ⊢ <;> omega
    refine (yields_updateCounters _).comes ?_
    refine ((standing.counted after.counters.countDouble).comes_double leans).mono ?_
    rintro result final ⟨new, leaves⟩
    exact ⟨new, (leaves.following (shifts_counted _ slots _)).mono (by omega)⟩

/-- Settling a node leaves a shape with the same slots in its place, or ends the run there. -/
theorem comes_settle (standing : graph.Standing slots context (near.join side slot far)) :
    Action.Comes Tree.graph (settle slot) graph
      fun result after => ∃ new, graph.Leaves after slots context new 5 result := by
  have member : slot ∈ slots := standing.mem_slots (Shape.mem_slots_join.mpr (Or.inl rfl))
  refine (standing.comes_updateHeight member).bind ?_ ?_
  · rintro fault after ⟨shifts, stands, overflows⟩
    exact ⟨_, shifts.mono (by omega), stands, nofun,
      fun _ same => Or.inl (overflows _ (by cases same; rfl))⟩
  rintro ⟨⟩ refreshed ⟨shifts, stands, _⟩
  refine (stands.comes_balance member).bind ?_ ?_
  · rintro fault after ⟨large, rfl⟩
    have leaves := stands.leaves_of_halts (Or.inl (stands.overflows_of_balance member large))
    exact ⟨_, (leaves.following shifts).mono (by omega)⟩
  rintro balance after ⟨fits, rfl⟩
  have onward : ∀ which, 0 < tilt which balance → Action.Comes Tree.graph (Tree.mend which slot)
      after fun result final => ∃ new, graph.Leaves final slots context new 5 result := by
    intro which heavy
    have taller : ∀ balance, after.fittedBalance slot = .ok balance → 0 < tilt which balance := by
      intro again same
      cases fits.trans same
      exact heavy
    have comes : Action.Comes Tree.graph (Tree.mend which slot) after
        fun result final => ∃ new, after.Leaves final slots context new 4 result := by
      rcases Side.eq_or_eq_flip side which with rfl | rfl
      · exact stands.comes_mend taller
      · rw [← Shape.join_flip] at stands
        exact stands.comes_mend taller
    refine comes.mono ?_
    rintro result final ⟨new, leaves⟩
    exact ⟨new, (leaves.following shifts).mono (by omega)⟩
  split
  · exact (Action.yields_pure slot after).ends.comes ⟨_, shifts.mono (by omega), stands,
      fun _ same => Except.ok.inj same ▸ Shape.root?_join, nofun⟩
  split
  next light => exact onward .left (by rw [light]; decide)
  split
  next heavy => exact onward .right (by rw [heavy]; decide)
  next uneven notLeft notRight =>
    have far_ : balance < -2 ∨ 2 < balance := by omega
    have stops : Action.Ends Tree.graph (corrupt slot balance : Action Tree Slot) after
        (.error (.corrupt slot balance)) after _ :=
      (Action.yields_log _).onward (Action.ends_fail _)
    refine stops.comes ⟨_, ((stands.leaves_of_halts (Or.inr ⟨slot, member, balance, rfl, fits.symm,
      ?_⟩)).following shifts).mono (by omega)⟩
    rcases far_ with low | high
    · exact Or.inl low
    · exact Or.inr (Or.inl high)

/-! ## The walk to the root -/

/-- The walk to the root leaves a shape with the same slots in order, wherever it stops. -/
theorem comes_rebalanceWithin (standing : graph.Standing slots context shape) {fuel : Nat}
    (enough : context.length ≤ fuel) :
    Action.Comes Tree.graph (rebalanceWithin fuel (Context.parent? context)) graph
      fun result after => graph.Shifts after slots (5 * context.length) ∧
        (∃ whole, after.Standing slots [] whole) ∧
          ∀ fault, result = .error fault → after.Halts slots fault := by
  induction context generalizing graph shape fuel with
  | nil =>
      have nothing :
          Action.Ends Tree.graph (rebalanceWithin fuel none) graph (.ok ()) graph {} := by
        cases fuel <;> exact Action.yields_pure () graph
      exact nothing.comes ⟨Shifts.refl graph slots, ⟨_, standing⟩, nofun⟩
  | cons frame rest inductionHypothesis =>
      cases fuel with
      | zero => contradiction
      | succ fuel =>
          have node : graph.Standing slots rest (shape.join frame.side frame.slot frame.sibling) :=
            standing.outward
          refine node.comes_settle.bind ?_ ?_
          · rintro fault after ⟨new, leaves⟩
            exact ⟨leaves.shifts.mono (by simp only [List.length_cons]; omega),
              ⟨_, leaves.standing.throughout⟩, fun _ same => leaves.halts _ (by cases same; rfl)⟩
          rintro top middle ⟨new, leaves⟩
          have isTop := leaves.top top rfl
          have topMember := leaves.standing.mem_slots (Shape.mem_slots_of_root? isTop)
          have up : (middle.headers top).link .parent = Context.parent? rest :=
            leaves.standing.focused.below.parent_of_root? isTop
          refine (yields_link leaves.standing.usable (leaves.standing.live topMember)
            .parent).comes ?_
          rw [up]
          refine (inductionHypothesis leaves.standing (Nat.le_of_succ_le_succ enough)).mono ?_
          rintro result after ⟨shifts, whole, halts⟩
          exact ⟨(leaves.shifts.trans shifts).mono (by simp only [List.length_cons]; omega), whole,
            halts⟩

/-- Whatever the cached heights, rebalancing from a slot leaves a linked shape with the same slots
in order, and ends for a reason or at the root. -/
theorem comes_rebalance (standing : graph.Standing slots [] shape) {start : Slot}
    (member : start ∈ slots) :
    Action.Comes Tree.graph (rebalance (some start)) graph
      fun result after => graph.Shifts after slots (5 * shape.height) ∧
        (∃ whole, after.Standing slots [] whole) ∧
          ∀ fault, result = .error fault → after.Halts slots fault := by
  have inShape : start ∈ shape.slots := by
    rw [← standing.slots_eq] at member
    exact member
  obtain ⟨context, left, right, rfl⟩ := Context.exists_fill_of_mem inShape
  have below : graph.Standing slots (⟨.left, start, right⟩ :: context) left :=
    standing.part.inward
  have short := Context.length_add_height_le (⟨.left, start, right⟩ :: context) left
  refine Action.Comes.mono (below.comes_rebalanceWithin ?_) ?_
  · have few := below.focused.length_lt below.usable
    have frames := Context.length_le_slots (⟨.left, start, right⟩ :: context)
    unfold walkLimit
    omega
  · rintro result after ⟨shifts, whole, halts⟩
    exact ⟨shifts.mono (Nat.mul_le_mul_left 5 (Nat.le_trans (Nat.le_add_right _ _) short)), whole,
      halts⟩

end Standing

end Graph

/-! ## Rebalancing damaged trees -/

variable {tree damaged : Tree} {headers : Slot → Header} {shape : Shape} {slot start : Slot}

/-- The links from the root of a tree spell out a shape.  Cached heights, records and the count may
be anything, and so may all slots that the links do not lead to. -/
structure Spells (tree : Tree) (headers : Slot → Header) (shape : Shape) : Prop where
  header_eq : ∀ slot ∈ shape.slots, tree.header slot = .ok (headers slot)
  root_eq : tree.root = shape.root?
  linked : Linked headers none shape
  nodup : shape.slots.Nodup

theorem Spells.live (spells : Spells tree headers shape) (member : slot ∈ shape.slots) :
    slot < tree.graph.live := by
  have answered := spells.header_eq slot member
  cases read : tree.arena.read slot 0 Header.size with
  | ok bytes => exact Arena.live_of_read read
  | error fault => simp only [header, read, Except.map, reduceCtorEq] at answered

theorem Spells.headers_eq (usable : tree.graph.Usable) (spells : Spells tree headers shape) :
    ∀ slot ∈ shape.slots, tree.graph.headers slot = headers slot := by
  intro slot member
  have read := Graph.header_eq_ok usable (spells.live member) rfl
  rw [spells.header_eq slot member] at read
  exact (Except.ok.inj read).symm

theorem Spells.spans (usable : tree.graph.Usable) (spells : Spells tree headers shape) :
    tree.graph.Spans shape where
  root_eq := spells.root_eq
  linked := spells.linked.congr fun slot member _ => by rw [spells.headers_eq usable slot member]
  nodup := spells.nodup
  live := fun _ => spells.live

theorem Graph.Spans.spells (usable : tree.graph.Usable) (spans : tree.graph.Spans shape) :
    Spells tree tree.graph.headers shape where
  header_eq := fun slot member => Graph.header_eq_ok usable (spans.live slot member) rfl
  root_eq := spans.root_eq
  linked := spans.linked
  nodup := spans.nodup

/-- Cached heights are so far from the limits of their numbers that levels may still be added. -/
def Roomy (headers : Slot → Header) (shape : Shape) : Prop :=
  ∀ slot ∈ shape.slots, (headers slot).height.natAbs + 5 * shape.height < 0x40000000

/-- The balance of a slot, by the cached heights, is that of no balanced tree: it differs from zero
by more than two, or there is nothing on the side that is the taller. -/
def Unmendable (tree : Tree) (slot : Slot) (balance : Int) : Prop :=
  tree.balance slot = .ok balance ∧
    (balance < -2 ∨ 2 < balance ∨ ∃ side, 0 < tilt side balance ∧ tree.child slot side = .ok none)

/-- A roomy shape leaves room below the ceiling for all levels of a walk. -/
theorem Spells.ceiling (usable : tree.graph.Usable) (spells : Spells tree headers shape)
    (roomy : Roomy headers shape) (member : slot ∈ shape.slots) :
    tree.graph.Ceiling shape.slots (0x3fffffff - (5 * shape.height : Nat)) := by
  have here := roomy slot member
  refine ⟨by omega, fun other inside => ?_⟩
  have there := roomy other inside
  rw [spells.headers_eq usable other inside]
  omega

/-- What halts a walk is seen in the tree that it leaves. -/
theorem Graph.Standing.unmendable {slots : List Slot} {fault : Fault}
    (standing : tree.graph.Standing slots [] shape) (corrupts : tree.graph.Corrupts slots fault) :
    ∃ slot balance, slot ∈ slots ∧ fault = .corrupt slot balance ∧
      Unmendable tree slot balance := by
  obtain ⟨slot, member, balance, same, fits, cause⟩ := corrupts
  have live := standing.live member
  refine ⟨slot, balance, member, same, ?_, ?_⟩
  · rw [Graph.balance_eq_fitted standing.usable rfl live fun _ child leads =>
      standing.live (standing.inside member _ child leads)]
    exact fits
  · rcases cause with low | high | ⟨side, taller, missing⟩
    · exact Or.inl low
    · exact Or.inr (Or.inl high)
    · exact Or.inr (Or.inr ⟨side, taller,
        (Graph.child_eq_ok standing.usable live rfl side).trans (congrArg Except.ok missing)⟩)

/-- Whatever heights are cached in a tree whose links spell out a shape, rebalancing from one of its
slots comes to an end and leaves a tree whose links spell out a shape with the same slots in the
same order, and with all records where they were.  It ends at the root, unless it comes to a slot
with a balance that is that of no balanced tree or that it has no child to mend with, or to heights
that do not fit; and these come up only where cached heights are large to begin with. -/
theorem rebalance_of_damage (reachable : Reachable tree)
    (numbers : damaged.arena.ledger = tree.arena.ledger)
    (options : damaged.options = tree.options) (spells : Spells damaged headers shape)
    (member : start ∈ shape.slots) (journal : Journal) :
    ∃ result final later whole,
      Tree.rebalance (some start) ⟨damaged, journal⟩ = Action.ending result final ∧
        Spells final.state later whole ∧ whole.slots = shape.slots ∧
          (∀ slot < damaged.arena.live, final.state.payload slot = damaged.payload slot) ∧
            final.state.arena.ledger = damaged.arena.ledger ∧
              final.state.options = damaged.options ∧ final.state.count = damaged.count ∧
                ∀ fault, result = .error fault →
                  (∃ slot balance, slot ∈ shape.slots ∧ fault = .corrupt slot balance ∧
                    Unmendable final.state slot balance) ∨
                  ∃ height, fault = .heightOverflow height ∧ ¬Graph.FitsHeight height ∧
                    ¬Roomy headers shape := by
  have usable := reachable.usable_of_damage numbers options
  have standing : damaged.graph.Standing shape.slots [] shape :=
    ⟨usable, (@Graph.spans_fill damaged.graph [] shape).mp (spells.spans usable), rfl⟩
  obtain ⟨result, after, log, ends, shifts, ⟨whole, stands⟩, halts⟩ :=
    standing.comes_rebalance member
  obtain ⟨final, ran, rfl⟩ := ends damaged journal rfl
  obtain ⟨payloads, count, sameOptions, ledger⟩ := Graph.of_contents shifts.contents
  have live : final.graph.live = damaged.graph.live := congrArg Arena.Ledger.live ledger
  refine ⟨result, _, final.graph.headers, whole, ran,
    Graph.Spans.spells stands.usable ((@Graph.spans_fill final.graph [] whole).mpr stands.focused),
    stands.slots_eq, ?_, ledger, sameOptions, count, ?_⟩
  · intro slot here
    rw [Graph.payload_eq_ok usable here rfl,
      Graph.payload_eq_ok stands.usable (Nat.lt_of_lt_of_eq here live.symm) rfl, payloads]
  intro fault stopped
  rcases halts fault stopped with ⟨height, same, large, high⟩ | corrupts
  · refine Or.inr ⟨height, same, large, fun roomy => ?_⟩
    have above := high _ (shifts.ceiling _ (spells.ceiling usable roomy member))
    omega
  · exact Or.inl (stands.unmendable corrupts)

/-- A left child that claims to be a level taller than it is gets lifted above its parent, for
nothing, and the two slots stay in order. -/
theorem rebalance_of_damage_deceived :
    ∃ made first second damaged final headers later whole,
      Tree.create { maxNodes := 4, nodeSize := 2, keySize := 1 } Host.plain = .ok made ∧
        Tree.insert (.leading 1) [2, 1] ⟨made.state, {}⟩ = .ok (.ok ()) first ∧
          Tree.insert (.leading 1) [1, 1] ⟨first.state, {}⟩ = .ok (.ok ()) second ∧
            Tree.setCachedHeight 1 1 ⟨second.state, {}⟩ = .ok () damaged ∧
              Spells damaged.state headers (.node (.node .leaf 1 .leaf) 0 .leaf) ∧
                Roomy headers (.node (.node .leaf 1 .leaf) 0 .leaf) ∧
                  Tree.rebalance (some 0) ⟨damaged.state, {}⟩ = .ok () final ∧
                    Spells final.state later whole ∧ whole.root? = some 1 ∧
                      whole.slots = [1, 0] ∧
                        ∀ slot < 2, final.state.payload slot = damaged.state.payload slot := by
  have run :
      (match Tree.create { maxNodes := 4, nodeSize := 2, keySize := 1 } Host.plain with
      | .ok made =>
        match Tree.insert (.leading 1) [2, 1] ⟨made.state, {}⟩ with
        | .ok (.ok ()) first =>
          match Tree.insert (.leading 1) [1, 1] ⟨first.state, {}⟩ with
          | .ok (.ok ()) second =>
            match Tree.setCachedHeight 1 1 ⟨second.state, {}⟩ with
            | .ok () damaged =>
              match Tree.rebalance (some 0) ⟨damaged.state, {}⟩ with
              | .ok () final =>
                decide (second.state.arena.live = 2 ∧ damaged.state.arena.live = 2 ∧
                  damaged.state.root = some 0 ∧
                  damaged.state.header 0 =
                    .ok { parent := none, left := some 1, right := none, height := 1 } ∧
                  damaged.state.header 1 =
                    .ok { parent := some 0, left := none, right := none, height := 1 } ∧
                  final.state.root = some 1)
              | _ => false
            | _ => false
          | _ => false
        | _ => false
      | .error _ => false) = true := by
    decide +kernel
  split at run <;> try contradiction
  rename_i made created
  split at run <;> try contradiction
  rename_i first insertedFirst
  split at run <;> try contradiction
  rename_i second insertedSecond
  split at run <;> try contradiction
  rename_i damaged damage
  split at run <;> try contradiction
  rename_i final rebalanced
  obtain ⟨two, still, root, atTop, below, top⟩ := of_decide_eq_true run
  have reachable : Reachable second.state :=
    .insert (.insert (.create created) insertedFirst) insertedSecond
  have written := @Graph.yields_setCachedHeight second.state.graph 1 1
    (reachable.usable_of_damage rfl rfl) (Nat.lt_of_lt_of_eq (by decide) two.symm) (by decide)
    (by decide)
  obtain ⟨_, looks, _⟩ := final_of_yields written rfl damage
  let headers : Slot → Header := fun slot =>
    if slot = 0 then { parent := none, left := some 1, right := none, height := 1 }
    else { parent := some 0, left := none, right := none, height := 1 }
  have spells : Spells damaged.state headers (.node (.node .leaf 1 .leaf) 0 .leaf) :=
    { header_eq := by
        intro slot member
        rcases List.mem_pair.mp member with rfl | rfl
        · exact below
        · exact atTop
      root_eq := root
      linked := ⟨rfl, rfl, rfl, ⟨rfl, rfl, rfl, trivial, trivial⟩, trivial⟩
      nodup := by decide }
  have roomy : Roomy headers (.node (.node .leaf 1 .leaf) 0 .leaf) := by
    intro slot member
    rcases List.mem_pair.mp member with rfl | rfl <;> decide
  obtain ⟨result, after, later, whole, ran, spelled, slots, payloads, _⟩ :=
    @rebalance_of_damage _ damaged.state _ _ 0 reachable (congrArg Graph.ledger looks)
      (congrArg Graph.options looks) spells (by decide) {}
  rw [rebalanced] at ran
  cases result with
  | error fault => cases ran
  | ok answer =>
      cases ran
      exact ⟨made, first, second, damaged, final, headers, later, whole, created, insertedFirst,
        insertedSecond, damage, spells, roomy, rebalanced, spelled, spelled.root_eq.symm.trans top,
        slots, fun slot low => payloads slot (Nat.lt_of_lt_of_eq low still.symm)⟩

end SlabTree.Tree
