import SlabTree.Proofs.Tree.Graph
import SlabTree.Proofs.Tree.Linked
import SlabTree.Tree.Rebalance

/-!
# Surgery on linked shapes

A tree spans a shape when the links from its root spell out the shape over live
slots.  The small operations that restructure a tree each change one link, found
from above or from below, or one cached height.
-/

namespace SlabTree.Tree.Graph

variable {graph : Graph} {slot other : Slot} {child parent target : Option Slot}

/-- The links from the root spell out a shape over live slots. -/
structure Spans (graph : Graph) (shape : Shape) : Prop where
  root_eq : graph.root = shape.root?
  linked : Linked graph.headers none shape
  nodup : shape.slots.Nodup
  live : ∀ slot ∈ shape.slots, slot < graph.live

theorem Spans.storable {shape : Shape} (spans : graph.Spans shape) (usable : graph.Usable)
    {part : Shape} (inside : ∀ slot ∈ part.slots, slot ∈ shape.slots) :
    Slot.Storable part.root? := by
  intro slot top
  exact usable.lt_nil (spans.live slot (inside slot (Shape.mem_slots_of_root? top)))

/-- The links spell out a shape over live slots, taken apart at a place: what
stands there, and the context. -/
structure Focused (graph : Graph) (context : Context) (shape : Shape) : Prop where
  root_eq : graph.root = (Context.fill context shape).root?
  above : Context.Linked graph.headers context shape.root?
  below : Linked graph.headers (Context.parent? context) shape
  nodupAbove : (Context.slots context).Nodup
  nodupBelow : shape.slots.Nodup
  apart : (Context.slots context).Disjoint shape.slots
  liveAbove : ∀ slot ∈ Context.slots context, slot < graph.live
  liveBelow : ∀ slot ∈ shape.slots, slot < graph.live

theorem spans_fill {context : Context} {shape : Shape} :
    graph.Spans (Context.fill context shape) ↔ graph.Focused context shape := by
  constructor
  · intro spans
    obtain ⟨above, below⟩ := Context.linked_fill.mp spans.linked
    obtain ⟨nodupAbove, nodupBelow, apart⟩ := Context.nodup_slots_fill.mp spans.nodup
    exact ⟨spans.root_eq, above, below, nodupAbove, nodupBelow, apart,
      fun slot member => spans.live slot (Context.mem_slots_fill.mpr (Or.inl member)),
      fun slot member => spans.live slot (Context.mem_slots_fill.mpr (Or.inr member))⟩
  · intro focused
    refine ⟨focused.root_eq, Context.linked_fill.mpr ⟨focused.above, focused.below⟩,
      Context.nodup_slots_fill.mpr ⟨focused.nodupAbove, focused.nodupBelow, focused.apart⟩, ?_⟩
    intro slot member
    rcases Context.mem_slots_fill.mp member with inContext | inShape
    · exact focused.liveAbove slot inContext
    · exact focused.liveBelow slot inShape

theorem Focused.storable {context : Context} {shape : Shape} (focused : graph.Focused context shape)
    (usable : graph.Usable) (member : slot ∈ shape.slots) : Slot.Storable (some slot) :=
  Slot.storable_some (usable.lt_nil (focused.liveBelow slot member))

theorem Focused.storable_parent {context : Context} {shape : Shape}
    (focused : graph.Focused context shape) (usable : graph.Usable) :
    Slot.Storable (Context.parent? context) := by
  intro slot here
  exact usable.lt_nil (focused.liveAbove slot (Context.mem_slots_of_parent? here))

/-- Links, root and live slots are all that matters. -/
theorem Focused.congr {after : Graph} {context : Context} {shape : Shape}
    (focused : graph.Focused context shape)
    (links : ∀ slot link, (after.headers slot).link link = (graph.headers slot).link link)
    (root : after.root = graph.root) (live : after.live = graph.live) :
    after.Focused context shape :=
  ⟨root.trans focused.root_eq, focused.above.congr fun slot _ => links slot,
    focused.below.congr fun slot _ => links slot, focused.nodupAbove, focused.nodupBelow,
    focused.apart, fun slot member => live ▸ focused.liveAbove slot member,
    fun slot member => live ▸ focused.liveBelow slot member⟩

/-- The closest frame may as well be part of the shape. -/
theorem focused_cons {frame : Frame} {context : Context} {shape : Shape} :
    graph.Focused (frame :: context) shape ↔ graph.Focused context (frame.fill shape) :=
  (@spans_fill graph (frame :: context) shape).symm.trans (@spans_fill graph context _)

/-- What restructuring leaves alone. -/
def contents (graph : Graph) : (Slot → Bytes) × Nat × Options × Arena.Ledger :=
  (graph.payloads, graph.count, graph.options, graph.ledger)

theorem of_contents {after : Graph} (same : after.contents = graph.contents) :
    after.payloads = graph.payloads ∧ after.count = graph.count ∧ after.options = graph.options ∧
      after.ledger = graph.ledger := by
  simpa only [contents, Prod.mk.injEq] using same

theorem ledger_of_contents {after : Graph} (same : after.contents = graph.contents) :
    after.ledger = graph.ledger :=
  (of_contents same).2.2.2

theorem live_of_contents {after : Graph} (same : after.contents = graph.contents) :
    after.live = graph.live :=
  congrArg Arena.Ledger.live (ledger_of_contents same)

theorem usable_of_contents {after : Graph} (usable : graph.Usable)
    (same : after.contents = graph.contents) : after.Usable := by
  obtain ⟨_, _, options, ledger⟩ := of_contents same
  rw [Usable, ledger, options]
  exact usable

/-- A linked shape has no more slots than are live. -/
theorem Spans.length_le {shape : Shape} (spans : graph.Spans shape) :
    shape.slots.length ≤ graph.live := by
  have inside : shape.slots ⊆ List.range graph.live := fun slot member =>
    List.mem_range.mpr (spans.live slot member)
  have bound := (spans.nodup.subperm inside).length_le
  rwa [List.length_range] at bound

theorem Focused.length_le {context : Context} {shape : Shape}
    (focused : graph.Focused context shape) :
    (Context.slots context).length + shape.slots.length ≤ graph.live := by
  have few := (spans_fill.mpr focused).length_le
  rwa [(Context.slots_fill_perm context shape).length_eq, List.length_append] at few

/-- Context and shape together have fewer slots than links can name. -/
theorem Focused.length_lt {context : Context} {shape : Shape}
    (focused : graph.Focused context shape) (usable : graph.Usable) :
    (Context.slots context).length + shape.slots.length < 0xffffffff :=
  calc
    (Context.slots context).length + shape.slots.length ≤ graph.live := focused.length_le
    _ ≤ graph.ledger.capacity := usable.ledger.live_le
    _ = graph.options.maxNodes := usable.capacity_eq
    _ < 0xffffffff := usable.maxNodes_lt

/-- Another shape takes a place once it is linked, hangs from above, and what
refers to the place refers to its top. -/
theorem Focused.exchange {after : Graph} {context : Context} {old new : Shape}
    (focused : graph.Focused context old)
    (root_eq : after.root = if Context.gate? context = none then new.root? else graph.root)
    (links : ∀ slot ∈ Context.slots context, ∀ link, (after.headers slot).link link =
      if Context.gate? context = some (slot, link) then new.root?
      else (graph.headers slot).link link)
    (below : Linked after.headers (Context.parent? context) new) (nodup : new.slots.Nodup)
    (apart : (Context.slots context).Disjoint new.slots)
    (live : ∀ slot ∈ new.slots, slot < after.live) (kept : graph.live ≤ after.live) :
    after.Focused context new := by
  refine ⟨?_, focused.above.exchange focused.nodupAbove links, below, focused.nodupAbove, nodup,
    apart, fun slot member => Nat.lt_of_lt_of_le (focused.liveAbove slot member) kept, live⟩
  rw [root_eq]
  cases context with
  | nil => rfl
  | cons frame rest =>
      rw [if_neg (by simp [Context.gate?]), focused.root_eq]
      exact Context.root?_fill_congr (by simp)

/-! ## Links from below -/

/-- The graph after the parent link of a slot, if there is one, was pointed
elsewhere. -/
def adopt (graph : Graph) (child parent : Option Slot) : Graph :=
  { graph with
    headers := fun slot =>
      if child = some slot then (graph.headers slot).withLink .parent parent
      else graph.headers slot }

theorem link_adopt (field : Link) :
    ((graph.adopt child parent).headers other).link field =
      if child = some other ∧ field = .parent then parent
      else (graph.headers other).link field := by
  simp only [adopt]
  split <;> simp_all [Header.link_withLink]

@[simp]
theorem height_adopt :
    ((graph.adopt child parent).headers other).height = (graph.headers other).height := by
  simp only [adopt]
  split
  · exact Header.height_withLink _ _ _
  · rfl

theorem yields_adopt (usable : graph.Usable) (live : ∀ slot, child = some slot → slot < graph.live)
    (storable : Slot.Storable parent) :
    Action.Yields Tree.graph (Tree.adopt child parent) graph () (graph.adopt child parent) {} := by
  cases child with
  | none => exact Action.yields_pure () graph
  | some slot =>
      have same : graph.adopt (some slot) parent = graph.setLink slot .parent parent := by
        simp only [adopt, setLink]
        congr 1
        funext other
        by_cases here : other = slot
        · rw [here, Function.update_self, if_pos rfl]
        · rw [Function.update_of_ne here, if_neg fun same => here (Option.some.inj same).symm]
      rw [same]
      exact yields_setLink usable (live slot rfl) storable

/-! ## Links from above -/

/-- The graph after what refers to a place, a link or the root, was pointed
elsewhere. -/
def repoint (graph : Graph) (gate : Option (Slot × Link)) (target : Option Slot) : Graph :=
  { graph with
    headers := fun slot =>
      match gate with
      | none => graph.headers slot
      | some (above, link) =>
        if slot = above then (graph.headers slot).withLink link target else graph.headers slot
    root := if gate = none then target else graph.root }

theorem link_repoint {gate : Option (Slot × Link)} (field : Link) :
    ((graph.repoint gate target).headers other).link field =
      if gate = some (other, field) then target else (graph.headers other).link field := by
  cases gate with
  | none => rfl
  | some place =>
      simp only [repoint, Option.some.injEq, Prod.ext_iff]
      split <;> simp_all [Header.link_withLink, eq_comm]

@[simp]
theorem height_repoint {gate : Option (Slot × Link)} :
    ((graph.repoint gate target).headers other).height = (graph.headers other).height := by
  cases gate with
  | none => rfl
  | some place =>
      simp only [repoint]
      split
      · exact Header.height_withLink _ _ _
      · rfl

theorem repoint_cons (graph : Graph) (frame : Frame) (rest : Context) (target : Option Slot) :
    graph.repoint (Context.gate? (frame :: rest)) target =
      graph.setLink frame.slot frame.side.link target := by
  simp only [repoint, Context.gate?, setLink, List.head?_cons, Option.map_some]
  congr 1
  funext other
  rw [Function.update_apply]
  split
  next here => rw [here]
  · rfl

/-- Above a place, the parent's right link leads there whenever the left one does not: what
`replaceChild` takes for granted. -/
theorem right_of_left_ne {frame : Frame} {rest : Context} {old : Slot}
    (linked : Context.Linked graph.headers (frame :: rest) (some old))
    (notLeft : (graph.headers frame.slot).left ≠ some old) :
    (graph.headers frame.slot).right = some old := by
  obtain ⟨_, toHole, _⟩ := linked
  cases side : frame.side with
  | left =>
      rw [side] at toHole
      exact absurd toHole notLeft
  | right =>
      rw [side] at toHole
      exact toHole

/-- What refers to a slot from above is the link into its place. -/
theorem yields_replaceChild {context : Context} {old : Slot} (usable : graph.Usable)
    (linked : Context.Linked graph.headers context (some old))
    (absent : old ∉ Context.slots context)
    (live : ∀ slot ∈ Context.slots context, slot < graph.live)
    (storable : Slot.Storable target) :
    Action.Yields Tree.graph (replaceChild (Context.parent? context) old target) graph ()
      (graph.repoint (Context.gate? context) target) {} := by
  cases context with
  | nil => exact yields_setRoot target
  | cons frame rest =>
      obtain ⟨_, toHole, toSibling, _⟩ := linked
      have parentLive := live frame.slot List.mem_cons_self
      have onSide : (if (graph.headers frame.slot).child .left = some old then Side.left
          else .right) = frame.side := by
        cases side : frame.side with
        | left =>
            rw [side] at toHole
            exact if_pos toHole
        | right =>
            rw [side] at toSibling
            refine if_neg fun same => absent ?_
            have top := toSibling.symm.trans same
            exact List.mem_cons_of_mem _ (List.mem_append_left _ (Shape.mem_slots_of_root? top))
      rw [repoint_cons]
      refine (yields_child usable parentLive .left).silently ?_
      rw [onSide]
      exact yields_setLink usable parentLive storable

/-! ## Heights -/

/-- What a child adds to the height of its parent, by its cached height. -/
def contribution (graph : Graph) : Option Slot → Int
  | none => 0
  | some slot => (graph.headers slot).height + 1

/-- The height that a slot has by the cached heights of its children. -/
def heightFromChildren (graph : Graph) (slot : Slot) : Int :=
  max (graph.contribution (graph.headers slot).left) (graph.contribution (graph.headers slot).right)

/-- How much taller the right side of a slot is than its left, by cached heights. -/
def balance (graph : Graph) (slot : Slot) : Int :=
  graph.contribution (graph.headers slot).right - graph.contribution (graph.headers slot).left

/-- The graph after the cached height of a slot was refreshed from its children's. -/
def refresh (graph : Graph) (slot : Slot) : Graph :=
  graph.setHeight slot (graph.heightFromChildren slot)

/-- A height of a subtree that leaves room for a further level. -/
def SafeHeight (height : Int) : Prop :=
  0 ≤ height ∧ height < 0x7fffffff

/-- The children of a slot are live, and their heights leave room for a further level. -/
def SafeChildren (graph : Graph) (slot : Slot) : Prop :=
  ∀ side child, (graph.headers slot).child side = some child →
    child < graph.live ∧ SafeHeight (graph.headers child).height

/-- Where cached heights are right, a child contributes its levels. -/
theorem contribution_root? {shape : Shape} (measured : Measured graph.headers shape) :
    graph.contribution shape.root? = shape.height := by
  cases shape with
  | leaf => rfl
  | node left slot right =>
      simp only [Shape.root?, contribution, measured.1, Shape.height, Nat.cast_add, Nat.cast_one]

/-- A contribution depends on the height of the child alone. -/
theorem contribution_congr {after : Graph}
    (same : ∀ slot, child = some slot → (after.headers slot).height = (graph.headers slot).height) :
    after.contribution child = graph.contribution child := by
  cases child with
  | none => rfl
  | some slot => exact congrArg (· + 1) (same slot rfl)

theorem safeChildren_of (side : Side)
    (near : ∀ child, (graph.headers slot).child side = some child →
      child < graph.live ∧ SafeHeight (graph.headers child).height)
    (far : ∀ child, (graph.headers slot).child side.flip = some child →
      child < graph.live ∧ SafeHeight (graph.headers child).height) :
    graph.SafeChildren slot := by
  intro which child here
  rcases Side.eq_or_eq_flip side which with rfl | rfl
  · exact near child here
  · exact far child here

/-- Where the top of a shape has the right height, and there are not too many levels. -/
theorem safeHeight_of_measured {shape : Shape} (measured : Measured graph.headers shape)
    (top : shape.root? = some slot) (low : shape.height < 0x80000000) :
    SafeHeight (graph.headers slot).height := by
  cases shape with
  | leaf => contradiction
  | node left middle right =>
      cases top
      rw [measured.1]
      simp only [Shape.height] at low
      constructor <;> omega

/-- A height that a header has room for. -/
def FitsHeight (height : Int) : Prop :=
  -0x80000000 ≤ height ∧ height < 0x80000000

theorem fitted_eq_ok {height : Int} (fits : FitsHeight height) : fitted height = .ok height :=
  if_pos fits

variable {tree : Tree}

/-- What a safe child contributes is no negative number and fits. -/
theorem SafeChildren.contribution_bounds (children : graph.SafeChildren slot) (side : Side) :
    0 ≤ graph.contribution ((graph.headers slot).child side) ∧
      graph.contribution ((graph.headers slot).child side) < 0x80000000 := by
  cases here : (graph.headers slot).child side with
  | none => simp [contribution]
  | some child =>
      obtain ⟨_, low, high⟩ := children side child here
      simp only [contribution]
      constructor <;> omega

theorem SafeChildren.contribution_eq_ok (children : graph.SafeChildren slot)
    (usable : graph.Usable) (looks : tree.graph = graph) (side : Side) :
    tree.contribution ((graph.headers slot).child side) =
      .ok (graph.contribution ((graph.headers slot).child side)) := by
  have bounds := children.contribution_bounds side
  cases here : (graph.headers slot).child side with
  | none => rfl
  | some child =>
      rw [here] at bounds
      have fits : FitsHeight ((graph.headers child).height + 1) := ⟨by
        simp only [contribution] at bounds
        omega, bounds.2⟩
      simp only [Tree.contribution, cachedHeight_eq_ok usable (children side child here).1 looks,
        Bind.bind, Except.bind, fitted_eq_ok fits, contribution]

theorem SafeChildren.fits (children : graph.SafeChildren slot) :
    FitsHeight (graph.heightFromChildren slot) ∧ FitsHeight (graph.balance slot) := by
  have onLeft : 0 ≤ graph.contribution (graph.headers slot).left ∧
      graph.contribution (graph.headers slot).left < 0x80000000 :=
    children.contribution_bounds .left
  have onRight : 0 ≤ graph.contribution (graph.headers slot).right ∧
      graph.contribution (graph.headers slot).right < 0x80000000 :=
    children.contribution_bounds .right
  unfold heightFromChildren balance
  refine ⟨⟨?_, ?_⟩, ?_, ?_⟩ <;> omega

theorem heightFromChildren_eq_ok (usable : graph.Usable) (live : slot < graph.live)
    (children : graph.SafeChildren slot) (looks : tree.graph = graph) :
    tree.heightFromChildren slot = .ok (graph.heightFromChildren slot) := by
  have onLeft : tree.contribution (graph.headers slot).left = _ :=
    children.contribution_eq_ok usable looks .left
  have onRight : tree.contribution (graph.headers slot).right = _ :=
    children.contribution_eq_ok usable looks .right
  rw [Tree.heightFromChildren, header_eq_ok usable live looks]
  simp only [Bind.bind, Except.bind, onLeft, onRight]
  rfl

theorem balance_eq_ok (usable : graph.Usable) (live : slot < graph.live)
    (children : graph.SafeChildren slot) (looks : tree.graph = graph) :
    tree.balance slot = .ok (graph.balance slot) := by
  have onLeft : tree.contribution (graph.headers slot).left = _ :=
    children.contribution_eq_ok usable looks .left
  have onRight : tree.contribution (graph.headers slot).right = _ :=
    children.contribution_eq_ok usable looks .right
  rw [Tree.balance, header_eq_ok usable live looks]
  simp only [Bind.bind, Except.bind, onLeft, onRight]
  exact fitted_eq_ok children.fits.2

theorem yields_balance (usable : graph.Usable) (live : slot < graph.live)
    (children : graph.SafeChildren slot) :
    Action.Yields Tree.graph (Action.read (·.balance slot)) graph (graph.balance slot) graph {} :=
  Action.yields_read _ fun _ looks => balance_eq_ok usable live children looks

theorem yields_updateHeight (usable : graph.Usable) (live : slot < graph.live)
    (children : graph.SafeChildren slot) :
    Action.Yields Tree.graph (updateHeight slot) graph () (graph.refresh slot) {} := by
  refine (Action.yields_read (graph.heightFromChildren slot) ?_).silently ?_
  · exact fun _ looks => heightFromChildren_eq_ok usable live children looks
  · exact yields_setCachedHeight usable live children.fits.1.1 children.fits.1.2

@[simp]
theorem link_refresh (field : Link) :
    ((graph.refresh slot).headers other).link field = (graph.headers other).link field :=
  link_setHeight _ field

theorem height_refresh :
    ((graph.refresh slot).headers other).height =
      if other = slot then graph.heightFromChildren slot else (graph.headers other).height :=
  height_setHeight _

/-- The height from the two children, seen from either side. -/
theorem heightFromChildren_eq (side : Side) :
    graph.heightFromChildren slot =
      max (graph.contribution ((graph.headers slot).child side))
        (graph.contribution ((graph.headers slot).child side.flip)) := by
  cases side
  · rfl
  · exact max_comm _ _

/-- The child on a side that is there. -/
theorem yields_requireChild {side : Side} (usable : graph.Usable) (live : slot < graph.live)
    (there : (graph.headers slot).child side = some other) :
    Action.Yields Tree.graph (requireChild slot side) graph other graph {} := by
  refine (yields_child usable live side).silently ?_
  rw [there]
  exact Action.yields_pure other graph

end SlabTree.Tree.Graph
