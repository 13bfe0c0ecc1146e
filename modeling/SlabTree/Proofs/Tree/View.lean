import Mathlib.Logic.Function.Basic
import SlabTree.Proofs.Arena.Operations
import SlabTree.Proofs.Header
import SlabTree.Tree.Search

/-!
# Trees as headers and records

Users of a tree's slots see a header and a record in each.  Every read of a live
slot succeeds and returns part of what is seen; every write changes one field of
one slot.  Reads and writes depend on the numbers of the arena fitting together
and on nothing else about the tree, so they are the same on a damaged one.
-/

namespace SlabTree.Tree

variable {α : Type}

/-- Slots are laid out for records of the tree's size, and their numbers can be
stored as links. -/
structure Usable (numbers : Arena.Ledger) (options : Options) : Prop where
  ledger : numbers.Sound
  elementSize_eq : numbers.elementSize = Header.size + options.nodeSize
  capacity_eq : numbers.capacity = options.maxNodes
  maxNodes_lt : options.maxNodes < Slot.nil

namespace Usable

variable {numbers : Arena.Ledger} {options : Options} {slot : Slot}

theorem header_fits (usable : Usable numbers options) : Header.size ≤ numbers.elementSize := by
  rw [usable.elementSize_eq]
  exact Nat.le_add_right _ _

theorem lt_nil (usable : Usable numbers options) (live : slot < numbers.live) : slot < Slot.nil :=
  calc
    slot < numbers.live := live
    _ ≤ numbers.capacity := usable.ledger.live_le
    _ = options.maxNodes := usable.capacity_eq
    _ < Slot.nil := usable.maxNodes_lt

/-- A walk that may take as many steps as the operations allow can pass every live slot. -/
theorem live_le_walkLimit (usable : Usable numbers options) : numbers.live ≤ walkLimit :=
  calc
    numbers.live ≤ numbers.capacity := usable.ledger.live_le
    _ = options.maxNodes := usable.capacity_eq
    _ ≤ Slot.nil := Nat.le_of_lt usable.maxNodes_lt
    _ ≤ walkLimit := by decide

end Usable

/-- What users see of a tree. -/
structure View where
  arena : Arena.View
  root : Option Slot
  count : Nat
  options : Options
  counters : Counters

/-- What users see of a tree. -/
def view (tree : Tree) : View where
  arena := tree.arena.view
  root := tree.root
  count := tree.count
  options := tree.options
  counters := tree.counters

namespace View

/-- The number of live slots: those below it are live. -/
def live (seen : View) : Nat :=
  seen.arena.ledger.live

/-- The header in a slot. -/
def header (seen : View) (slot : Slot) : Header :=
  Header.ofBytes (seen.arena.slice slot 0 Header.size)

/-- The record in a slot. -/
def payload (seen : View) (slot : Slot) : Bytes :=
  seen.arena.slice slot Header.size seen.arena.ledger.elementSize

/-- The slots are laid out for the tree's records, and their numbers can be
stored as links. -/
abbrev Usable (seen : View) : Prop :=
  Tree.Usable seen.arena.ledger seen.options

variable {seen : View} {slot : Slot}

/-! ## Fields of a header in the bytes of a slot -/

/-- A part of a slice is a slice. -/
theorem field_slice (view : Arena.View) {offset : Nat}
    (inside : offset + Header.fieldSize ≤ Header.size) :
    Header.field (view.slice slot 0 Header.size) offset =
      view.slice slot offset (offset + Header.fieldSize) := by
  apply List.ext_getElem
  · simp only [Header.field, List.length_take, List.length_drop, Arena.View.length_slice,
      Nat.sub_zero, Nat.add_sub_cancel_left]
    omega
  · intro i low high
    simp [Header.field, Arena.View.slice]

theorem link_offset_fits (link : Link) : link.offset + Header.fieldSize ≤ Header.size := by
  cases link <;> decide

theorem link_header (link : Link) :
    (seen.header slot).link link =
      Header.decodeLink
        (seen.arena.slice slot link.offset (link.offset + Header.fieldSize)) := by
  rw [header, Header.link_ofBytes, field_slice seen.arena (link_offset_fits link)]

theorem height_header :
    (seen.header slot).height =
      Header.decodeHeight
        (seen.arena.slice slot Header.heightOffset (Header.heightOffset + Header.fieldSize)) := by
  rw [header, Header.height_ofBytes, field_slice seen.arena (by decide)]

/-! ## Writes -/

/-- The view after a link of a slot was replaced. -/
def setLink (seen : View) (slot : Slot) (link : Link) (target : Option Slot) : View :=
  { seen with arena := seen.arena.write slot link.offset (Header.encodeLink target) }

/-- The view after the cached height of a slot was replaced. -/
def setHeight (seen : View) (slot : Slot) (height : Int) : View :=
  { seen with arena := seen.arena.write slot Header.heightOffset (Header.encodeHeight height) }

/-- The view after a header was written into a slot. -/
def setHeader (seen : View) (slot : Slot) (header : Header) : View :=
  { seen with arena := seen.arena.write slot 0 header.encode }

/-- The view after a record was written into a slot. -/
def setPayload (seen : View) (slot : Slot) (data : Bytes) : View :=
  { seen with arena := seen.arena.write slot Header.size data }

variable {link : Link} {target : Option Slot} {height : Int}

theorem header_setLink (storable : Slot.Storable target) :
    (seen.setLink slot link target).header =
      Function.update seen.header slot ((seen.header slot).withLink link target) := by
  funext other
  apply Header.eq_of_links
  · intro field
    rw [link_header]
    by_cases here : other = slot ∧ field = link
    · rcases here with ⟨rfl, rfl⟩
      have written := seen.arena.slice_write_self other field.offset (Header.encodeLink target)
      rw [Header.length_encodeLink] at written
      rw [Function.update_self, Header.link_withLink, if_pos rfl, setLink, written]
      exact Header.decodeLink_encodeLink storable
    · have apart : other ≠ slot ∨ field.offset + Header.fieldSize ≤ link.offset ∨
          link.offset + (Header.encodeLink target).length ≤ field.offset := by
        by_cases same : other = slot
        · right
          have different : field ≠ link := fun equal => here ⟨same, equal⟩
          cases field <;> cases link <;> simp_all [Link.offset, Header.fieldSize]
        · exact Or.inl same
      rw [setLink, Arena.View.slice_write_of_apart apart, ← link_header]
      by_cases same : other = slot
      · subst same
        rw [Function.update_self, Header.link_withLink, if_neg (fun equal => here ⟨rfl, equal⟩)]
      · rw [Function.update_of_ne same]
  · rw [height_header, setLink, Arena.View.slice_write_of_apart, ← height_header]
    · by_cases same : other = slot
      · subst same
        rw [Function.update_self, Header.height_withLink]
      · rw [Function.update_of_ne same]
    · right
      right
      rw [Header.length_encodeLink]
      cases link <;> decide

theorem payload_write_header {start : Nat} {data : Bytes}
    (inside : start + data.length ≤ Header.size) (other : Slot) :
    (seen.arena.write slot start data).slice other Header.size seen.arena.ledger.elementSize =
      seen.payload other :=
  Arena.View.slice_write_of_apart (Or.inr (Or.inr inside))

@[simp]
theorem payload_setLink : (seen.setLink slot link target).payload = seen.payload := by
  funext other
  exact payload_write_header (link_offset_fits link) other

theorem header_setHeight (lower : -0x80000000 ≤ height) (upper : height < 0x80000000) :
    (seen.setHeight slot height).header =
      Function.update seen.header slot ((seen.header slot).withHeight height) := by
  funext other
  apply Header.eq_of_links
  · intro field
    have before : field.offset + Header.fieldSize ≤ Header.heightOffset := by
      cases field <;> decide
    rw [link_header, setHeight, Arena.View.slice_write_of_apart (Or.inr (Or.inl before)),
      ← link_header]
    by_cases same : other = slot
    · subst same
      rw [Function.update_self, Header.link_withHeight]
    · rw [Function.update_of_ne same]
  · rw [height_header]
    by_cases same : other = slot
    · subst same
      have written := seen.arena.slice_write_self other Header.heightOffset
        (Header.encodeHeight height)
      rw [Header.length_encodeHeight] at written
      rw [Function.update_self, Header.height_withHeight, setHeight, written]
      exact Header.decodeHeight_encodeHeight lower upper
    · rw [Function.update_of_ne same, setHeight,
        Arena.View.slice_write_of_apart (Or.inl same), ← height_header]

@[simp]
theorem payload_setHeight : (seen.setHeight slot height).payload = seen.payload := by
  funext other
  exact payload_write_header (by rw [Header.length_encodeHeight]; decide) other

theorem header_setHeader {header : Header} (links : ∀ link, Slot.Storable (header.link link))
    (lower : -0x80000000 ≤ header.height) (upper : header.height < 0x80000000) :
    (seen.setHeader slot header).header = Function.update seen.header slot header := by
  funext other
  by_cases same : other = slot
  · subst same
    have written := seen.arena.slice_write_self other 0 header.encode
    rw [Header.length_encode, Nat.zero_add] at written
    rw [Function.update_self, View.header, setHeader, written]
    exact Header.ofBytes_encode links lower upper
  · rw [Function.update_of_ne same, View.header, setHeader,
      Arena.View.slice_write_of_apart (Or.inl same), ← View.header]

@[simp]
theorem payload_setHeader {header : Header} :
    (seen.setHeader slot header).payload = seen.payload := by
  funext other
  exact payload_write_header (by rw [Header.length_encode]; decide) other

@[simp]
theorem header_setPayload {data : Bytes} : (seen.setPayload slot data).header = seen.header := by
  funext other
  rw [View.header, setPayload,
    Arena.View.slice_write_of_apart (Or.inr (Or.inl (Nat.le_refl _))), ← View.header]

theorem payload_setPayload (usable : seen.Usable) {data : Bytes}
    (length : data.length = seen.options.nodeSize) :
    (seen.setPayload slot data).payload = Function.update seen.payload slot data := by
  funext other
  by_cases same : other = slot
  · subst same
    have written := seen.arena.slice_write_self other Header.size data
    rw [length, ← usable.elementSize_eq] at written
    rw [Function.update_self]
    exact written
  · rw [Function.update_of_ne same]
    exact Arena.View.slice_write_of_apart (Or.inl same)

end View

/-! ## Reads -/

section Reads

variable {seen : View} {slot : Slot} {tree : Tree}

theorem read_eq_ok (usable : seen.Usable) (live : slot < seen.live) (looks : tree.view = seen)
    {start stop : Nat} (ordered : start ≤ stop)
    (inside : stop ≤ seen.arena.ledger.elementSize) :
    tree.arena.read slot start stop = .ok (seen.arena.slice slot start stop) := by
  subst looks
  exact Arena.read_eq_ok usable.ledger live ordered inside

theorem header_eq_ok (usable : seen.Usable) (live : slot < seen.live)
    (looks : tree.view = seen) : tree.header slot = .ok (seen.header slot) := by
  rw [header, read_eq_ok usable live looks (Nat.zero_le _) usable.header_fits]
  rfl

theorem link_eq_ok (usable : seen.Usable) (live : slot < seen.live) (looks : tree.view = seen)
    (link : Link) : tree.link slot link = .ok ((seen.header slot).link link) := by
  have inside := Nat.le_trans (View.link_offset_fits link) usable.header_fits
  rw [Tree.link, read_eq_ok usable live looks (Nat.le_add_right _ _) inside, View.link_header]
  rfl

theorem child_eq_ok (usable : seen.Usable) (live : slot < seen.live) (looks : tree.view = seen)
    (side : Side) : tree.child slot side = .ok ((seen.header slot).child side) :=
  link_eq_ok usable live looks side.link

theorem cachedHeight_eq_ok (usable : seen.Usable) (live : slot < seen.live)
    (looks : tree.view = seen) : tree.cachedHeight slot = .ok (seen.header slot).height := by
  have inside : Header.heightOffset + Header.fieldSize ≤ seen.arena.ledger.elementSize :=
    usable.header_fits
  rw [cachedHeight, read_eq_ok usable live looks (Nat.le_add_right _ _) inside,
    View.height_header]
  rfl

theorem payload_eq_ok (usable : seen.Usable) (live : slot < seen.live)
    (looks : tree.view = seen) : tree.payload slot = .ok (seen.payload slot) := by
  have size : tree.arena.elementSize = seen.arena.ledger.elementSize := by
    subst looks
    rfl
  rw [payload, size, read_eq_ok usable live looks usable.header_fits (Nat.le_refl _)]
  rfl

end Reads

/-! ## Writes as actions -/

section Writes

variable {seen : View} {slot : Slot} {after : Arena.View} {answer : α} {log : Journal}

/-- What an action of the arena does to the arena, it does to the tree. -/
theorem yields_onArena {action : Action Arena α}
    (inArena : Action.Yields Arena.view action seen.arena answer after log) :
    Action.Yields view (onArena action) seen answer { seen with arena := after } log := by
  rintro ⟨arena, root, count, options, counters⟩ journal rfl
  obtain ⟨final, ran, looks⟩ := inArena arena journal rfl
  refine ⟨⟨final, root, count, options, counters⟩, ?_, ?_⟩
  · simp only [onArena, ran]
  · simp only [view, looks]

theorem yields_setLink (usable : seen.Usable) (live : slot < seen.live) (link : Link)
    (target : Option Slot) :
    Action.Yields view (setLink slot link target) seen () (seen.setLink slot link target) {} :=
  yields_onArena (Arena.yields_write usable.ledger live
    (Nat.le_trans (View.link_offset_fits link) usable.header_fits))

theorem yields_setCachedHeight (usable : seen.Usable) (live : slot < seen.live) (height : Int) :
    Action.Yields view (setCachedHeight slot height) seen () (seen.setHeight slot height) {} :=
  yields_onArena (Arena.yields_write usable.ledger live usable.header_fits)

theorem yields_setHeader (usable : seen.Usable) (live : slot < seen.live) (header : Header) :
    Action.Yields view (setHeader slot header) seen () (seen.setHeader slot header) {} :=
  yields_onArena (Arena.yields_write usable.ledger live usable.header_fits)

theorem yields_setPayload (usable : seen.Usable) (live : slot < seen.live) {data : Bytes}
    (length : data.length = seen.options.nodeSize) :
    Action.Yields view (setPayload slot data) seen () (seen.setPayload slot data) {} :=
  yields_onArena (Arena.yields_write usable.ledger live
    (Nat.le_of_eq (by rw [length, usable.elementSize_eq])))

theorem yields_setRoot (root : Option Slot) :
    Action.Yields view (setRoot root) seen () { seen with root := root } {} :=
  Action.yields_update (by rintro tree rfl; rfl)

theorem yields_updateCount (f : Nat → Nat) :
    Action.Yields view (updateCount f) seen () { seen with count := f seen.count } {} :=
  Action.yields_update (by rintro tree rfl; rfl)

theorem yields_updateCounters (f : Counters → Counters) :
    Action.Yields view (updateCounters f) seen () { seen with counters := f seen.counters } {} :=
  Action.yields_update (by rintro tree rfl; rfl)

end Writes

end SlabTree.Tree
