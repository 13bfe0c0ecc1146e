import SlabTree.Proofs.Tree.View

/-!
# Trees as linked nodes

The headers of a tree's slots link them to a graph.  Seen as a graph, a tree
changes by exactly one field of one node with every write, and what is read is
what was written; the bytes that the fields are made of play no part any more.
-/

namespace SlabTree.Tree

variable {α : Type}

/-- A tree as linked nodes. -/
structure Graph where
  headers : Slot → Header
  payloads : Slot → Bytes
  root : Option Slot
  count : Nat
  options : Options
  counters : Counters
  ledger : Arena.Ledger

/-- The graph that users of a view see. -/
def View.graph (seen : View) : Graph where
  headers := seen.header
  payloads := seen.payload
  root := seen.root
  count := seen.count
  options := seen.options
  counters := seen.counters
  ledger := seen.arena.ledger

/-- A tree as linked nodes. -/
def graph (tree : Tree) : Graph :=
  tree.view.graph

namespace Graph

/-- The number of live slots: those below it are live. -/
def live (graph : Graph) : Nat :=
  graph.ledger.live

/-- The slots are laid out for the tree's records, and their numbers can be
stored as links. -/
abbrev Usable (graph : Graph) : Prop :=
  Tree.Usable graph.ledger graph.options

/-- The graph after a link of a slot was pointed elsewhere. -/
def setLink (graph : Graph) (slot : Slot) (link : Link) (target : Option Slot) : Graph :=
  { graph with
    headers := Function.update graph.headers slot ((graph.headers slot).withLink link target) }

/-- The graph after the cached height of a slot was set. -/
def setHeight (graph : Graph) (slot : Slot) (height : Int) : Graph :=
  { graph with
    headers := Function.update graph.headers slot ((graph.headers slot).withHeight height) }

/-- The graph after a header was written into a slot. -/
def setHeader (graph : Graph) (slot : Slot) (header : Header) : Graph :=
  { graph with headers := Function.update graph.headers slot header }

/-- The graph after a record was written into a slot. -/
def setPayload (graph : Graph) (slot : Slot) (data : Bytes) : Graph :=
  { graph with payloads := Function.update graph.payloads slot data }

/-- The graph after one slot was copied over another. -/
def copySlot (graph : Graph) (source target : Slot) : Graph :=
  (graph.setHeader target (graph.headers source)).setPayload target (graph.payloads source)

/-- The graph after the host was asked for the pages of one slot more. -/
def commit (graph : Graph) : Graph :=
  { graph with ledger := graph.ledger.commit }

/-- The graph after a slot was handed out. -/
def allocate (graph : Graph) : Graph :=
  { graph with ledger := graph.ledger.allocate }

/-- The graph after the last slot was freed, which leaves zeros there. -/
def free (graph : Graph) : Graph :=
  { graph with
    headers := Function.update graph.headers (graph.live - 1)
      (Header.ofBytes (List.replicate Header.size 0))
    payloads := Function.update graph.payloads (graph.live - 1)
      (List.replicate (graph.ledger.elementSize - Header.size) 0)
    ledger := graph.ledger.free }

variable {graph after : Graph} {slot other : Slot} {link : Link} {target : Option Slot}

theorem link_setLink (field : Link) :
    ((graph.setLink slot link target).headers other).link field =
      if other = slot ∧ field = link then target else (graph.headers other).link field := by
  by_cases same : other = slot
  · subst same
    simp only [setLink, Function.update_self, Header.link_withLink, true_and]
  · simp only [setLink, Function.update_of_ne same, same, false_and, if_false]

@[simp]
theorem height_setLink :
    ((graph.setLink slot link target).headers other).height = (graph.headers other).height := by
  by_cases same : other = slot
  · subst same
    simp only [setLink, Function.update_self, Header.height_withLink]
  · simp only [setLink, Function.update_of_ne same]

@[simp]
theorem link_setHeight (height : Int) (field : Link) :
    ((graph.setHeight slot height).headers other).link field =
      (graph.headers other).link field := by
  by_cases same : other = slot
  · subst same
    simp only [setHeight, Function.update_self, Header.link_withHeight]
  · simp only [setHeight, Function.update_of_ne same]

theorem height_setHeight (height : Int) :
    ((graph.setHeight slot height).headers other).height =
      if other = slot then height else (graph.headers other).height := by
  by_cases same : other = slot
  · subst same
    simp only [setHeight, Function.update_self, Header.height_withHeight, if_true]
  · simp only [setHeight, Function.update_of_ne same, same, if_false]

/-! ## Reads -/

variable {tree : Tree}

theorem header_eq_ok (usable : graph.Usable) (live : slot < graph.live)
    (looks : tree.graph = graph) : tree.header slot = .ok (graph.headers slot) := by
  subst looks
  exact Tree.header_eq_ok usable live rfl

theorem link_eq_ok (usable : graph.Usable) (live : slot < graph.live)
    (looks : tree.graph = graph) (link : Link) :
    tree.link slot link = .ok ((graph.headers slot).link link) := by
  subst looks
  exact Tree.link_eq_ok usable live rfl link

theorem child_eq_ok (usable : graph.Usable) (live : slot < graph.live)
    (looks : tree.graph = graph) (side : Side) :
    tree.child slot side = .ok ((graph.headers slot).child side) :=
  link_eq_ok usable live looks side.link

theorem cachedHeight_eq_ok (usable : graph.Usable) (live : slot < graph.live)
    (looks : tree.graph = graph) : tree.cachedHeight slot = .ok (graph.headers slot).height := by
  subst looks
  exact Tree.cachedHeight_eq_ok usable live rfl

theorem payload_eq_ok (usable : graph.Usable) (live : slot < graph.live)
    (looks : tree.graph = graph) : tree.payload slot = .ok (graph.payloads slot) := by
  subst looks
  exact Tree.payload_eq_ok usable live rfl

theorem yields_header (usable : graph.Usable) (live : slot < graph.live) :
    Action.Yields Tree.graph (Action.read (·.header slot)) graph (graph.headers slot) graph {} :=
  Action.yields_read _ fun _ looks => header_eq_ok usable live looks

theorem yields_link (usable : graph.Usable) (live : slot < graph.live) (link : Link) :
    Action.Yields Tree.graph (Action.read (·.link slot link)) graph
      ((graph.headers slot).link link) graph {} :=
  Action.yields_read _ fun _ looks => link_eq_ok usable live looks link

theorem yields_child (usable : graph.Usable) (live : slot < graph.live) (side : Side) :
    Action.Yields Tree.graph (Action.read (·.child slot side)) graph
      ((graph.headers slot).child side) graph {} :=
  yields_link usable live side.link

/-! ## Writes -/

/-- What a view yields, the graph yields. -/
theorem yields_of_view {action : Action Tree α} {answer : α} {log : Journal}
    (each : ∀ seen : View, seen.graph = graph →
      ∃ final, Action.Yields Tree.view action seen answer final log ∧ final.graph = after) :
    Action.Yields Tree.graph action graph answer after log := by
  intro tree journal looks
  obtain ⟨seen, yields, same⟩ := each tree.view looks
  obtain ⟨final, ran, rfl⟩ := yields tree journal rfl
  exact ⟨final, ran, same⟩

theorem yields_setLink (usable : graph.Usable) (live : slot < graph.live)
    (storable : Slot.Storable target) :
    Action.Yields Tree.graph (Tree.setLink slot link target) graph ()
      (graph.setLink slot link target) {} := by
  apply yields_of_view
  rintro seen rfl
  refine ⟨_, Tree.yields_setLink usable live link target, ?_⟩
  simp only [View.graph, View.header_setLink storable, View.payload_setLink]
  rfl

theorem yields_setCachedHeight {height : Int} (usable : graph.Usable) (live : slot < graph.live)
    (lower : -0x80000000 ≤ height) (upper : height < 0x80000000) :
    Action.Yields Tree.graph (setCachedHeight slot height) graph ()
      (graph.setHeight slot height) {} := by
  apply yields_of_view
  rintro seen rfl
  refine ⟨_, Tree.yields_setCachedHeight usable live height, ?_⟩
  simp only [View.graph, View.header_setHeight lower upper, View.payload_setHeight]
  rfl

theorem yields_setHeader {header : Header} (usable : graph.Usable) (live : slot < graph.live)
    (links : ∀ link, Slot.Storable (header.link link)) (lower : -0x80000000 ≤ header.height)
    (upper : header.height < 0x80000000) :
    Action.Yields Tree.graph (Tree.setHeader slot header) graph ()
      (graph.setHeader slot header) {} := by
  apply yields_of_view
  rintro seen rfl
  refine ⟨_, Tree.yields_setHeader usable live header, ?_⟩
  simp only [View.graph, View.header_setHeader links lower upper, View.payload_setHeader]
  rfl

theorem yields_setPayload {data : Bytes} (usable : graph.Usable) (live : slot < graph.live)
    (length : data.length = graph.options.nodeSize) :
    Action.Yields Tree.graph (Tree.setPayload slot data) graph ()
      (graph.setPayload slot data) {} := by
  apply yields_of_view
  rintro seen rfl
  refine ⟨_, Tree.yields_setPayload usable live length, ?_⟩
  simp only [View.graph, View.payload_setPayload usable length, View.header_setPayload]
  rfl

theorem yields_setRoot (root : Option Slot) :
    Action.Yields Tree.graph (setRoot root) graph () { graph with root := root } {} := by
  apply yields_of_view
  rintro seen rfl
  exact ⟨_, Tree.yields_setRoot root, rfl⟩

theorem yields_updateCount (f : Nat → Nat) :
    Action.Yields Tree.graph (updateCount f) graph ()
      { graph with count := f graph.count } {} := by
  apply yields_of_view
  rintro seen rfl
  exact ⟨_, Tree.yields_updateCount f, rfl⟩

theorem yields_updateCounters (f : Counters → Counters) :
    Action.Yields Tree.graph (updateCounters f) graph ()
      { graph with counters := f graph.counters } {} := by
  apply yields_of_view
  rintro seen rfl
  exact ⟨_, Tree.yields_updateCounters f, rfl⟩

/-! ## Slots as a whole -/

theorem yields_copySlot {source : Slot} (usable : graph.Usable) (sourceLive : source < graph.live)
    (live : slot < graph.live) :
    Action.Yields Tree.graph (onArena (Arena.copySlot source slot)) graph ()
      (graph.copySlot source slot) {} := by
  apply yields_of_view
  rintro seen rfl
  refine ⟨_, yields_onArena (Arena.yields_copySlot usable.ledger sourceLive live), ?_⟩
  have part : ∀ {start stop : Nat}, stop ≤ seen.arena.ledger.elementSize → ∀ other,
      (seen.arena.copy source slot 0 seen.arena.ledger.elementSize).slice other start stop =
        seen.arena.slice (if other = slot then source else other) start stop := by
    intro start stop inside other
    apply Arena.View.slice_congr
    intro i low high
    by_cases same : other = slot
    · simp only [Arena.View.copy, same, if_true, true_and, Nat.zero_le]
      rw [if_pos (Nat.lt_of_lt_of_le high inside)]
    · simp only [Arena.View.copy, same, if_false, false_and]
  have headers : ∀ other, View.header { seen with
      arena := seen.arena.copy source slot 0 seen.arena.ledger.elementSize } other =
        Function.update seen.header slot (seen.header source) other := by
    intro other
    rw [View.header, part usable.header_fits, Function.update_apply]
    split <;> rfl
  have payloads : ∀ other, View.payload { seen with
      arena := seen.arena.copy source slot 0 seen.arena.ledger.elementSize } other =
        Function.update seen.payload slot (seen.payload source) other := by
    intro other
    refine (part (Nat.le_refl _) other).trans ?_
    rw [Function.update_apply]
    split <;> rfl
  simp only [View.graph, funext headers, funext payloads]
  rfl

/-- Copying what follows the header copies the record. -/
theorem yields_copyPayload {source : Slot} (usable : graph.Usable)
    (sourceLive : source < graph.live) (live : slot < graph.live) :
    Action.Yields Tree.graph
      (onArena (Arena.copyRange source slot Header.size
        (Header.size + graph.options.nodeSize))) graph ()
      (graph.setPayload slot (graph.payloads source)) {} := by
  apply yields_of_view
  rintro seen rfl
  have stop : Header.size + seen.options.nodeSize = seen.arena.ledger.elementSize :=
    usable.elementSize_eq.symm
  refine ⟨_, yields_onArena (Arena.yields_copyRange usable.ledger sourceLive live
    (Nat.le_add_right _ _) (Nat.le_of_eq stop)), ?_⟩
  have headers : ∀ other, View.header { seen with
      arena := seen.arena.copy source slot Header.size
        (Header.size + seen.options.nodeSize) } other = seen.header other := by
    intro other
    refine congrArg Header.ofBytes (Arena.View.slice_congr ?_)
    intro i _ high
    exact if_neg fun inside => absurd inside.2.1 (Nat.not_le_of_lt high)
  have payloads : ∀ other, View.payload { seen with
      arena := seen.arena.copy source slot Header.size
        (Header.size + seen.options.nodeSize) } other =
        Function.update seen.payload slot (seen.payload source) other := by
    intro other
    rw [Function.update_apply]
    split
    next same =>
      apply Arena.View.slice_congr
      intro i low high
      exact if_pos ⟨same, low, stop ▸ high⟩
    next different =>
      apply Arena.View.slice_congr
      intro i _ _
      exact if_neg fun inside => different inside.1
  have allPayloads : View.payload { seen with
      arena := seen.arena.copy source slot Header.size (Header.size + seen.options.nodeSize) } =
        Function.update seen.payload slot (seen.payload source) := funext payloads
  have allHeaders : View.header { seen with
      arena := seen.arena.copy source slot Header.size (Header.size + seen.options.nodeSize) } =
        seen.header := funext headers
  exact congrArg₂ (fun headers payloads => ({ seen.graph with
    headers := headers, payloads := payloads } : Graph)) allHeaders allPayloads

theorem yields_allocate (usable : graph.Usable) (room : graph.live < graph.ledger.capacity)
    (granted : graph.ledger.commitRefusal? = none) :
    Action.Yields Tree.graph (onArena Arena.allocate) graph (.ok graph.live) graph.allocate
      (Arena.commitLog graph.ledger.committedPages graph.ledger.newPages) := by
  apply yields_of_view
  rintro seen rfl
  exact ⟨_, yields_onArena (Arena.yields_allocate usable.ledger room granted), rfl⟩

theorem yields_allocate_refused (usable : graph.Usable)
    (room : graph.live < graph.ledger.capacity) {error : HostError}
    (refused : graph.ledger.commitRefusal? = some error) :
    Action.Yields Tree.graph (onArena Arena.allocate) graph (.error (.host error)) graph.commit
      (Arena.commitLog graph.ledger.committedPages graph.ledger.newPages) := by
  apply yields_of_view
  rintro seen rfl
  exact ⟨_, yields_onArena (Arena.yields_allocate_refused usable.ledger room refused), rfl⟩

theorem yields_allocate_full (full : graph.live = graph.ledger.capacity) :
    Action.Yields Tree.graph (onArena Arena.allocate) graph (.error .arenaFull) graph {} := by
  apply yields_of_view
  rintro seen rfl
  exact ⟨_, yields_onArena (Arena.yields_allocate_full full), rfl⟩

theorem yields_free (usable : graph.Usable) (used : graph.live ≠ 0) :
    Action.Yields Tree.graph (onArena Arena.free) graph (.ok ()) graph.free
      (Arena.freeLog graph.ledger) := by
  apply yields_of_view
  rintro seen rfl
  refine ⟨_, yields_onArena (Arena.yields_free usable.ledger used), ?_⟩
  have zeroed : ∀ start stop, seen.arena.free.slice (seen.arena.ledger.live - 1) start stop =
      List.replicate (stop - start) 0 := by
    intro start stop
    apply List.eq_replicate_iff.mpr
    refine ⟨Arena.View.length_slice _ _ _ _, ?_⟩
    intro byte member
    obtain ⟨i, _, rfl⟩ := List.mem_map.mp member
    exact if_pos rfl
  have kept : ∀ other, other ≠ seen.arena.ledger.live - 1 → ∀ start stop,
      seen.arena.free.slice other start stop = seen.arena.slice other start stop := by
    intro other different start stop
    apply Arena.View.slice_congr
    intro i _ _
    exact if_neg different
  have headers : View.header { seen with arena := seen.arena.free } =
      Function.update seen.header (seen.arena.ledger.live - 1)
        (Header.ofBytes (List.replicate Header.size 0)) := by
    funext other
    rw [Function.update_apply]
    split
    next same =>
      subst same
      exact congrArg Header.ofBytes (zeroed 0 Header.size)
    next different => exact congrArg Header.ofBytes (kept other different 0 Header.size)
  have payloads : View.payload { seen with arena := seen.arena.free } =
      Function.update seen.payload (seen.arena.ledger.live - 1)
        (List.replicate (seen.arena.ledger.elementSize - Header.size) 0) := by
    funext other
    rw [Function.update_apply]
    split
    next same =>
      subst same
      exact zeroed Header.size seen.arena.ledger.elementSize
    next different => exact kept other different Header.size seen.arena.ledger.elementSize
  exact congrArg₂ (fun headers payloads => ({ seen.graph with
    headers := headers, payloads := payloads, ledger := seen.arena.ledger.free } : Graph))
    headers payloads

end Graph

end SlabTree.Tree
