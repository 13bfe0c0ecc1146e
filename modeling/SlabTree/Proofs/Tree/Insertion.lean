import SlabTree.Proofs.Tree.Soundness
import SlabTree.Tree.Update

/-!
# Insertion

A record goes into the next slot, which is hung into the hole where the search for
it left the shape; then the shape is rebalanced from there.  A refused insertion
changes nothing, except that pages which the host has backed stay committed.  None of
this takes more steps than slots are live.
-/

namespace SlabTree.Tree.Graph

open Context (Rebalances)

variable {graph : Graph} {shape rest : Shape} {context : Context} {order : KeyOrder}
  {record : Bytes} {steps : Nat}

/-! ## Hanging a new slot into a hole -/

/-- The graph with a record in the next slot, hung into a hole. -/
def hang (graph : Graph) (context : Context) (record : Bytes) : Graph :=
  { ((graph.allocate.setHeader graph.live (Header.leaf (Context.parent? context))).setPayload
      graph.live record).repoint (Context.gate? context) (some graph.live) with
    count := graph.count + 1
    counters := graph.counters.countInsert }

theorem headers_hang_of_ne {slot : Slot} (old : slot ≠ graph.live) :
    (graph.hang context record).headers slot =
      (graph.repoint (Context.gate? context) (some graph.live)).headers slot := by
  have kept : (graph.allocate.setHeader graph.live
      (Header.leaf (Context.parent? context))).headers slot = graph.headers slot :=
    Function.update_of_ne old _ _
  apply Header.eq_of_links
  · intro link
    refine (link_repoint link).trans ?_
    rw [link_repoint]
    exact congrArg (fun header => if Context.gate? context = some (slot, link) then
      some graph.live else Header.link header link) kept
  · refine height_repoint.trans ?_
    rw [height_repoint]
    exact congrArg Header.height kept

theorem headers_hang_self (above : ∀ slot ∈ Context.slots context, slot < graph.live) :
    (graph.hang context record).headers graph.live = Header.leaf (Context.parent? context) := by
  have hung : ∀ link, Context.gate? context ≠ some (graph.live, link) := fun link leads =>
    Nat.lt_irrefl _ (above graph.live (Context.mem_slots_of_gate? leads))
  have own : (graph.allocate.setHeader graph.live
      (Header.leaf (Context.parent? context))).headers graph.live = _ :=
    Function.update_self graph.live _ graph.headers
  apply Header.eq_of_links
  · intro link
    refine (link_repoint link).trans ?_
    rw [if_neg (hung link)]
    exact congrArg (fun header => Header.link header link) own
  · exact height_repoint.trans (congrArg Header.height own)

/-- The new slot stands alone in the hole. -/
theorem Focused.hang (focused : graph.Focused context .leaf) (record : Bytes) :
    (graph.hang context record).Focused context (.node .leaf graph.live .leaf) := by
  have old : ∀ slot ∈ Context.slots context, slot ≠ graph.live := fun slot member =>
    Nat.ne_of_lt (focused.liveAbove slot member)
  have own := @headers_hang_self graph context record focused.liveAbove
  refine focused.exchange rfl ?_ ?_ (List.nodup_singleton graph.live) ?_ ?_ (Nat.le_succ _)
  · intro slot member link
    rw [headers_hang_of_ne (old slot member), link_repoint]
    rfl
  · refine ⟨?_, ?_, ?_, trivial, trivial⟩ <;> rw [own] <;> rfl
  · intro slot member here
    exact old slot member (List.mem_singleton.mp here)
  · intro slot here
    rw [List.mem_singleton.mp here]
    exact Nat.lt_succ_self _

/-- Where a search left the tree, as an insertion is told. -/
def place (context : Context) : Option (Slot × Side) :=
  context.head?.map fun frame => (frame.slot, frame.side)

theorem map_place (context : Context) : (place context).map (·.1) = Context.parent? context := by
  cases context <;> rfl

theorem yields_attach {slot : Slot} (usable : graph.Usable)
    (above : ∀ slot ∈ Context.slots context, slot < graph.live)
    (storable : Slot.Storable (some slot)) :
    Action.Yields Tree.graph (attach (place context) slot) graph ()
      (graph.repoint (Context.gate? context) (some slot)) {} := by
  cases context with
  | nil => exact yields_setRoot _
  | cons frame outer =>
      rw [repoint_cons]
      exact yields_setLink usable (above frame.slot List.mem_cons_self) storable

/-- What an insertion makes of a sound tree. -/
structure Inserted (before after : Graph) (context : Context) (record : Bytes) (whole : Shape)
    (mends : List Mend) : Prop where
  sound : after.Sound whole
  rebalances : Rebalances context (.node .leaf before.live .leaf) whole mends
  payloads : after.payloads = Function.update before.payloads before.live record
  options : after.options = before.options
  ledger : after.ledger = before.ledger.allocate
  counters : after.counters = Mend.countAll before.counters.countInsert mends

theorem usable_allocate (usable : graph.Usable) (room : graph.live < graph.ledger.capacity)
    (granted : graph.ledger.commitRefusal? = none) : graph.allocate.Usable :=
  ⟨usable.ledger.allocate room granted, usable.elementSize_eq, usable.capacity_eq,
    usable.maxNodes_lt⟩

/-- Hanging a record into a hole of a sound tree and rebalancing. -/
theorem Sound.yields_insertAt (sound : graph.Sound shape)
    (split : Context.fill context .leaf = shape)
    (length : record.length = graph.options.nodeSize)
    (room : graph.live < graph.ledger.capacity) (granted : graph.ledger.commitRefusal? = none)
    (enough : graph.live ≤ steps) :
    ∃ after whole mends,
      Action.Yields Tree.graph (insertAt steps (place context) graph.live record) graph.allocate ()
        after (Mend.logAll mends) ∧
      Inserted graph after context record whole mends := by
  have focused := sound.focused split
  have usable := usable_allocate sound.usable room granted
  have hung := focused.hang record
  have newLive : graph.live < graph.allocate.live := Nat.lt_succ_self _
  have aboveLive : ∀ slot ∈ Context.slots context, slot < graph.allocate.live := fun slot member =>
    Nat.lt_succ_of_lt (focused.liveAbove slot member)
  have aboveMeasured : Context.Measured (graph.hang context record).headers context := by
    refine (sound.measured_parts split).1.congr fun slot member => ?_
    rw [headers_hang_of_ne (Nat.ne_of_lt (focused.liveAbove slot member)), height_repoint]
  have ownMeasured : Measured (graph.hang context record).headers
      (.node .leaf graph.live .leaf) := by
    refine ⟨?_, trivial, trivial⟩
    rw [headers_hang_self focused.liveAbove]
    rfl
  have balanced : (Context.fill context .leaf).Balanced := split ▸ sound.balanced
  have alone : (Shape.node .leaf graph.live .leaf).Balanced :=
    ⟨Nat.zero_le 1, Nat.zero_le 1, trivial, trivial⟩
  obtain ⟨whole, mends, rebalances, wholeBalanced, _⟩ :=
    Context.exists_rebalances balanced alone (Nat.le_refl 1) (Nat.zero_le 2)
  obtain ⟨after, walk, replaced, measured⟩ :=
    hung.rebalanced rebalances usable aboveMeasured ownMeasured
      (Nat.le_trans focused.length_context_le enough)
  refine ⟨after, whole, mends, ?_, ?_⟩
  · have storable : Slot.Storable (some graph.live) :=
      Slot.storable_some (usable.lt_nil newLive)
    have links : ∀ link, Slot.Storable ((Header.leaf (Context.parent? context)).link link) := by
      intro link
      cases link with
      | parent => exact focused.storable_parent sound.usable
      | left => exact Slot.storable_none
      | right => exact Slot.storable_none
    have low : (-0x80000000 : Int) ≤ 0 := by decide
    have high : (0 : Int) < 0x80000000 := by decide
    simp only [insertAt, map_place]
    refine Action.Yields.silently
      (yields_setHeader usable newLive links low high) ?_
    refine Action.Yields.silently (yields_setPayload usable newLive length) ?_
    refine Action.Yields.silently (yields_attach usable aboveLive storable) ?_
    refine Action.Yields.silently (yields_updateCount _) ?_
    exact Action.Yields.silently (yields_updateCounters _) walk
  · obtain ⟨payloads, count, options, ledger⟩ := of_contents replaced.contents
    have grown : after.live = graph.live + 1 := congrArg Arena.Ledger.live ledger
    have sameLength : whole.slots.length = shape.slots.length + 1 := by
      rw [rebalances.slots_eq, ← split, (Context.slots_fill_perm _ _).length_eq,
        (Context.slots_fill_perm _ _).length_eq, List.length_append, List.length_append]
      rfl
    refine ⟨⟨replaced.usable usable, replaced.spans, ?_, measured,
      wholeBalanced, ?_⟩, rebalances, payloads, options, ledger, replaced.counters⟩
    · rw [sameLength, sound.length_eq, grown]
    · rw [count, grown]
      exact congrArg (· + 1) sound.count_eq

theorem Inserted.slots_eq {after : Graph} {whole : Shape} {mends : List Mend}
    (inserted : Inserted graph after context record whole mends) :
    whole.slots = Context.before context ++ graph.live :: Context.after context := by
  rw [inserted.rebalances.slots_eq, Context.slots_fill_node]
  simp [Shape.slots]

/-- The record comes to stand where the hole was among the others. -/
theorem Inserted.records_eq {after : Graph} {whole : Shape} {mends : List Mend}
    (inserted : Inserted graph after context record whole mends) :
    after.records whole = (Context.before context).map graph.payloads ++
      record :: (Context.after context).map graph.payloads := by
  have nodup := inserted.sound.spans.nodup
  rw [inserted.slots_eq] at nodup
  obtain ⟨absent, _⟩ := List.nodup_cons.mp (List.nodup_middle.mp nodup)
  rw [List.mem_append, not_or] at absent
  rw [records, inserted.slots_eq, inserted.payloads, List.map_append, List.map_cons,
    Function.update_self, map_update_of_notMem absent.1, map_update_of_notMem absent.2]

/-! ## Insertion as a whole -/

theorem placeForWithin_eq (sound : graph.Sound shape)
    (descent : Descent (graph.outcome order record shape) .exact shape context rest) {tree : Tree}
    (looks : tree.graph = graph) (enough : graph.live ≤ steps) :
    tree.placeForWithin steps order record =
      ⟨(graph.searchPath order .exact record shape).visits, .ok (rest.root?,
        Path.exit (graph.searchPath order .exact record shape).visits)⟩ := by
  rw [placeForWithin, Lookup.ofPath, sound.spans.pathWithin_eq sound.usable looks enough,
    ← found_eq descent]
  rfl

/-- A record of the wrong length is refused. -/
theorem yields_insert_length (wrong : record.length ≠ graph.options.nodeSize) :
    Action.Yields Tree.graph (insertWithin steps order record) graph
      (.error (.invalidArgument .recordLength)) graph {} := by
  refine Action.Yields.silently (Action.yields_view graph.options ?_) ?_
  · rintro tree rfl
    rfl
  rw [if_pos wrong]
  exact Action.yields_pure _ graph

/-- The rest of an insertion, once it is known where the search came to. -/
def insertFound (steps : Nat) (options : Options) (record : Bytes)
    (found : Option Slot × Option (Slot × Side)) : Action Tree (Except Refusal Unit) := do
  if found.1.isSome then
    pure (.error .duplicateKey)
  else
    let count ← Action.view (·.count)
    if count = options.maxNodes then
      Action.log (.capacityExceeded options.maxNodes)
      pure (.error .capacityExceeded)
    else
      match ← onArena Arena.allocate with
      | .error .arenaFull => pure (.error .capacityExceeded)
      | .error refusal => pure (.error refusal)
      | .ok slot =>
          insertAt steps found.2 slot record
          pure (.ok ())

/-- A record of the right length is searched for first. -/
theorem Sound.yields_insert_search {after : Graph} {answer : Except Refusal Unit} {log : Journal}
    (sound : graph.Sound shape) (enough : graph.live ≤ steps)
    (length : record.length = graph.options.nodeSize)
    (descent : Descent (graph.outcome order record shape) .exact shape context rest)
    (onward : Action.Yields Tree.graph (insertFound steps graph.options record (rest.root?,
      Path.exit (graph.searchPath order .exact record shape).visits)) graph answer after log) :
    Action.Yields Tree.graph (insertWithin steps order record) graph answer after
      (graph.comparisons order .exact record shape ++ log) := by
  refine Action.Yields.silently (Action.yields_view graph.options ?_) ?_
  · rintro tree rfl
    rfl
  rw [if_neg (not_not.mpr length)]
  exact Action.Yields.bind 
    (yields_consult fun tree looks => placeForWithin_eq sound descent looks enough) onward

/-- A record with the key of one that is stored is refused. -/
theorem Sound.yields_insert_duplicate {slot : Slot} (sound : graph.Sound shape)
    (enough : graph.live ≤ steps) (length : record.length = graph.options.nodeSize)
    (descent : Descent (graph.outcome order record shape) .exact shape context rest)
    (found : rest.root? = some slot) :
    Action.Yields Tree.graph (insertWithin steps order record) graph (.error .duplicateKey) graph
      (graph.comparisons order .exact record shape) := by
  have onward : Action.Yields Tree.graph (insertFound steps graph.options record (rest.root?,
      Path.exit (graph.searchPath order .exact record shape).visits)) graph
        (.error .duplicateKey) graph {} := by
    rw [insertFound, found]
    exact Action.yields_pure _ graph
  have searched := sound.yields_insert_search enough length descent onward
  rwa [Journal.append_empty] at searched

/-- A new record is refused by a tree that is full. -/
theorem Sound.yields_insert_full (sound : graph.Sound shape)
    (enough : graph.live ≤ steps) (length : record.length = graph.options.nodeSize)
    (descent : Descent (graph.outcome order record shape) .exact shape context .leaf)
    (full : graph.count = graph.options.maxNodes) :
    Action.Yields Tree.graph (insertWithin steps order record) graph
      (.error .capacityExceeded) graph
      (graph.comparisons order .exact record shape ++
        ⟨#[.capacityExceeded graph.options.maxNodes], 0⟩) := by
  apply sound.yields_insert_search enough length descent
  refine Action.Yields.silently (Action.yields_view graph.count ?_) ?_
  · rintro tree rfl
    rfl
  rw [if_pos full]
  exact (Action.yields_log _).answering _

/-- A tree that is not full has a slot left. -/
theorem Sound.slot_left (sound : graph.Sound shape)
    (room : graph.count ≠ graph.options.maxNodes) : graph.live < graph.ledger.capacity := by
  refine Nat.lt_of_le_of_ne sound.usable.ledger.live_le ?_
  rw [sound.usable.capacity_eq]
  exact fun full => room (sound.count_eq.trans full)

/-- A new record is refused if the host does not back the pages for it. -/
theorem Sound.yields_insert_refused (sound : graph.Sound shape) (enough : graph.live ≤ steps)
    (length : record.length = graph.options.nodeSize)
    (descent : Descent (graph.outcome order record shape) .exact shape context .leaf)
    (room : graph.count ≠ graph.options.maxNodes) {error : HostError}
    (refused : graph.ledger.commitRefusal? = some error) :
    Action.Yields Tree.graph (insertWithin steps order record) graph (.error (.host error))
      graph.commit (graph.comparisons order .exact record shape ++
        Arena.commitLog graph.ledger.committedPages graph.ledger.newPages) := by
  apply sound.yields_insert_search enough length descent
  refine Action.Yields.silently (Action.yields_view graph.count ?_) ?_
  · rintro tree rfl
    rfl
  rw [if_neg room]
  exact (yields_allocate_refused sound.usable (sound.slot_left room) refused).concluding
    (Action.yields_pure _ _)

/-- A new record is inserted into the hole at which the search for it left the shape. -/
theorem Sound.yields_insert (sound : graph.Sound shape) (enough : graph.live ≤ steps)
    (length : record.length = graph.options.nodeSize)
    (descent : Descent (graph.outcome order record shape) .exact shape context .leaf)
    (room : graph.count ≠ graph.options.maxNodes)
    (granted : graph.ledger.commitRefusal? = none) :
    ∃ after whole mends,
      Action.Yields Tree.graph (insertWithin steps order record) graph (.ok ()) after
        (graph.comparisons order .exact record shape ++
          (Arena.commitLog graph.ledger.committedPages graph.ledger.newPages ++
            Mend.logAll mends)) ∧
      Inserted graph after context record whole mends := by
  have free := sound.slot_left room
  obtain ⟨after, whole, mends, inserts, inserted⟩ :=
    sound.yields_insertAt descent.fill_eq length free granted enough
  refine ⟨after, whole, mends, ?_, inserted⟩
  apply sound.yields_insert_search enough length descent
  rw [exit_eq descent]
  refine Action.Yields.silently (Action.yields_view graph.count ?_) ?_
  · rintro tree rfl
    rfl
  rw [if_neg room]
  exact Action.Yields.bind (yields_allocate sound.usable free granted) (inserts.answering _)

/-- The ways in which an insertion comes out: what it answers, what is there afterwards, and
what it logs. -/
inductive Inserts (graph : Graph) (shape : Shape) (order : KeyOrder) (record : Bytes) :
    Except Refusal Unit → Graph → Shape → Journal → Prop
  | length (wrong : record.length ≠ graph.options.nodeSize) :
      Inserts graph shape order record (.error (.invalidArgument .recordLength)) graph shape {}
  | duplicate {context : Context} {left right : Shape} {slot : Slot}
      (length : record.length = graph.options.nodeSize)
      (descent : Descent (graph.outcome order record shape) .exact shape context
        (.node left slot right)) :
      Inserts graph shape order record (.error .duplicateKey) graph shape
        (graph.comparisons order .exact record shape)
  | full {context : Context} (length : record.length = graph.options.nodeSize)
      (descent : Descent (graph.outcome order record shape) .exact shape context .leaf)
      (full : graph.count = graph.options.maxNodes) :
      Inserts graph shape order record (.error .capacityExceeded) graph shape
        (graph.comparisons order .exact record shape ++
          ⟨#[.capacityExceeded graph.options.maxNodes], 0⟩)
  | refused {context : Context} {error : HostError}
      (length : record.length = graph.options.nodeSize)
      (descent : Descent (graph.outcome order record shape) .exact shape context .leaf)
      (room : graph.count ≠ graph.options.maxNodes)
      (refused : graph.ledger.commitRefusal? = some error) :
      Inserts graph shape order record (.error (.host error)) graph.commit shape
        (graph.comparisons order .exact record shape ++
          Arena.commitLog graph.ledger.committedPages graph.ledger.newPages)
  | inserted {context : Context} {after : Graph} {whole : Shape} {mends : List Mend}
      (length : record.length = graph.options.nodeSize)
      (descent : Descent (graph.outcome order record shape) .exact shape context .leaf)
      (room : graph.count ≠ graph.options.maxNodes)
      (granted : graph.ledger.commitRefusal? = none)
      (inserted : Inserted graph after context record whole mends) :
      Inserts graph shape order record (.ok ()) after whole
        (graph.comparisons order .exact record shape ++
          (Arena.commitLog graph.ledger.committedPages graph.ledger.newPages ++
            Mend.logAll mends))

/-- Every insertion into a sound tree comes out in one of the ways, in walks of as many steps as
slots are live. -/
theorem Sound.exists_insertsWithin (sound : graph.Sound shape) (enough : graph.live ≤ steps)
    (order : KeyOrder) (record : Bytes) :
    ∃ answer after whole log,
      Action.Yields Tree.graph (insertWithin steps order record) graph answer after log ∧
        Inserts graph shape order record answer after whole log := by
  obtain ⟨context, rest, descent⟩ := exists_descent (graph.outcome order record shape) .exact shape
  by_cases length : record.length = graph.options.nodeSize
  · cases rest with
    | node left slot right =>
        exact ⟨_, graph, shape, _, sound.yields_insert_duplicate enough length descent rfl,
          .duplicate length descent⟩
    | leaf =>
        by_cases full : graph.count = graph.options.maxNodes
        · exact ⟨_, graph, shape, _, sound.yields_insert_full enough length descent full,
            .full length descent full⟩
        · cases told : graph.ledger.commitRefusal? with
          | some error =>
              exact ⟨_, graph.commit, shape, _,
                sound.yields_insert_refused enough length descent full told,
                .refused length descent full told⟩
          | none =>
              obtain ⟨after, whole, mends, inserts, inserted⟩ :=
                sound.yields_insert enough length descent full told
              exact ⟨_, after, whole, _, inserts, .inserted length descent full told inserted⟩
  · exact ⟨_, graph, shape, _, yields_insert_length length, .length length⟩

theorem Sound.exists_inserts (sound : graph.Sound shape) (order : KeyOrder) (record : Bytes) :
    ∃ answer after whole log,
      Action.Yields Tree.graph (insert order record) graph answer after log ∧
        Inserts graph shape order record answer after whole log :=
  sound.exists_insertsWithin sound.usable.live_le_walkLimit order record

theorem Inserts.sound {answer : Except Refusal Unit} {after : Graph} {whole : Shape} {log : Journal}
    (inserts : graph.Inserts shape order record answer after whole log)
    (sound : graph.Sound shape) : after.Sound whole := by
  cases inserts with
  | length | duplicate | full => exact sound
  | refused _ _ room _ => exact sound.commit (sound.slot_left room)
  | inserted _ _ _ _ inserted => exact inserted.sound

theorem Inserts.options_eq {answer : Except Refusal Unit} {after : Graph} {whole : Shape}
    {log : Journal} (inserts : graph.Inserts shape order record answer after whole log) :
    after.options = graph.options := by
  cases inserts with
  | length | duplicate | full | refused => rfl
  | inserted _ _ _ _ inserted => exact inserted.options

theorem Inserts.host_eq {answer : Except Refusal Unit} {after : Graph} {whole : Shape}
    {log : Journal} (inserts : graph.Inserts shape order record answer after whole log) :
    after.ledger.host = graph.ledger.host := by
  cases inserts with
  | length | duplicate | full | refused => rfl
  | inserted _ _ _ _ inserted =>
      rw [inserted.ledger]
      rfl

/-- The records of a tree do not depend on the pages that are committed. -/
@[simp]
theorem records_commit : graph.commit.records shape = graph.records shape :=
  rfl

/-- Every insertion into a sound tree answers and leaves a sound tree: one with the same records
if it was refused, and otherwise one with the record among the others. -/
theorem Sound.insert_answers (sound : graph.Sound shape) (order : KeyOrder) (record : Bytes) :
    ∃ answer after log whole,
      Action.Yields Tree.graph (insert order record) graph answer after log ∧
      after.Sound whole ∧
        ((∃ refusal, answer = .error refusal) ∧ after.records whole = graph.records shape ∨
          answer = .ok () ∧ ∃ earlier later, graph.records shape = earlier ++ later ∧
            after.records whole = earlier ++ record :: later) := by
  obtain ⟨answer, after, whole, log, yields, inserts⟩ := sound.exists_inserts order record
  refine ⟨answer, after, log, whole, yields, inserts.sound sound, ?_⟩
  cases inserts with
  | length | duplicate | full | refused => exact Or.inl ⟨⟨_, rfl⟩, rfl⟩
  | inserted _ descent _ _ inserted =>
      refine Or.inr ⟨rfl, _, _, ?_, inserted.records_eq⟩
      rw [records, ← descent.fill_eq, Context.slots_fill, ← List.map_append]
      simp [Shape.slots]

end SlabTree.Tree.Graph
