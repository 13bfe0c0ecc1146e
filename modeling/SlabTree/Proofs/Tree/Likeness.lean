import SlabTree.Proofs.Arena.Accounting
import SlabTree.Proofs.Tree.Observation
import SlabTree.Proofs.Tree.Placement

/-!
# Trees that differ in their records

A tree learns of its records only through comparisons.  Two trees on which the same calls are
made, with other records and other orders but the same outcome wherever corresponding texts are
compared, have the same nodes at all times: records differ, but corresponding ones share a slot,
also after they moved to another one.
-/

namespace SlabTree

namespace Tree

namespace Graph

/-! ## The same numbers -/

/-- Options, counters and arenas of both graphs agree in all their numbers.  Only the contents of
the pages that their hosts hand out may differ. -/
structure Abreast (first second : Graph) : Prop where
  options_eq : second.options = first.options
  counters_eq : second.counters = first.counters
  ledger_eq : ∃ contents, second.ledger = first.ledger.withContents contents

variable {graph first second after later : Graph} {shape image rest ending whole total : Shape}
  {context place : Context} {order other : KeyOrder} {record twin probe : Bytes}
  {mends others : List Mend} {slot : Slot}

namespace Abreast

theorem live_eq (abreast : Abreast first second) : second.live = first.live := by
  obtain ⟨contents, same⟩ := abreast.ledger_eq
  rw [live, same]
  rfl

theorem refusal_eq (abreast : Abreast first second) :
    second.ledger.commitRefusal? = first.ledger.commitRefusal? := by
  obtain ⟨contents, same⟩ := abreast.ledger_eq
  rw [same, Arena.Ledger.commitRefusal?_withContents]

theorem commit (abreast : Abreast first second) : Abreast first.commit second.commit where
  options_eq := abreast.options_eq
  counters_eq := abreast.counters_eq
  ledger_eq := by
    obtain ⟨contents, same⟩ := abreast.ledger_eq
    exact ⟨contents, congrArg Arena.Ledger.commit same⟩

theorem count_eq (abreast : Abreast first second) (sound : first.Sound shape)
    (alsoSound : second.Sound image) : second.count = first.count := by
  rw [alsoSound.count_eq, sound.count_eq, abreast.live_eq]

/-- Two insertions whose searches both come to a slot, or both to a hole, are both refused, for
the same reason, or both made.  If it is the host that refuses, both have asked it for pages. -/
theorem inserts (abreast : Abreast first second) (sound : first.Sound shape)
    (alsoSound : second.Sound image) (length : twin.length = record.length)
    (descent : Descent (first.outcome order record shape) .exact shape context rest)
    (alsoDescent : Descent (second.outcome other twin image) .exact image place ending)
    (ends : ending.root? = rest.root?) :
    (∃ refusal log notes,
      Action.Yields Tree.graph (insert order record) first (.error refusal) first log ∧
        Action.Yields Tree.graph (insert other twin) second (.error refusal) second notes) ∨
      (first.count ≠ first.options.maxNodes ∧ ∃ refusal log notes,
        Action.Yields Tree.graph (insert order record) first (.error refusal) first.commit log ∧
          Action.Yields Tree.graph (insert other twin) second (.error refusal) second.commit
            notes) ∨
      rest = .leaf ∧ ending = .leaf ∧ ∃ after whole mends log later total others notes,
        Action.Yields Tree.graph (insert order record) first (.ok ()) after log ∧
          Inserted first after context record whole mends ∧
            Action.Yields Tree.graph (insert other twin) second (.ok ()) later notes ∧
              Inserted second later place twin total others := by
  have enough := sound.usable.live_le_walkLimit
  have alsoEnough := alsoSound.usable.live_le_walkLimit
  by_cases fits : record.length = first.options.nodeSize
  · have alsoFits : twin.length = second.options.nodeSize := by
      rw [length, fits, abreast.options_eq]
    cases top : rest.root? with
    | some slot =>
        exact Or.inl ⟨_, _, _, sound.yields_insert_duplicate enough fits descent top,
          alsoSound.yields_insert_duplicate alsoEnough alsoFits alsoDescent (ends.trans top)⟩
    | none =>
        obtain rfl := Shape.root?_eq_none_iff.mp top
        obtain rfl := Shape.root?_eq_none_iff.mp (ends.trans top)
        have count := abreast.count_eq sound alsoSound
        by_cases full : first.count = first.options.maxNodes
        · have alsoFull : second.count = second.options.maxNodes := by
            rw [count, full, abreast.options_eq]
          exact Or.inl ⟨_, _, _, sound.yields_insert_full enough fits descent full,
            alsoSound.yields_insert_full alsoEnough alsoFits alsoDescent alsoFull⟩
        · have alsoRoom : second.count ≠ second.options.maxNodes := by
            rwa [count, abreast.options_eq]
          cases told : first.ledger.commitRefusal? with
          | some error =>
              exact Or.inr (Or.inl ⟨full, _, _, _,
                sound.yields_insert_refused enough fits descent full told,
                alsoSound.yields_insert_refused alsoEnough alsoFits alsoDescent alsoRoom
                  (abreast.refusal_eq.trans told)⟩)
          | none =>
              obtain ⟨after, whole, mends, yields, inserted⟩ :=
                sound.yields_insert enough fits descent full told
              obtain ⟨later, total, others, alsoYields, alsoInserted⟩ :=
                alsoSound.yields_insert alsoEnough alsoFits alsoDescent alsoRoom
                  (abreast.refusal_eq.trans told)
              exact Or.inr (Or.inr ⟨rfl, rfl, after, whole, mends, _, later, total, others, _,
                yields, inserted, alsoYields, alsoInserted⟩)
  · have alsoWrong : twin.length ≠ second.options.nodeSize := by
      rwa [length, abreast.options_eq]
    exact Or.inl ⟨_, _, _, yields_insert_length fits, yields_insert_length alsoWrong⟩

/-- Insertions that count as many rotations keep the numbers the same. -/
theorem inserted (abreast : Abreast first second)
    (inserted : Inserted first after context record whole mends)
    (alsoInserted : Inserted second later place twin total others)
    (counted : ∀ counters, Mend.countAll counters others = Mend.countAll counters mends) :
    Abreast after later where
  options_eq := by rw [alsoInserted.options, inserted.options, abreast.options_eq]
  counters_eq := by
    rw [alsoInserted.counters, inserted.counters, abreast.counters_eq, counted]
  ledger_eq := by
    obtain ⟨contents, same⟩ := abreast.ledger_eq
    refine ⟨contents, ?_⟩
    rw [alsoInserted.ledger, inserted.ledger, same, Arena.Ledger.allocate_withContents]

end Abreast

/-- What the pages of two new trees contain does not matter to their numbers. -/
theorem abreast_of_create {options : Options} {host : Host} {contents : Nat → Nat → UInt8}
    {made opposite : Session Tree} (created : Tree.create options host = .ok made)
    (alsoCreated : Tree.create options { host with contents } = .ok opposite) :
    Abreast made.state.graph opposite.state.graph := by
  obtain ⟨_, arena, reserved, same, _⟩ := exists_of_create created
  obtain ⟨_, region, alsoReserved, alsoSame, _⟩ := exists_of_create alsoCreated
  have ledger_eq := (Arena.made_of_create reserved).ledger_withContents
    (Arena.made_of_create alsoReserved)
  rw [same, alsoSame]
  exact ⟨rfl, rfl, contents, ledger_eq⟩

/-! ## Twins -/

/-- Both graphs have the same nodes, and the records in a slot are one of `pairs`. -/
structure Twins (pairs : Bytes → Bytes → Prop) (shape : Shape) (first second : Graph) : Prop
    extends Abreast first second where
  sound : first.Sound shape
  alsoSound : second.Sound shape
  paired : ∀ slot ∈ shape.slots, pairs (first.payloads slot) (second.payloads slot)

/-- The orders compare a probe and its twin alike with the records of a pair. -/
def Unanimous (pairs : Bytes → Bytes → Prop) (order other : KeyOrder) (probe twin : Bytes) :
    Prop :=
  ∀ record counterpart, pairs record counterpart → ∀ asked,
    order.compare asked probe record = other.compare asked twin counterpart

/-- Records that are paired stay so when both in a slot are exchanged for a pair. -/
theorem paired_update {pairs : Bytes → Bytes → Prop} {records counterparts : Slot → Bytes}
    (pair : pairs record twin) {changed : Slot}
    (paired : slot ≠ changed → pairs (records slot) (counterparts slot)) :
    pairs (Function.update records changed record slot)
      (Function.update counterparts changed twin slot) := by
  by_cases same : slot = changed
  · subst same
    rw [Function.update_self, Function.update_self]
    exact pair
  · rw [Function.update_of_ne same, Function.update_of_ne same]
    exact paired same

namespace Twins

variable {pairs : Bytes → Bytes → Prop}

theorem header_eq (twins : Twins pairs shape first second) (live : slot < first.live) :
    second.headers slot = first.headers slot :=
  twins.alsoSound.spans.linked.header_eq twins.alsoSound.measured twins.sound.spans.linked
    twins.sound.measured (twins.sound.mem_slots_iff.mpr live)

/-- Searches go the same way. -/
theorem descent {turn : Turn} (twins : Twins pairs shape first second)
    (unanimous : Unanimous pairs order other probe twin)
    (descent : Descent (first.outcome order probe shape) turn shape context rest) :
    Descent (second.outcome other twin shape) turn shape context rest :=
  descent.congr fun slot member => unanimous _ _ (twins.paired slot member) _

/-- Twins stay twins when both ask their hosts for the pages of one slot more. -/
theorem commit (twins : Twins pairs shape first second)
    (room : first.count ≠ first.options.maxNodes) : Twins pairs shape first.commit second.commit :=
  have alsoRoom : second.count ≠ second.options.maxNodes := by
    rwa [twins.count_eq twins.sound twins.alsoSound, twins.options_eq]
  { toAbreast := twins.toAbreast.commit
    sound := twins.sound.commit (twins.sound.slot_left room)
    alsoSound := twins.alsoSound.commit (twins.alsoSound.slot_left alsoRoom)
    paired := twins.paired }

/-- Corresponding insertions come out alike and leave twins. -/
theorem insert (twins : Twins pairs shape first second)
    (unanimous : Unanimous pairs order other record twin) (length : twin.length = record.length)
    (pair : pairs record twin) :
    ∃ answer after later log notes total,
      Action.Yields Tree.graph (Tree.insert order record) first answer after log ∧
        Action.Yields Tree.graph (Tree.insert other twin) second answer later notes ∧
          Twins pairs total after later := by
  obtain ⟨context, rest, descent⟩ := exists_descent (first.outcome order record shape) .exact shape
  rcases twins.inserts twins.sound twins.alsoSound length descent
      (twins.descent unanimous descent) rfl with
    ⟨refusal, log, notes, yields, alsoYields⟩ | ⟨room, refusal, log, notes, yields, alsoYields⟩ |
      ⟨rfl, _, after, whole, mends, log, later, total, others, notes, yields, inserted, alsoYields,
        alsoInserted⟩
  · exact ⟨_, first, second, log, notes, shape, yields, alsoYields, twins⟩
  · exact ⟨_, first.commit, second.commit, log, notes, shape, yields, alsoYields,
      twins.commit room⟩
  · -- The same hole with the same filling rebalances to one shape.
    have rebalanced := alsoInserted.rebalances.rebalance_eq
    rw [twins.live_eq, inserted.rebalances.rebalance_eq] at rebalanced
    cases rebalanced
    refine ⟨_, after, later, log, notes, whole, yields, alsoYields,
      twins.inserted inserted alsoInserted fun _ => rfl, inserted.sound, alsoInserted.sound, ?_⟩
    intro slot member
    rw [inserted.payloads, alsoInserted.payloads, twins.live_eq]
    refine paired_update pair fun old => twins.paired slot ?_
    rw [inserted.slots_eq] at member
    rw [← descent.fill_eq, Context.slots_fill]
    simpa [Shape.slots, old] using member

end Twins

/-! ## Removal from twins -/

section Removal

variable {left right child otherChild : Shape} {vacated gone target : Slot}
  {side otherSide : Side} {payloads records : Slot → Bytes}

/-- Which slot the removal of a node vacates, and where that is, is told by the shape. -/
theorem Prepared.unique
    (prepared : Prepared first context left target right place side child vacated payloads)
    {otherPlace : Context}
    (alsoPrepared : Prepared second context left target right otherPlace otherSide otherChild gone
      records)
    (nodup : (Context.fill context (.node left target right)).slots.Nodup) :
    gone = vacated ∧ otherPlace = place ∧ otherChild = child := by
  have same : gone = vacated := by
    rcases prepared.which with ⟨few, rfl, _⟩ | ⟨onLeft, next, _⟩
    · rcases alsoPrepared.which with ⟨_, rfl, _⟩ | ⟨onLeft, next, _⟩
      · rfl
      · rcases few with rfl | rfl <;> contradiction
    · rcases alsoPrepared.which with ⟨rfl | rfl, _⟩ | ⟨_, alsoNext, _⟩
      · contradiction
      · contradiction
      · exact Option.some.inj (alsoNext.symm.trans next)
  subst same
  have there := alsoPrepared.fill_eq.trans prepared.fill_eq.symm
  rw [← alsoPrepared.fill_eq] at nodup
  refine ⟨rfl, ?_⟩
  cases side <;> cases otherSide <;>
    obtain ⟨samePlace, onLeft, onRight⟩ := Context.fill_unique nodup there
  · exact ⟨samePlace, onLeft⟩
  · exact ⟨samePlace, onRight.trans onLeft⟩
  · exact ⟨samePlace, onLeft.trans onRight⟩
  · exact ⟨samePlace, onRight⟩

/-- The vacated slot is one of the shape's. -/
theorem Prepared.mem_slots
    (prepared : Prepared graph context left target right place side child vacated payloads) :
    vacated ∈ (Context.fill context (.node left target right)).slots := by
  rw [← prepared.fill_eq]
  exact Context.mem_slots_fill.mpr (.inr (Shape.mem_slots_join.mpr (.inl rfl)))

theorem Abreast.removed (abreast : Abreast first second)
    (removed : Removed first after place child vacated payloads whole mends)
    (alsoRemoved : Removed second later place child vacated records whole mends) :
    Abreast after later where
  options_eq := by rw [alsoRemoved.options, removed.options, abreast.options_eq]
  counters_eq := by
    rw [alsoRemoved.counters, removed.counters, abreast.counters_eq, abreast.live_eq]
  ledger_eq := by
    obtain ⟨contents, same⟩ := abreast.ledger_eq
    refine ⟨contents, ?_⟩
    rw [alsoRemoved.ledger, removed.ledger, same, Arena.Ledger.free_withContents]

/-- Corresponding removals come out alike and leave twins. -/
theorem Twins.remove {pairs : Bytes → Bytes → Prop} (twins : Twins pairs shape first second)
    (unanimous : Unanimous pairs order other probe twin) (length : twin.length = probe.length) :
    ∃ answer after later log notes total,
      Action.Yields Tree.graph (Tree.remove order probe) first answer after log ∧
        Action.Yields Tree.graph (Tree.remove other twin) second answer later notes ∧
          Twins pairs total after later := by
  by_cases short : probe.length < first.options.keySize
  · have alsoShort : twin.length < second.options.keySize := by
      rwa [length, twins.options_eq]
    exact ⟨_, first, second, _, _, shape, yields_remove_short short,
      yields_remove_short alsoShort, twins⟩
  have long := Nat.le_of_not_lt short
  have alsoLong : second.options.keySize ≤ twin.length := by rwa [length, twins.options_eq]
  have count := twins.count_eq twins.sound twins.alsoSound
  by_cases empty : first.count = 0
  · exact ⟨_, first, second, _, _, shape, yields_remove_empty long empty,
      yields_remove_empty alsoLong (count.trans empty), twins⟩
  have used : second.count ≠ 0 := by rwa [count]
  have enough := twins.sound.usable.live_le_walkLimit
  have alsoEnough := twins.alsoSound.usable.live_le_walkLimit
  obtain ⟨context, rest, descent⟩ := exists_descent (first.outcome order probe shape) .exact shape
  have alsoDescent := twins.descent unanimous descent
  cases rest with
  | leaf =>
      exact ⟨_, first, second, _, _, shape, twins.sound.yields_remove_missing enough long empty
          descent,
        twins.alsoSound.yields_remove_missing alsoEnough alsoLong used alsoDescent, twins⟩
  | node left target right =>
      obtain ⟨after, place, side, child, vacated, payloads, whole, mends, prepared, removes,
        removed⟩ := twins.sound.yields_remove enough long empty descent
      obtain ⟨later, _, _, _, _, records, total, others, alsoPrepared, alsoRemoves,
        alsoRemoved⟩ := twins.alsoSound.yields_remove alsoEnough alsoLong used alsoDescent
      have split := descent.fill_eq
      -- Both unlink the same slot in the same place, whatever records are copied.
      obtain ⟨rfl, rfl, rfl⟩ := prepared.unique alsoPrepared (split ▸ twins.sound.spans.nodup)
      have rebalanced := alsoRemoved.rebalances.rebalance_eq
      rw [removed.rebalances.rebalance_eq] at rebalanced
      cases rebalanced
      refine ⟨_, after, later, _, _, _, removes, alsoRemoves,
        twins.toAbreast.removed removed alsoRemoved, removed.sound, ?_, ?_⟩
      · rw [← twins.live_eq]
        exact alsoRemoved.sound
      · intro slot member
        rw [Shape.slots_map] at member
        obtain ⟨part, inside, rfl⟩ := List.mem_map.mp member
        rw [removed.payloads part inside, ← twins.live_eq, alsoRemoved.payloads part inside,
          prepared.payloads_eq, alsoPrepared.payloads_eq]
        refine paired_update (twins.paired _ (split ▸ prepared.mem_slots)) fun _ =>
          twins.paired part ?_
        rw [removed.rebalances.slots_eq] at inside
        rw [← split, ← prepared.fill_eq]
        refine Context.mem_slots_fill.mpr ((Context.mem_slots_fill.mp inside).imp_right ?_)
        exact fun below => Shape.mem_slots_join.mpr (.inr (.inl below))

end Removal

end Graph

/-! ## Runs on two trees -/

section Tandem

variable {α β : Type} {alike : α → β → Prop}

/-- Actions that yield the same answer on graphs that are kin, and graphs that are kin again, do so
side by side. -/
theorem tandem_of_kin {kin : Shape → Graph → Graph → Prop} {action other : Action Tree α}
    (each : ∀ shape first second, kin shape first second → ∃ answer after later log notes total,
      Action.Yields graph action first answer after log ∧
        Action.Yields graph other second answer later notes ∧ kin total after later) :
    Action.Tandem (fun tree opposite => ∃ shape, kin shape tree.graph opposite.graph) Eq action
      other := by
  rintro first second ⟨shape, pair⟩
  obtain ⟨answer, _, _, _, _, total, yields, alsoYields, still⟩ := each shape _ _ pair
  obtain ⟨final, ran, rfl⟩ := yields first.state first.journal rfl
  obtain ⟨last, alsoRan, rfl⟩ := alsoYields second.state second.journal rfl
  exact ⟨answer, answer, _, _, ran, alsoRan, rfl, total, still⟩

/-- Two lookups are made side by side. -/
theorem tandem_consult {related : Tree → Tree → Prop} {lookup : Tree → Lookup α}
    {other : Tree → Lookup β}
    (seen : ∀ tree opposite, related tree opposite → ∃ answer given,
      (lookup tree).result = .ok answer ∧ (other opposite).result = .ok given ∧
        alike answer given) :
    Action.Tandem related alike (consult lookup) (consult other) := by
  have looks : Action.Tandem related (fun found search => ∃ answer given,
      found.result = .ok answer ∧ search.result = .ok given ∧ alike answer given)
      (Action.view lookup) (Action.view other) := Action.tandem_view seen
  refine looks.bind fun found search both => ?_
  exact (Action.tandem_noteComparisons _ _).bind fun _ _ _ => Action.tandem_read fun _ _ _ => both

end Tandem

/-- Both searches come to the same slot of the shape, or both to none. -/
def Meet (shape : Shape) (search other : Lookup (Option Slot)) : Prop :=
  ∃ found, search.result = .ok found ∧ other.result = .ok found ∧ ∀ slot ∈ found, slot ∈ shape.slots

@[simp]
theorem copyOut_fst (tree : Tree) (buffer : Bytes) (answer : Except Refusal Bytes) :
    (tree.copyOut buffer answer).1 = answer.map fun _ => () := by
  cases answer <;> rfl

namespace Graph.Twins

variable {pairs : Bytes → Bytes → Prop} {tree opposite : Tree} {shape : Shape}
  {order other : KeyOrder} {probe twin : Bytes} {search find : Lookup (Option Slot)}

theorem meet_locate (twins : Twins pairs shape tree.graph opposite.graph)
    (unanimous : Unanimous pairs order other probe twin) :
    Meet shape (tree.locate order probe) (opposite.locate other twin) := by
  obtain ⟨found, told, inside⟩ := twins.sound.locate_answers order probe
  obtain ⟨context, rest, descent⟩ :=
    exists_descent (tree.graph.outcome order probe shape) .exact shape
  refine ⟨found, told, ?_, inside⟩
  rw [← told, locate_eq twins.sound descent rfl,
    locate_eq twins.alsoSound (twins.descent unanimous descent) rfl]

theorem meet_locateAbove (twins : Twins pairs shape tree.graph opposite.graph)
    (unanimous : Unanimous pairs order other probe twin) :
    Meet shape (tree.locateAbove order probe) (opposite.locateAbove other twin) := by
  obtain ⟨found, told, inside⟩ := twins.sound.locateAbove_answers order probe
  obtain ⟨context, rest, descent⟩ :=
    exists_descent (tree.graph.outcome order probe shape) .above shape
  obtain rfl := eq_leaf_of_onward descent fun compared => by cases compared <;> decide
  refine ⟨found, told, ?_, inside⟩
  rw [← told, locateAbove_eq twins.sound descent rfl,
    locateAbove_eq twins.alsoSound (twins.descent unanimous descent) rfl]

theorem meet_locateBelow (twins : Twins pairs shape tree.graph opposite.graph)
    (unanimous : Unanimous pairs order other probe twin) :
    Meet shape (tree.locateBelow order probe) (opposite.locateBelow other twin) := by
  obtain ⟨found, told, inside⟩ := twins.sound.locateBelow_answers order probe
  obtain ⟨context, rest, descent⟩ :=
    exists_descent (tree.graph.outcome order probe shape) .below shape
  obtain rfl := eq_leaf_of_onward descent fun compared => by cases compared <;> decide
  refine ⟨found, told, ?_, inside⟩
  rw [← told, locateBelow_eq twins.sound descent rfl,
    locateBelow_eq twins.alsoSound (twins.descent unanimous descent) rfl]

theorem keySize_eq (twins : Twins pairs shape tree.graph opposite.graph) :
    opposite.options.keySize = tree.options.keySize :=
  congrArg Options.keySize twins.options_eq

/-- Lookups by key whose searches meet are both refused, for the same reason, or both answered
with a record. -/
theorem recordFor_map (twins : Twins pairs shape tree.graph opposite.graph)
    (length : twin.length = probe.length) (meet : Meet shape search find) :
    ∃ answer given, (tree.recordFor probe search).result = .ok answer ∧
      (opposite.recordFor twin find).result = .ok given ∧
        answer.map (fun _ => ()) = given.map fun _ => () := by
  obtain ⟨found, told, alsoTold, inside⟩ := meet
  refine ⟨_, _, twins.sound.recordFor_result told inside,
    twins.alsoSound.recordFor_result alsoTold inside, ?_⟩
  rw [length, twins.keySize_eq]
  split
  · rfl
  · cases found <;> rfl

theorem contains_eq (twins : Twins pairs shape tree.graph opposite.graph)
    (unanimous : Unanimous pairs order other probe twin) (length : twin.length = probe.length) :
    ∃ answer given, (tree.contains order probe).result = .ok answer ∧
      (opposite.contains other twin).result = .ok given ∧ answer = given := by
  obtain ⟨found, told, alsoTold, _⟩ := twins.meet_locate unanimous
  rw [contains, contains, length, twins.keySize_eq]
  split
  · exact ⟨false, false, rfl, rfl, rfl⟩
  · refine ⟨found.isSome, found.isSome, ?_, ?_, rfl⟩
    · rw [Lookup.andThen, told]
      rfl
    · rw [Lookup.andThen, alsoTold]
      rfl

theorem extreme_map (twins : Twins pairs shape tree.graph opposite.graph) (side : Side) :
    ∃ answer given, tree.extreme side = .ok answer ∧ opposite.extreme side = .ok given ∧
      answer.map (fun _ => ()) = given.map fun _ => () := by
  refine ⟨_, _, twins.sound.extreme_eq rfl side, twins.alsoSound.extreme_eq rfl side, ?_⟩
  cases shape.end? side <;> rfl

theorem firstInto_map (twins : Twins pairs shape tree.graph opposite.graph) (buffer : Bytes) :
    ∃ answer given, tree.firstInto buffer = .ok answer ∧ opposite.firstInto buffer = .ok given ∧
      answer.1 = given.1 := by
  have nodeSize_eq : opposite.options.nodeSize = tree.options.nodeSize :=
    congrArg Options.nodeSize twins.options_eq
  obtain ⟨answer, given, told, alsoTold, same⟩ := twins.extreme_map .left
  rw [firstInto, firstInto, nodeSize_eq]
  split
  · exact ⟨_, _, rfl, rfl, rfl⟩
  · refine ⟨tree.copyOut buffer answer, opposite.copyOut buffer given, ?_, ?_, ?_⟩
    · rw [first, told, Except.map]
    · rw [first, alsoTold, Except.map]
    · rw [copyOut_fst, copyOut_fst, same]

theorem nextInto_map (twins : Twins pairs shape tree.graph opposite.graph)
    (unanimous : Unanimous pairs order other probe twin) (length : twin.length = probe.length)
    (buffer : Bytes) :
    ∃ answer given, (tree.nextInto order probe buffer).result = .ok answer ∧
      (opposite.nextInto other twin buffer).result = .ok given ∧ answer.1 = given.1 := by
  have nodeSize_eq : opposite.options.nodeSize = tree.options.nodeSize :=
    congrArg Options.nodeSize twins.options_eq
  obtain ⟨answer, given, told, alsoTold, same⟩ :=
    twins.recordFor_map length (twins.meet_locateAbove unanimous)
  rw [nextInto, nextInto, nodeSize_eq]
  split
  · exact ⟨_, _, rfl, rfl, rfl⟩
  · refine ⟨tree.copyOut buffer answer, opposite.copyOut buffer given, ?_, ?_, ?_⟩
    · rw [Lookup.andThen, next, told]
      rfl
    · rw [Lookup.andThen, next, alsoTold]
      rfl
    · rw [copyOut_fst, copyOut_fst, same]

end Graph.Twins

end Tree

end SlabTree
