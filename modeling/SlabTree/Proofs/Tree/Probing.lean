import SlabTree.Proofs.Tree.Reachable

/-!
# Probes that cut the records in three

A search needs no order on keys.  It is enough that the outcomes for its probe follow the
records: first those below the probe, then those equal to it, of which there may be several or
none, then those above it.  Then every search ends at an edge between two of the three parts
or, if it stops at equal records, inside the middle one, and so does what inserts and removes.
-/

namespace SlabTree

open Context (before after)

/-- The probe comes out above the records in the first list, equal to those in the second and
below those in the third, whenever it is compared. -/
structure KeyOrder.Cuts (order : KeyOrder) (probe : Bytes) (lower equal higher : List Bytes) :
    Prop where
  above : ∀ asked, ∀ record ∈ lower, order.compare asked probe record = .gt
  level : ∀ asked, ∀ record ∈ equal, order.compare asked probe record = .eq
  below : ∀ asked, ∀ record ∈ higher, order.compare asked probe record = .lt

/-! ## Cuts through a shape -/

/-- Outcomes in the order in which they come along a cut: above first, below last. -/
def Leads (first second : Ordering) : Prop :=
  (second = .gt → first = .gt) ∧ (first = .lt → second = .lt)

/-- A list falls in one way into a front that has a property and a back that has not. -/
theorem append_unique {P : Slot → Prop} {front back first second : List Slot}
    (same : front ++ back = first ++ second) (inFront : ∀ slot ∈ front, P slot)
    (notBack : ∀ slot ∈ back, ¬P slot) (inFirst : ∀ slot ∈ first, P slot)
    (notSecond : ∀ slot ∈ second, ¬P slot) : front = first ∧ back = second := by
  classical
  have picked := congrArg (List.filter fun slot => decide (P slot)) same
  have keep : ∀ {slots : List Slot}, (∀ slot ∈ slots, P slot) →
      slots.filter (fun slot => decide (P slot)) = slots := fun all =>
    List.filter_eq_self.mpr fun slot member => decide_eq_true (all slot member)
  have drop : ∀ {slots : List Slot}, (∀ slot ∈ slots, ¬P slot) →
      slots.filter (fun slot => decide (P slot)) = [] := fun none =>
    List.filter_eq_nil_iff.mpr fun slot member => by simpa using none slot member
  rw [List.filter_append, List.filter_append, keep inFront, drop notBack, keep inFirst,
    drop notSecond, List.append_nil, List.append_nil] at picked
  subst picked
  exact ⟨rfl, List.append_cancel_left same⟩

variable {verdict : Slot → Ordering} {turn : Turn} {shape left right : Shape} {context : Context}
  {slot : Slot}

/-- The verdicts on the slots of a shape follow their order: first those that the probe is above,
then those that it equals, then those that it is below. -/
structure Shape.Cut (verdict : Slot → Ordering) (shape : Shape)
    (lower equal higher : List Slot) : Prop where
  slots_eq : shape.slots = lower ++ equal ++ higher
  above : ∀ slot ∈ lower, verdict slot = .gt
  level : ∀ slot ∈ equal, verdict slot = .eq
  below : ∀ slot ∈ higher, verdict slot = .lt

namespace Shape.Cut

variable {lower equal higher : List Slot}

theorem not_above (cut : shape.Cut verdict lower equal higher) :
    ∀ slot ∈ equal ++ higher, verdict slot ≠ .gt := by
  intro slot member
  rcases List.mem_append.mp member with inEqual | inHigher
  · simp [cut.level slot inEqual]
  · simp [cut.below slot inHigher]

theorem not_below (cut : shape.Cut verdict lower equal higher) :
    ∀ slot ∈ lower ++ equal, verdict slot ≠ .lt := by
  intro slot member
  rcases List.mem_append.mp member with inLower | inEqual
  · simp [cut.above slot inLower]
  · simp [cut.level slot inEqual]

/-- The verdicts follow the order of the slots. -/
theorem pairwise (cut : shape.Cut verdict lower equal higher) :
    shape.slots.Pairwise fun earlier later => Leads (verdict earlier) (verdict later) := by
  rw [cut.slots_eq, List.append_assoc, List.pairwise_append]
  refine ⟨?_, ?_, ?_⟩
  · refine List.pairwise_of_forall_mem_list fun earlier early later late => ?_
    simp [Leads, cut.above earlier early]
  · refine List.pairwise_append.mpr ⟨?_, ?_, ?_⟩
    · refine List.pairwise_of_forall_mem_list fun earlier early later late => ?_
      simp [Leads, cut.level earlier early, cut.level later late]
    · refine List.pairwise_of_forall_mem_list fun earlier early later late => ?_
      simp [Leads, cut.below later late]
    · intro earlier early later late
      simp [Leads, cut.below later late]
  · intro earlier early later late
    simp [Leads, cut.above earlier early]

theorem hole (cut : shape.Cut verdict lower equal higher)
    (descent : Descent verdict turn shape context .leaf) :
    before context ++ after context = lower ++ (equal ++ higher) := by
  rw [← List.append_assoc, ← cut.slots_eq, ← descent.fill_eq, Context.slots_fill, slots,
    List.append_nil]

/-- What a turn to the right says of a verdict holds of all verdicts before the hole. -/
theorem early {P : Ordering → Prop} (cut : shape.Cut verdict lower equal higher)
    (descent : Descent verdict turn shape context .leaf)
    (down : ∀ first second, Leads first second → P second → P first)
    (turned : ∀ compared, turn compared = some .right → P compared) :
    ∀ slot ∈ before context, P (verdict slot) := by
  have sorted := cut.pairwise
  rw [cut.slots_eq, List.append_assoc, ← cut.hole descent, List.pairwise_append] at sorted
  apply Context.forall_before sorted.1 fun _ _ leads => down _ _ leads
  intro frame member side
  exact turned _ (side ▸ descent.turned frame member)

/-- What a turn to the left says of a verdict holds of all verdicts behind the hole. -/
theorem late {P : Ordering → Prop} (cut : shape.Cut verdict lower equal higher)
    (descent : Descent verdict turn shape context .leaf)
    (up : ∀ first second, Leads first second → P first → P second)
    (turned : ∀ compared, turn compared = some .left → P compared) :
    ∀ slot ∈ after context, P (verdict slot) := by
  have sorted := cut.pairwise
  rw [cut.slots_eq, List.append_assoc, ← cut.hole descent, List.pairwise_append] at sorted
  apply Context.forall_after sorted.2.1 fun _ _ leads => up _ _ leads
  intro frame member side
  exact turned _ (side ▸ descent.turned frame member)

/-- A search for what is above the probe ends in front of it. -/
theorem after_eq (cut : shape.Cut verdict lower equal higher)
    (descent : Descent verdict .above shape context .leaf) : after context = higher := by
  have front := cut.early descent (fun _ _ leads => mt leads.2) fun _ => Turn.above_right.mp
  have back := cut.late descent (fun _ _ leads => leads.2) fun _ => Turn.above_left.mp
  have split := cut.hole descent
  rw [← List.append_assoc] at split
  exact (append_unique split front (fun slot member => not_not.mpr (back slot member))
    cut.not_below fun slot member => not_not.mpr (cut.below slot member)).2

/-- A search for what is below the probe ends behind it. -/
theorem before_eq (cut : shape.Cut verdict lower equal higher)
    (descent : Descent verdict .below shape context .leaf) : before context = lower := by
  have front := cut.early descent (fun _ _ leads => leads.1) fun _ => Turn.below_right.mp
  have back := cut.late descent (fun _ _ leads => mt leads.1) fun _ => Turn.below_left.mp
  exact (append_unique (cut.hole descent) front back cut.above cut.not_above).1

/-- An exact search that finds nothing ends between what is below the probe and what is above
it, and there is nothing else. -/
theorem missing (cut : shape.Cut verdict lower equal higher)
    (descent : Descent verdict .exact shape context .leaf) :
    equal = [] ∧ before context = lower ∧ after context = higher := by
  have front := cut.early descent (fun _ _ leads => leads.1) fun _ => Turn.exact_right.mp
  have back := cut.late descent (fun _ _ leads => leads.2) fun _ => Turn.exact_left.mp
  obtain ⟨sameFront, sameBack⟩ := append_unique (cut.hole descent) front
    (fun slot member => by simp [back slot member]) cut.above cut.not_above
  have nothing : equal = [] := by
    apply List.eq_nil_iff_forall_not_mem.mpr
    intro slot member
    have under := back slot (sameBack ▸ List.mem_append_left higher member)
    rw [cut.level slot member] at under
    contradiction
  rw [nothing, List.nil_append] at sameBack
  exact ⟨nothing, sameFront, sameBack⟩

/-- An exact search that stops has stopped among what equals the probe. -/
theorem found (cut : shape.Cut verdict lower equal higher) (nodup : shape.slots.Nodup)
    (descent : Descent verdict .exact shape context (.node left slot right)) :
    ∃ first last, equal = first ++ slot :: last ∧
      before context ++ left.slots = lower ++ first ∧
        right.slots ++ after context = last ++ higher := by
  have around := Context.slots_fill_node context left slot right
  rw [descent.fill_eq] at around
  have stopped := Tree.Graph.exact_eq_none (descent.stopped slot rfl)
  have inside : slot ∈ equal := by
    have member : slot ∈ shape.slots := by simp [around]
    rw [cut.slots_eq, List.append_assoc] at member
    rcases List.mem_append.mp member with inLower | inRest
    · have := cut.above slot inLower
      simp_all
    · rcases List.mem_append.mp inRest with inEqual | inHigher
      · exact inEqual
      · have := cut.below slot inHigher
        simp_all
  obtain ⟨first, last, rfl⟩ := List.append_of_mem inside
  -- The slot stands in one place only, so what is around it there is around it in the cut.
  have split := cut.slots_eq
  rw [around] at nodup split
  have placed : lower ++ (first ++ slot :: last) ++ higher =
      (lower ++ first) ++ slot :: (last ++ higher) := by simp
  exact ⟨first, last, rfl, split_unique nodup (split.trans placed)⟩

end Shape.Cut

namespace Tree

/-! ## What calls come back with -/

/-- The answer with what was found, or with a refusal if nothing was. -/
def foundOr (refusal : Refusal) (found : Option Bytes) : Except Refusal Bytes :=
  found.elim (.error refusal) .ok

/-- What an insertion answers, and the records afterwards, when those there are fall into the
ones below the new one, the ones equal to it and the ones above it, and the host says why it does
not back the pages for it, if it does not. -/
def insertionAmong (options : Options) (refusal : Option HostError) (record : Bytes)
    (lower equal higher : List Bytes) : Except Refusal Unit × List Bytes :=
  if record.length ≠ options.nodeSize then
    (.error (.invalidArgument .recordLength), lower ++ equal ++ higher)
  else if equal ≠ [] then
    (.error .duplicateKey, lower ++ equal ++ higher)
  else if (lower ++ higher).length = options.maxNodes then
    (.error .capacityExceeded, lower ++ higher)
  else
    match refusal with
    | some error => (.error (.host error), lower ++ higher)
    | none => (.ok (), lower ++ [record] ++ higher)

/-- Where the host refuses, an insertion leaves the records alone, whatever it answers. -/
theorem insertionAmong_some (options : Options) (error : HostError) (record : Bytes)
    (lower equal higher : List Bytes) :
    (insertionAmong options (some error) record lower equal higher).2 =
      lower ++ equal ++ higher := by
  unfold insertionAmong
  split
  · rfl
  · split
    · rfl
    next nothing =>
      rw [not_not.mp nothing, List.append_nil]
      split <;> rfl

/-- The answer of a removal and the records afterwards, when those there were fall into the ones
below the key, the ones equal to it and the ones above it: one that equals it goes, if there
is any. -/
def RemovedAmong (lower equal higher records : List Bytes) : Except Refusal Unit → Prop
  | .ok () => ∃ first record last, equal = first ++ [record] ++ last ∧
      records = lower ++ (first ++ last) ++ higher
  | .error refusal => equal = [] ∧ records = lower ++ higher ∧
      refusal = if lower ++ higher = [] then .emptyTree else .notFound

/-- What calls with a probe come back with when the records fall into the ones below it, the
ones equal to it and the ones above it. -/
structure AnswersAmong (tree : Tree) (order : KeyOrder) (probe : Bytes)
    (lower equal higher : List Bytes) : Prop where
  next : (tree.next order probe).result = .ok (foundOr .notFound higher.head?)
  prev : (tree.prev order probe).result = .ok (foundOr .notFound lower.getLast?)
  get : ∃ found, (tree.get order probe).result = .ok (foundOr .notFound found) ∧
    (tree.contains order probe).result = .ok found.isSome ∧
      (found = none ↔ equal = []) ∧ ∀ record, found = some record → record ∈ equal
  insert : ∀ journal, ∃ later,
    Tree.insert order probe ⟨tree, journal⟩ =
      .ok (insertionAmong tree.options tree.arena.ledger.commitRefusal? probe lower equal higher).1
        later ∧
    later.state.walk =
      .ok (insertionAmong tree.options tree.arena.ledger.commitRefusal? probe lower equal higher).2
  remove : ∀ journal, ∃ answer later records,
    Tree.remove order probe ⟨tree, journal⟩ = .ok answer later ∧
      later.state.walk = .ok records ∧ RemovedAmong lower equal higher records answer

namespace Graph

variable {graph : Graph} {order : KeyOrder} {probe : Bytes} {tree : Tree}

/-- A probe that cuts the records cuts the shape that they stand in. -/
theorem exists_cut {lower equal higher : List Bytes}
    (recorded : graph.records shape = lower ++ equal ++ higher)
    (cuts : order.Cuts probe lower equal higher) :
    ∃ first middle last, shape.Cut (graph.outcome order probe shape) first middle last ∧
      first.map graph.payloads = lower ∧ middle.map graph.payloads = equal ∧
        last.map graph.payloads = higher := by
  obtain ⟨front, last, split, frontEq, rfl⟩ := List.map_eq_append_iff.mp recorded
  obtain ⟨first, middle, rfl, rfl, rfl⟩ := List.map_eq_append_iff.mp frontEq
  refine ⟨first, middle, last, ⟨split, ?_, ?_, ?_⟩, rfl, rfl, rfl⟩
  · exact fun slot member => cuts.above _ _ (List.mem_map_of_mem member)
  · exact fun slot member => cuts.level _ _ (List.mem_map_of_mem member)
  · exact fun slot member => cuts.below _ _ (List.mem_map_of_mem member)

/-- The record at an end of a tree is the one at that end of its records. -/
theorem Sound.extreme_records (sound : graph.Sound shape) (looks : tree.graph = graph)
    (side : Side) :
    tree.extreme side = .ok (foundOr .emptyTree (match side with
      | .left => (graph.records shape).head?
      | .right => (graph.records shape).getLast?)) := by
  rw [sound.extreme_eq looks, records]
  cases side with
  | left =>
      rw [List.head?_map, Shape.end?]
      cases shape.slots.head? <;> rfl
  | right =>
      rw [List.getLast?_map, Shape.end?]
      cases shape.slots.getLast? <;> rfl

section Lookups

variable {lower equal higher : List Slot}

/-- A search for a key that is long enough is answered with the record in the slot to which it
came. -/
theorem recordFor_eq {visits : List Visit} {found : Option Slot} (sound : graph.Sound shape)
    (looks : tree.graph = graph) (long : graph.options.keySize ≤ probe.length)
    (inside : ∀ slot, found = some slot → slot ∈ shape.slots) :
    tree.recordFor probe ⟨visits, .ok found⟩ =
      ⟨visits, .ok (foundOr .notFound (found.map graph.payloads))⟩ := by
  have checked : tree.checkKey probe = .ok () := by
    subst looks
    exact if_neg (Nat.not_lt_of_le long)
  rw [recordFor, checked]
  cases found with
  | none => rfl
  | some slot =>
      have live := sound.spans.live slot (inside slot rfl)
      simp only [Lookup.andThen, Except.bind, fetch, payload_eq_ok sound.usable live looks]
      rfl

theorem next_eq (sound : graph.Sound shape) (looks : tree.graph = graph)
    (long : graph.options.keySize ≤ probe.length)
    (cut : shape.Cut (graph.outcome order probe shape) lower equal higher) :
    tree.next order probe = ⟨(graph.searchPath order .above probe shape).visits,
      .ok (foundOr .notFound (higher.map graph.payloads).head?)⟩ := by
  obtain ⟨context, rest, descent⟩ := exists_descent (graph.outcome order probe shape) .above shape
  obtain rfl := eq_leaf_of_onward descent fun compared => by cases compared <;> decide
  rw [next, locateAbove_eq sound descent looks, cut.after_eq descent, recordFor_eq sound looks long,
    List.head?_map]
  intro slot first
  rw [cut.slots_eq]
  exact List.mem_append_right _ (List.mem_of_head? first)

theorem prev_eq (sound : graph.Sound shape) (looks : tree.graph = graph)
    (long : graph.options.keySize ≤ probe.length)
    (cut : shape.Cut (graph.outcome order probe shape) lower equal higher) :
    tree.prev order probe = ⟨(graph.searchPath order .below probe shape).visits,
      .ok (foundOr .notFound (lower.map graph.payloads).getLast?)⟩ := by
  obtain ⟨context, rest, descent⟩ := exists_descent (graph.outcome order probe shape) .below shape
  obtain rfl := eq_leaf_of_onward descent fun compared => by cases compared <;> decide
  rw [prev, locateBelow_eq sound descent looks, cut.before_eq descent,
    recordFor_eq sound looks long, List.getLast?_map]
  intro slot last
  rw [cut.slots_eq, List.append_assoc]
  exact List.mem_append_left _ (List.mem_of_getLast? last)

/-- An exact search comes to one of the slots that equal the probe, if there is any. -/
theorem exists_located (sound : graph.Sound shape)
    (cut : shape.Cut (graph.outcome order probe shape) lower equal higher) :
    ∃ found : Option Slot, (found = none ↔ equal = []) ∧
      (∀ slot, found = some slot → slot ∈ equal) ∧
        ∀ tree : Tree, tree.graph = graph → tree.locate order probe =
          ⟨(graph.searchPath order .exact probe shape).visits, .ok found⟩ := by
  obtain ⟨context, rest, descent⟩ := exists_descent (graph.outcome order probe shape) .exact shape
  refine ⟨rest.root?, ?_, ?_, fun tree looks => locate_eq sound descent looks⟩
  · cases rest with
    | leaf => simp [Shape.root?, (cut.missing descent).1]
    | node left slot right =>
        obtain ⟨first, last, rfl, _⟩ := cut.found sound.spans.nodup descent
        simp [Shape.root?]
  · intro top here
    cases rest with
    | leaf => contradiction
    | node left slot right =>
        obtain ⟨first, last, rfl, _⟩ := cut.found sound.spans.nodup descent
        cases here
        simp

/-- A key that is long enough is contained if its search comes to a slot. -/
theorem contains_eq {visits : List Visit} {found : Option Slot} (looks : tree.graph = graph)
    (long : graph.options.keySize ≤ probe.length)
    (located : tree.locate order probe = ⟨visits, .ok found⟩) :
    tree.contains order probe = ⟨visits, .ok found.isSome⟩ := by
  have enough : ¬probe.length < tree.options.keySize := by
    subst looks
    exact Nat.not_lt_of_le long
  rw [contains, if_neg enough, located]
  rfl

/-- What equals the probe is part of the shape. -/
theorem mem_of_equal {found : Option Slot}
    (cut : shape.Cut (graph.outcome order probe shape) lower equal higher)
    (inside : ∀ slot, found = some slot → slot ∈ equal) (slot : Slot) (here : found = some slot) :
    slot ∈ shape.slots := by
  rw [cut.slots_eq]
  exact List.mem_append_left _ (List.mem_append_right _ (inside slot here))

end Lookups

section Changes

variable {lower equal higher : List Bytes} {answer : Except Refusal Unit} {after : Graph}
  {whole : Shape} {log : Journal}

/-- What equals the record to be inserted is in its way; otherwise there is one place for it. -/
theorem Inserts.among (inserts : graph.Inserts shape order probe answer after whole log)
    (sound : graph.Sound shape) (recorded : graph.records shape = lower ++ equal ++ higher)
    (cuts : order.Cuts probe lower equal higher) :
    insertionAmong graph.options graph.ledger.commitRefusal? probe lower equal higher =
      (answer, after.records whole) := by
  have counted : graph.count = (lower ++ equal ++ higher).length := by
    rw [← recorded, sound.length_records]
  obtain ⟨first, middle, last, cut, rfl, rfl, rfl⟩ := exists_cut recorded cuts
  unfold insertionAmong
  cases inserts with
  | length wrong => rw [if_pos wrong, recorded]
  | duplicate length descent =>
      obtain ⟨front, back, rfl, _⟩ := cut.found sound.spans.nodup descent
      rw [if_neg (not_not.mpr length), if_pos (by simp), recorded]
  | full length descent full =>
      obtain ⟨rfl, _⟩ := cut.missing descent
      rw [List.map_nil, List.append_nil] at counted recorded
      rw [List.map_nil, if_neg (not_not.mpr length), if_neg (not_not.mpr rfl),
        if_pos (counted.symm.trans full), recorded]
  | refused length descent room refused =>
      obtain ⟨rfl, _⟩ := cut.missing descent
      rw [List.map_nil, List.append_nil] at counted recorded
      rw [List.map_nil, if_neg (not_not.mpr length), if_neg (not_not.mpr rfl),
        if_neg (counted ▸ room), refused, records_commit, recorded]
  | inserted length descent room granted inserted =>
      obtain ⟨rfl, rfl, rfl⟩ := cut.missing descent
      rw [List.map_nil, List.append_nil] at counted
      rw [List.map_nil, if_neg (not_not.mpr length), if_neg (not_not.mpr rfl),
        if_neg (counted ▸ room), granted, inserted.records_eq, List.append_assoc,
        List.singleton_append]

/-- One of the records that equal the key goes, if there is any. -/
theorem Removes.among (removes : graph.Removes shape order probe answer after whole log)
    (sound : graph.Sound shape) (long : graph.options.keySize ≤ probe.length)
    (recorded : graph.records shape = lower ++ equal ++ higher)
    (cuts : order.Cuts probe lower equal higher) :
    RemovedAmong lower equal higher (after.records whole) answer := by
  have counted : graph.count = (lower ++ equal ++ higher).length := by
    rw [← recorded, sound.length_records]
  obtain ⟨first, middle, last, cut, rfl, rfl, rfl⟩ := exists_cut recorded cuts
  cases removes with
  | short short => exact absurd long (Nat.not_le_of_lt short)
  | empty _ empty =>
      have nothing := List.length_eq_zero_iff.mp (counted.symm.trans empty)
      rw [List.append_eq_nil_iff, List.append_eq_nil_iff] at nothing
      obtain ⟨⟨noLower, noEqual⟩, noHigher⟩ := nothing
      rw [noLower, noEqual, noHigher] at recorded ⊢
      exact ⟨rfl, recorded, rfl⟩
  | missing _ used descent =>
      obtain ⟨rfl, _⟩ := cut.missing descent
      rw [List.map_nil, List.append_nil] at counted recorded
      have stored : first.map graph.payloads ++ last.map graph.payloads ≠ [] := fun nothing =>
        used (counted.trans (List.length_eq_zero_iff.mpr nothing))
      exact ⟨rfl, recorded, (if_neg stored).symm⟩
  | @removed context _ left right _ whole slot _ _ _ after _ _ _ descent prepared removed =>
      obtain ⟨front, back, rfl, onLeft, onRight⟩ := cut.found sound.spans.nodup descent
      refine ⟨front.map graph.payloads, graph.payloads slot, back.map graph.payloads, by simp, ?_⟩
      rw [removed.records_eq prepared, onLeft, onRight]
      simp

end Changes

end Graph

/-- Whatever led to a tree, if the outcomes for a probe follow its records, all calls with the
probe come back with what lies at the edges between those below it, those equal to it and
those above it, and change the records there only. -/
theorem answersAmong_of_reachable {tree : Tree} {order : KeyOrder} {probe : Bytes}
    {lower equal higher : List Bytes} (reachable : Reachable tree)
    (walked : tree.walk = .ok (lower ++ equal ++ higher))
    (cuts : order.Cuts probe lower equal higher) (long : tree.options.keySize ≤ probe.length) :
    AnswersAmong tree order probe lower equal higher := by
  obtain ⟨shape, sound⟩ := reachable.sound
  have recorded : tree.graph.records shape = lower ++ equal ++ higher :=
    Except.ok.inj ((sound.walk_eq rfl).symm.trans walked)
  obtain ⟨first, middle, last, cut, sameFirst, sameMiddle, sameLast⟩ :=
    Graph.exists_cut recorded cuts
  refine ⟨?_, ?_, ?_, ?_, ?_⟩
  · rw [Graph.next_eq sound rfl long cut, sameLast]
  · rw [Graph.prev_eq sound rfl long cut, sameFirst]
  · obtain ⟨found, nothing, inside, located⟩ := Graph.exists_located sound cut
    refine ⟨found.map tree.graph.payloads, ?_, ?_, ?_, ?_⟩
    · rw [get, located tree rfl, Graph.recordFor_eq sound rfl long (Graph.mem_of_equal cut inside)]
    · rw [Graph.contains_eq rfl long (located tree rfl), Option.isSome_map]
    · rw [Option.map_eq_none_iff, nothing, ← sameMiddle, List.map_eq_nil_iff]
    · intro record here
      obtain ⟨slot, reached, rfl⟩ := Option.map_eq_some_iff.mp here
      exact sameMiddle ▸ List.mem_map_of_mem (inside slot reached)
  · intro journal
    obtain ⟨answer, after, whole, log, yields, inserts⟩ := sound.exists_inserts order probe
    obtain ⟨final, ran, looks⟩ := yields tree journal rfl
    have among := inserts.among sound recorded cuts
    have numbers : tree.graph.ledger = tree.arena.ledger := rfl
    have sameOptions : tree.graph.options = tree.options := rfl
    rw [numbers, sameOptions] at among
    rw [among]
    exact ⟨_, ran, (inserts.sound sound).walk_eq looks⟩
  · intro journal
    obtain ⟨answer, after, whole, log, yields, removes⟩ := sound.exists_removes order probe
    obtain ⟨final, ran, looks⟩ := yields tree journal rfl
    exact ⟨answer, _, _, ran, (removes.sound sound).walk_eq looks,
      removes.among sound long recorded cuts⟩

/-- Two of four records begin with the probe, under an order that reads no further. -/
theorem answersAmong_of_reachable_leading :
    ∃ later,
      grown? { maxNodes := 8, nodeSize := 2, keySize := 1 } Host.plain .whole
          [[5, 1], [7, 1], [7, 2], [9, 0]] = some later ∧
        later.state.walk = .ok ([[5, 1]] ++ [[7, 1], [7, 2]] ++ [[9, 0]]) ∧
          (KeyOrder.leading 1).Cuts [7] [[5, 1]] [[7, 1], [7, 2]] [[9, 0]] ∧
            later.state.options.keySize ≤ [7].length ∧
              AnswersAmong later.state (.leading 1) [7] [[5, 1]] [[7, 1], [7, 2]] [[9, 0]] := by
  have run :
      (grown? { maxNodes := 8, nodeSize := 2, keySize := 1 } Host.plain .whole
          [[5, 1], [7, 1], [7, 2], [9, 0]]).any (fun later =>
        decide (later.state.walk = .ok ([[5, 1]] ++ [[7, 1], [7, 2]] ++ [[9, 0]]) ∧
          later.state.options.keySize ≤ [7].length)) = true := by
    decide +kernel
  obtain ⟨later, grown, told⟩ := (Option.any_eq_true _ _).mp run
  obtain ⟨walked, long⟩ := of_decide_eq_true told
  have cuts : (KeyOrder.leading 1).Cuts [7] [[5, 1]] [[7, 1], [7, 2]] [[9, 0]] := by
    constructor
    · intro asked record member
      obtain rfl := List.mem_singleton.mp member
      rfl
    · intro asked record member
      rcases List.mem_pair.mp member with rfl | rfl <;> rfl
    · intro asked record member
      obtain rfl := List.mem_singleton.mp member
      rfl
  exact ⟨later, grown, walked, cuts, long,
    answersAmong_of_reachable (.of_grown grown) walked cuts long⟩

end Tree

end SlabTree
