import SlabTree.Proofs.Tree.Probing
import SlabTree.Proofs.Tree.Refinement

/-!
# Ways through the records

There are three ways through the records of a tree: reading the shape recursively, moving a
cursor along the links, and asking for one neighbour after the other by comparisons.  The first
two agree on every reachable tree.  The third needs the order that the tree was made under, and
that it compares keys: then each record cuts the others into those before and those behind it.
-/

namespace SlabTree

universe u

namespace Tree

/-- The trees that insertions and removals lead to when all of them compare by one order. -/
inductive ReachableUnder (order : KeyOrder) : Tree → Prop
  | create {options : Options} {host : Host} {made : Session Tree}
      (created : Tree.create options host = .ok made) : ReachableUnder order made.state
  | insert {tree : Tree} {record : Bytes} {journal : Journal} {answer : Except Refusal Unit}
      {later : Session Tree} (reachable : ReachableUnder order tree)
      (ran : Tree.insert order record ⟨tree, journal⟩ = .ok answer later) :
      ReachableUnder order later.state
  | remove {tree : Tree} {key : Bytes} {journal : Journal} {answer : Except Refusal Unit}
      {later : Session Tree} (reachable : ReachableUnder order tree)
      (ran : Tree.remove order key ⟨tree, journal⟩ = .ok answer later) :
      ReachableUnder order later.state

variable {tree : Tree} {order : KeyOrder}

theorem ReachableUnder.of_grown {options : Options} {host : Host} {records : List Bytes}
    {later : Session Tree} (grown : grown? options host order records = some later) :
    ReachableUnder order later.state :=
  Tree.of_grown .create .insert grown

/-! ## Records as catalogues -/

section Catalogues

variable {κ : Type u} [LinearOrder κ] {key : Bytes → κ}

variable {options : Options} {catalogue : Catalogue key options} {shape : Shape}
  {journal : Journal} {answer : Except Refusal Unit} {later : Session Tree}

/-- The run of a change leaves a tree that holds a catalogue again. -/
theorem exists_holds_of_changes {action : Action Tree (Except Refusal Unit)}
    {change : Except Refusal (Catalogue key options)}
    (changes : Graph.Holds.Changes action tree.graph catalogue change)
    (ran : action ⟨tree, journal⟩ = .ok answer later) :
    ∃ whole, later.state.graph.Holds whole (catalogue.changed change).2 := by
  obtain ⟨_, after, _, whole, yields, _, holds, _⟩ := changes
  obtain ⟨_, looks, _⟩ := final_of_yields yields rfl ran
  exact ⟨whole, looks ▸ holds⟩

/-- So does the run of an insertion, whether the host backs the pages for it or not. -/
theorem exists_holds_of_insert {record : Bytes} (holds : tree.graph.Holds shape catalogue)
    (byKey : order.By key) (ran : Tree.insert order record ⟨tree, journal⟩ = .ok answer later) :
    ∃ whole, ∃ changed : Catalogue key options, later.state.graph.Holds whole changed := by
  cases told : tree.graph.ledger.commitRefusal? with
  | none =>
      obtain ⟨whole, still⟩ := exists_holds_of_changes (holds.insert_changes byKey told) ran
      exact ⟨whole, _, still⟩
  | some error =>
      obtain ⟨_, _, whole, _, yields, inserts⟩ := holds.sound.exists_inserts order record
      obtain ⟨_, looks, _⟩ := final_of_yields yields rfl ran
      exact ⟨whole, catalogue, looks ▸ holds.holds_of_refused byKey told inserts⟩

/-- Under an order by a key the records of a tree are those of a catalogue, and keys are no
longer than records. -/
theorem ReachableUnder.holds (reachable : ReachableUnder order tree) (byKey : order.By key) :
    ∃ options : Options, options.keySize ≤ options.nodeSize ∧
      ∃ shape, ∃ catalogue : Catalogue key options, tree.graph.Holds shape catalogue := by
  induction reachable with
  | create created =>
      obtain ⟨sound, sameOptions⟩ := create_sound created
      obtain ⟨_, _, _, short⟩ := Options.validate_eq_ok_iff.mp (validate_of_create created)
      exact ⟨_, short, .leaf, Catalogue.empty key _, sound, sameOptions, rfl⟩
  | insert _ ran inductionHypothesis =>
      obtain ⟨options, short, shape, catalogue, holds⟩ := inductionHypothesis
      exact ⟨options, short, exists_holds_of_insert holds byKey ran⟩
  | remove _ ran inductionHypothesis =>
      obtain ⟨options, short, shape, catalogue, holds⟩ := inductionHypothesis
      obtain ⟨whole, still⟩ := exists_holds_of_changes (holds.remove_changes byKey) ran
      exact ⟨options, short, whole, _, still⟩

/-- A record of a catalogue cuts the others into those before and those behind it. -/
theorem cuts_of_split {options : Options} {catalogue : Catalogue key options}
    {earlier later : List Bytes} {record : Bytes} (byKey : order.By key)
    (split : catalogue.records = earlier ++ [record] ++ later) :
    order.Cuts record earlier [record] later := by
  have sorted := catalogue.sorted
  rw [split, List.append_assoc, List.pairwise_append, List.singleton_append,
    List.pairwise_cons] at sorted
  obtain ⟨_, ⟨higher, _⟩, lower⟩ := sorted
  constructor
  · exact fun asked other member =>
      byKey.gt_iff.mpr (lower other member record List.mem_cons_self)
  · intro asked other member
    rw [List.mem_singleton.mp member]
    exact byKey.eq_iff.mpr rfl
  · exact fun asked other member => byKey.lt_iff.mpr (higher other member)

end Catalogues

/-! ## Moves of a cursor -/

/-- The size hint before a move through these records that comes behind `k` others, and its
answer: as many are still to come as are left, and behind the last there is none. -/
def moveThrough (records : List Bytes) (k : Nat) : (Nat × Nat) × Option Bytes :=
  ((min 1 (records.length - k), records.length - k), records[k]?)

/-- From a slot on, a cursor moves through the records from there on. -/
theorem Graph.Sound.moves_eq {graph : Graph} {shape : Shape} (sound : graph.Sound shape)
    (looks : tree.graph = graph) (n : Nat) {earlier later : List Slot}
    (split : shape.slots = earlier ++ later) :
    Cursor.moves tree n ⟨later.head?, later.length⟩ =
      .ok ((List.range n).map (moveThrough (later.map graph.payloads))) := by
  induction n generalizing earlier later with
  | zero => rfl
  | succ n inductionHypothesis =>
      rw [List.range_succ_eq_map, List.map_cons, List.map_map]
      cases later with
      | nil =>
          -- Behind the last record a move leaves the cursor where it is.
          have still := inductionHypothesis split
          simp only [List.head?_nil, List.length_nil] at still
          simp only [List.head?_nil, List.length_nil, Cursor.moves, Cursor.advance, still,
            Bind.bind, Except.bind]
          congr 2
          simp [moveThrough]
      | cons slot later =>
          have live : slot < graph.live := sound.spans.live slot (by simp [split])
          have onward := @inductionHypothesis (earlier ++ [slot]) later (by simp [split])
          simp only [List.head?_cons, List.length_cons, Cursor.moves, Cursor.advance,
            sound.successor_eq looks split, Graph.payload_eq_ok sound.usable live looks, onward,
            Bind.bind, Except.bind]
          congr 2
          · simp [moveThrough, Cursor.sizeHint]
          · simp [moveThrough]

/-! ## Neighbour after neighbour -/

/-- From an answer on, a step leads from each record to the next one of a list, and ends behind
the last one with a refusal. -/
inductive StepsThrough (step : Bytes → Except Fault (Except Refusal Bytes)) :
    Except Fault (Except Refusal Bytes) → List Bytes → Refusal → Prop
  | ends {refusal : Refusal} : StepsThrough step (.ok (.error refusal)) [] refusal
  | onward {record : Bytes} {rest : List Bytes} {refusal : Refusal}
      (steps : StepsThrough step (step record) rest refusal) :
      StepsThrough step (.ok (.ok record)) (record :: rest) refusal

/-- The refusal with which a walk from neighbour to neighbour through these records ends. -/
def lastRefusal (records : List Bytes) : Refusal :=
  if records = [] then .emptyTree else .notFound

/-- Where each record of a list leads to the one behind it, steps go through the list. -/
theorem stepsThrough_of_head? {step : Bytes → Except Fault (Except Refusal Bytes)}
    {answer : Except Fault (Except Refusal Bytes)} {records : List Bytes}
    (starts : answer = .ok (foundOr .emptyTree records.head?))
    (leads : ∀ earlier record later, records = earlier ++ [record] ++ later →
      step record = .ok (foundOr .notFound later.head?)) :
    StepsThrough step answer records (lastRefusal records) := by
  have onward : ∀ later earlier, earlier ++ later = records →
      StepsThrough step (.ok (foundOr .notFound later.head?)) later .notFound := by
    intro later
    induction later with
    | nil => exact fun _ _ => .ends
    | cons record rest inductionHypothesis =>
        intro earlier split
        have regrouped : earlier ++ [record] ++ rest = records := by simpa using split
        refine .onward ?_
        rw [leads earlier record rest regrouped.symm]
        exact inductionHypothesis _ regrouped
  subst starts
  cases records with
  | nil => exact .ends
  | cons record rest => exact onward (record :: rest) [] rfl

theorem lastRefusal_reverse (records : List Bytes) :
    lastRefusal records.reverse = lastRefusal records := by
  cases records <;> simp [lastRefusal]

namespace Graph

variable {shape : Shape}

/-- Records are as long as the options say. -/
theorem Sound.length_of_mem {record : Bytes} (sound : tree.graph.Sound shape)
    (member : record ∈ tree.graph.records shape) : record.length = tree.graph.options.nodeSize := by
  obtain ⟨slot, _, rfl⟩ := List.mem_map.mp member
  calc
    (tree.graph.payloads slot).length = tree.graph.ledger.elementSize - Header.size :=
      Arena.View.length_slice _ _ _ _
    _ = tree.graph.options.nodeSize := by
      rw [sound.usable.elementSize_eq, Nat.add_sub_cancel_left]

section Neighbours

variable {κ : Type u} [LinearOrder κ] {key : Bytes → κ} {options : Options}
  {catalogue : Catalogue key options} {earlier later : List Bytes} {record : Bytes}

/-- Asking a tree for the neighbours of a record comes to the records next to it. -/
theorem Holds.neighbours_eq (holds : tree.graph.Holds shape catalogue) (byKey : order.By key)
    (short : options.keySize ≤ options.nodeSize)
    (split : catalogue.records = earlier ++ [record] ++ later) :
    (tree.next order record).result = .ok (foundOr .notFound later.head?) ∧
      (tree.prev order record).result = .ok (foundOr .notFound earlier.getLast?) := by
  have recorded := holds.records_eq.trans split
  have long : tree.graph.options.keySize ≤ record.length := by
    rw [holds.sound.length_of_mem (recorded ▸ by simp), holds.options_eq]
    exact short
  obtain ⟨first, middle, last, cut, rfl, _, rfl⟩ :=
    Graph.exists_cut recorded (cuts_of_split byKey split)
  exact ⟨congrArg Lookup.result (next_eq holds.sound rfl long cut),
    congrArg Lookup.result (prev_eq holds.sound rfl long cut)⟩

end Neighbours

end Graph

/-- A cursor through a reachable tree yields the records that the recursive walk reads, and
always says how many are still to come.  If the tree was made under an order by a key, neighbour
after neighbour comes to the same records, from either end. -/
theorem traversals_of_reachable (reachable : Reachable tree) :
    ∃ records cursor, tree.walk = .ok records ∧ records.length = tree.count ∧
      tree.cursor = .ok cursor ∧
        (∀ n, cursor.moves tree n = .ok ((List.range n).map (moveThrough records))) ∧
          ∀ {κ : Type u} [LinearOrder κ] (key : Bytes → κ) (order : KeyOrder), order.By key →
            ReachableUnder order tree →
              StepsThrough (fun record => (tree.next order record).result) tree.first records
                  (lastRefusal records) ∧
                StepsThrough (fun record => (tree.prev order record).result) tree.last
                  records.reverse (lastRefusal records) := by
  obtain ⟨shape, sound⟩ := reachable.sound
  refine ⟨_, _, sound.walk_eq rfl, sound.length_records, sound.cursor_eq rfl,
    fun n => sound.moves_eq rfl n (List.nil_append _).symm, ?_⟩
  intro κ _ key order byKey under
  obtain ⟨options, short, same, catalogue, holds⟩ := under.holds byKey
  have recorded : tree.graph.records shape = catalogue.records := by
    rw [← holds.records_eq]
    exact Except.ok.inj ((sound.walk_eq rfl).symm.trans (holds.sound.walk_eq rfl))
  constructor
  · apply stepsThrough_of_head? (sound.extreme_records rfl .left)
    intro earlier record later split
    exact (holds.neighbours_eq byKey short (recorded.symm.trans split)).1
  · rw [← lastRefusal_reverse]
    apply stepsThrough_of_head?
    · rw [List.head?_reverse]
      exact sound.extreme_records rfl .right
    · intro earlier record later split
      have forward : catalogue.records = later.reverse ++ [record] ++ earlier.reverse := by
        rw [← recorded, ← List.reverse_reverse (tree.graph.records shape), split]
        simp
      rw [(holds.neighbours_eq byKey short forward).2, List.getLast?_reverse]

/-- All ways through a tree of three records that came in the order in which they needed a double
rotation. -/
theorem traversals_of_reachable_zigzag :
    ∃ later cursor,
      grown? { maxNodes := 4, nodeSize := 2, keySize := 1 } Host.plain (.leading 1)
          [[1, 0], [3, 0], [2, 0]] = some later ∧
        later.state.walk = .ok [[1, 0], [2, 0], [3, 0]] ∧ later.state.cursor = .ok cursor ∧
          cursor.moves later.state 4 =
            .ok [((1, 3), some [1, 0]), ((1, 2), some [2, 0]), ((1, 1), some [3, 0]),
              ((0, 0), none)] ∧
            StepsThrough (fun record => (later.state.next (.leading 1) record).result)
                later.state.first [[1, 0], [2, 0], [3, 0]] .notFound ∧
              StepsThrough (fun record => (later.state.prev (.leading 1) record).result)
                later.state.last [[3, 0], [2, 0], [1, 0]] .notFound := by
  have run :
      (grown? { maxNodes := 4, nodeSize := 2, keySize := 1 } Host.plain (.leading 1)
          [[1, 0], [3, 0], [2, 0]]).any (fun later =>
        decide (later.state.walk = .ok [[1, 0], [2, 0], [3, 0]])) = true := by
    decide +kernel
  obtain ⟨later, grown, told⟩ := (Option.any_eq_true _ _).mp run
  have walked := of_decide_eq_true told
  obtain ⟨records, cursor, read, _, placed, moves, neighbours⟩ :=
    traversals_of_reachable (.of_grown grown)
  obtain rfl := Except.ok.inj (walked.symm.trans read)
  exact ⟨later, cursor, grown, walked, placed, moves 4,
    neighbours _ _ (KeyOrder.leading_by 1) (.of_grown grown)⟩

end Tree

end SlabTree
