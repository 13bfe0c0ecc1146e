import SlabTree.Proofs.KeyOrder
import SlabTree.Proofs.Tree.Catalogue
import SlabTree.Proofs.Tree.Probing

/-!
# Trees answer as catalogues do

Under an order by a key, the records of a tree are a catalogue, and every probe cuts its list
into the records below it, the one that equals it and those above it.  So each call answers
what the catalogue answers, and leaves a tree whose records are the catalogue's again.  A
catalogue needs no memory, so for this the host backs every page.
-/

namespace SlabTree

universe u

namespace Catalogue

variable {κ : Type u} [LinearOrder κ] {key : Bytes → κ} {options : Options} {order : KeyOrder}
  {records : List Bytes} {answer : Except Refusal Unit}

/-- Under an order by its key every probe cuts a catalogue. -/
theorem cuts (catalogue : Catalogue key options) (byKey : order.By key) (probe : Bytes) :
    order.Cuts probe (catalogue.below probe) (catalogue.equal? probe).toList
      (catalogue.above probe) where
  above := fun _ _ member => byKey.gt_iff.mpr (lt_of_mem_below member)
  level := fun _ _ member => byKey.eq_iff.mpr (eq_of_equal? (Option.mem_toList.mp member)).symm
  below := fun _ _ member => byKey.lt_iff.mpr (lt_of_mem_above member)

/-- An insertion among the parts around a record, for which the host backs the pages, is one into
the catalogue. -/
theorem changed_insert (catalogue : Catalogue key options) {record : Bytes}
    (among : Tree.insertionAmong options none record (catalogue.below record)
      (catalogue.equal? record).toList (catalogue.above record) = (answer, records)) :
    (catalogue.changed (catalogue.insert record)).1 = .change answer ∧
      (catalogue.changed (catalogue.insert record)).2.records = records := by
  have around := catalogue.records_around record
  have few := catalogue.bounded
  unfold Tree.insertionAmong at among
  rw [← around] at among
  rw [insert]
  by_cases length : record.length = options.nodeSize
  · rw [if_neg (not_not.mpr length)] at among ⊢
    cases found : catalogue.equal? record with
    | some equal =>
        rw [found, if_pos (by simp)] at among
        cases among
        exact ⟨rfl, rfl⟩
    | none =>
        rw [found, Option.toList_none, List.append_nil] at around
        rw [found, Option.toList_none, if_neg (not_not.mpr rfl), ← around] at among
        rw [if_neg (by simp)]
        by_cases full : catalogue.records.length = options.maxNodes
        · rw [if_pos full] at among
          rw [dif_neg (Nat.not_lt_of_le full.ge)]
          cases among
          exact ⟨rfl, rfl⟩
        · rw [if_neg full] at among
          rw [dif_pos (Nat.lt_of_le_of_ne few full)]
          cases among
          exact ⟨rfl, by simp [changed, add]⟩
  · rw [if_pos length] at among ⊢
    cases among
    exact ⟨rfl, rfl⟩

/-- A removal among the parts around a probe is one from the catalogue. -/
theorem changed_remove (catalogue : Catalogue key options) {probe : Bytes}
    (long : options.keySize ≤ probe.length)
    (among : Tree.RemovedAmong (catalogue.below probe) (catalogue.equal? probe).toList
      (catalogue.above probe) records answer) :
    (catalogue.changed (catalogue.remove probe)).1 = .change answer ∧
      (catalogue.changed (catalogue.remove probe)).2.records = records := by
  have around := catalogue.records_around probe
  rw [remove, if_neg (Nat.not_lt_of_le long)]
  cases answer with
  | error refusal =>
      obtain ⟨nothing, rfl, rfl⟩ := among
      rw [nothing, List.append_nil] at around
      rw [← around, Option.toList_eq_nil_iff.mp nothing]
      by_cases empty : catalogue.records = []
      · rw [if_pos empty, if_pos (List.isEmpty_iff.mpr empty)]
        exact ⟨rfl, rfl⟩
      · rw [if_neg empty, if_neg (mt List.isEmpty_iff.mp empty)]
        exact ⟨rfl, rfl⟩
  | ok =>
      obtain ⟨first, record, last, equal, rfl⟩ := among
      cases found : catalogue.equal? probe with
      | none => simp [found] at equal
      | some other =>
          have alone : first = [] ∧ last = [] := by
            rw [found] at equal
            have lengths := congrArg List.length equal
            simp only [Option.toList_some, List.length_append, List.length_singleton] at lengths
            exact ⟨List.length_eq_zero_iff.mp (by omega), List.length_eq_zero_iff.mp (by omega)⟩
          obtain ⟨rfl, rfl⟩ := alone
          have used : ¬catalogue.records.isEmpty := by
            rw [around, found]
            simp
          rw [if_neg used, if_neg (by simp)]
          refine ⟨rfl, ?_⟩
          rw [List.append_nil, List.append_nil]
          exact catalogue.records_without probe

end Catalogue

namespace Tree

/-! ## Requests to a tree -/

/-- Makes the call that is requested. -/
def serve (order : KeyOrder) : Request → Action Tree Reply
  | .insert record => do pure (.change (← insert order record))
  | .remove probe => do pure (.change (← remove order probe))
  | .get probe => do pure (.record (← consult (·.get order probe)))
  | .contains probe => do pure (.stored (← consult (·.contains order probe)))
  | .first => do pure (.record (← Action.read (·.first)))
  | .last => do pure (.record (← Action.read (·.last)))
  | .next probe => do pure (.record (← consult (·.next order probe)))
  | .prev probe => do pure (.record (← consult (·.prev order probe)))
  | .records => do pure (.records (← Action.read (·.records)))
  | .count => do pure (.count (← Action.view (·.count)))

/-- Makes one call after the other. -/
def serveAll (order : KeyOrder) : List Request → Action Tree (List Reply)
  | [] => pure []
  | request :: rest => do
      let reply ← serve order request
      let replies ← serveAll order rest
      pure (reply :: replies)

namespace Graph

variable {κ : Type u} [LinearOrder κ] {key : Bytes → κ} {options : Options}
  {catalogue : Catalogue key options} {graph : Graph} {shape left right rest : Shape}
  {context : Context} {slot : Slot} {order : KeyOrder} {probe record : Bytes}

/-- The records of a sound tree are those of a catalogue. -/
structure Holds (graph : Graph) (shape : Shape) (catalogue : Catalogue key options) : Prop where
  sound : graph.Sound shape
  options_eq : graph.options = options
  records_eq : graph.records shape = catalogue.records

namespace Holds

theorem count_eq (holds : graph.Holds shape catalogue) :
    graph.count = catalogue.records.length := by
  rw [← holds.records_eq, holds.sound.length_records]

/-- A probe cuts the shape as it cuts the catalogue. -/
theorem exists_cut (holds : graph.Holds shape catalogue) (byKey : order.By key) (probe : Bytes) :
    ∃ lower equal higher, shape.Cut (graph.outcome order probe shape) lower equal higher ∧
      lower.map graph.payloads = catalogue.below probe ∧
        equal.map graph.payloads = (catalogue.equal? probe).toList ∧
          higher.map graph.payloads = catalogue.above probe :=
  Graph.exists_cut (holds.records_eq.trans (catalogue.records_around probe))
    (catalogue.cuts byKey probe)

/-- An exact search comes to the record that equals the probe. -/
theorem exists_located (holds : graph.Holds shape catalogue) (byKey : order.By key)
    (probe : Bytes) :
    ∃ found : Option Slot, found.map graph.payloads = catalogue.equal? probe ∧
      (∀ slot, found = some slot → slot ∈ shape.slots) ∧
        ∀ tree : Tree, tree.graph = graph → tree.locate order probe =
          ⟨(graph.searchPath order .exact probe shape).visits, .ok found⟩ := by
  obtain ⟨lower, equal, higher, cut, _, same, _⟩ := holds.exists_cut byKey probe
  obtain ⟨found, nothing, inside, located⟩ := Graph.exists_located holds.sound cut
  refine ⟨found, ?_, mem_of_equal cut inside, located⟩
  cases found with
  | none =>
      rw [nothing.mp rfl, List.map_nil] at same
      exact (Option.toList_eq_nil_iff.mp same.symm).symm
  | some slot =>
      have member := List.mem_map_of_mem (f := graph.payloads) (inside slot rfl)
      rw [same] at member
      exact (Option.mem_toList.mp member).symm

/-! ## Lookups -/

/-- A lookup by key answers as a catalogue does when its search comes to what the catalogue
comes to. -/
theorem yields_recordFor {locate : Tree → Lookup (Option Slot)} {visits : List Visit}
    {answer : Option Bytes} (holds : graph.Holds shape catalogue)
    (told : graph.options.keySize ≤ probe.length → ∀ tree : Tree, tree.graph = graph →
      tree.recordFor probe (locate tree) = ⟨visits, .ok (foundOr .notFound answer)⟩) :
    ∃ log, Action.Yields Tree.graph (consult fun tree => tree.recordFor probe (locate tree))
      graph (Catalogue.answerFor options probe answer) graph log := by
  rw [Catalogue.answerFor, ← holds.options_eq]
  by_cases short : probe.length < graph.options.keySize
  · have refused : ∀ tree : Tree, tree.graph = graph → tree.recordFor probe (locate tree) =
        ⟨[], .ok (.error (.invalidArgument .shortKey))⟩ := by
      rintro tree rfl
      have checked : tree.checkKey probe = .error (.invalidArgument .shortKey) := if_pos short
      rw [recordFor, checked]
      rfl
    rw [if_pos short]
    exact ⟨_, yields_consult refused⟩
  · rw [if_neg short]
    exact ⟨_, yields_consult (told (Nat.le_of_not_lt short))⟩

theorem yields_get (holds : graph.Holds shape catalogue) (byKey : order.By key) :
    ∃ log, Action.Yields Tree.graph (consult (·.get order probe)) graph
      (Catalogue.answerFor options probe (catalogue.equal? probe)) graph log := by
  obtain ⟨found, same, inside, located⟩ := holds.exists_located byKey probe
  rw [← same]
  exact holds.yields_recordFor fun long tree looks =>
    (congrArg (tree.recordFor probe) (located tree looks)).trans
      (recordFor_eq holds.sound looks long inside)

theorem yields_contains (holds : graph.Holds shape catalogue) (byKey : order.By key) :
    ∃ log, Action.Yields Tree.graph (consult (·.contains order probe)) graph
      (decide (options.keySize ≤ probe.length ∧ (catalogue.equal? probe).isSome)) graph log := by
  obtain ⟨found, same, _, located⟩ := holds.exists_located byKey probe
  rw [← same, Option.isSome_map, ← holds.options_eq]
  by_cases short : probe.length < graph.options.keySize
  · have told : ∀ tree : Tree, tree.graph = graph →
        tree.contains order probe = ⟨[], .ok false⟩ := by
      rintro tree rfl
      exact if_pos short
    rw [decide_eq_false fun both => Nat.not_le_of_lt short both.1]
    exact ⟨_, yields_consult told⟩
  · have long := Nat.le_of_not_lt short
    have answer : decide (graph.options.keySize ≤ probe.length ∧ found.isSome) = found.isSome := by
      simp [long]
    rw [answer]
    exact ⟨_, yields_consult fun tree looks => contains_eq looks long (located tree looks)⟩

theorem yields_next (holds : graph.Holds shape catalogue) (byKey : order.By key) :
    ∃ log, Action.Yields Tree.graph (consult (·.next order probe)) graph
      (Catalogue.answerFor options probe (catalogue.above probe).head?) graph log := by
  obtain ⟨_, _, higher, cut, _, _, same⟩ := holds.exists_cut byKey probe
  rw [← same]
  exact holds.yields_recordFor fun long tree looks => next_eq holds.sound looks long cut

theorem yields_prev (holds : graph.Holds shape catalogue) (byKey : order.By key) :
    ∃ log, Action.Yields Tree.graph (consult (·.prev order probe)) graph
      (Catalogue.answerFor options probe (catalogue.below probe).getLast?) graph log := by
  obtain ⟨lower, _, _, cut, same, _, _⟩ := holds.exists_cut byKey probe
  rw [← same]
  exact holds.yields_recordFor fun long tree looks => prev_eq holds.sound looks long cut

theorem yields_extreme (holds : graph.Holds shape catalogue) (side : Side) :
    Action.Yields Tree.graph (Action.read (·.extreme side)) graph
      (Catalogue.answerAt (match side with
        | .left => catalogue.records.head?
        | .right => catalogue.records.getLast?)) graph {} := by
  apply Action.yields_read
  intro tree looks
  rw [holds.sound.extreme_records looks, holds.records_eq]
  rfl

/-! ## Changes -/

/-- A change to the tree comes out as the change to the catalogue, and the host stays. -/
def Changes (action : Action Tree (Except Refusal Unit)) (graph : Graph)
    (catalogue : Catalogue key options) (change : Except Refusal (Catalogue key options)) : Prop :=
  ∃ answer after log whole, Action.Yields Tree.graph action graph answer after log ∧
    (catalogue.changed change).1 = .change answer ∧
      after.Holds whole (catalogue.changed change).2 ∧ after.ledger.host = graph.ledger.host

theorem insert_changes (holds : graph.Holds shape catalogue) (byKey : order.By key)
    (granted : graph.ledger.commitRefusal? = none) :
    Changes (insert order record) graph catalogue (catalogue.insert record) := by
  have sameOptions := holds.options_eq
  subst sameOptions
  obtain ⟨answer, after, whole, log, yields, inserts⟩ := holds.sound.exists_inserts order record
  have among := inserts.among holds.sound
    (holds.records_eq.trans (catalogue.records_around record)) (catalogue.cuts byKey record)
  rw [granted] at among
  obtain ⟨reply, records⟩ := catalogue.changed_insert among
  exact ⟨answer, after, log, whole, yields, reply,
    ⟨inserts.sound holds.sound, inserts.options_eq, records.symm⟩, inserts.host_eq⟩

/-- An insertion for which the host does not back the pages leaves the records alone. -/
theorem holds_of_refused {answer : Except Refusal Unit} {after : Graph} {whole : Shape}
    {log : Journal} {error : HostError} (holds : graph.Holds shape catalogue)
    (byKey : order.By key) (refused : graph.ledger.commitRefusal? = some error)
    (inserts : graph.Inserts shape order record answer after whole log) :
    after.Holds whole catalogue := by
  have around := catalogue.records_around record
  have among := inserts.among holds.sound (holds.records_eq.trans around)
    (catalogue.cuts byKey record)
  rw [refused] at among
  exact ⟨inserts.sound holds.sound, inserts.options_eq.trans holds.options_eq,
    (congrArg Prod.snd among).symm.trans
      ((insertionAmong_some graph.options error record _ _ _).trans around.symm)⟩

theorem remove_changes (holds : graph.Holds shape catalogue) (byKey : order.By key) :
    Changes (remove order probe) graph catalogue (catalogue.remove probe) := by
  have sameOptions := holds.options_eq
  subst sameOptions
  by_cases short : probe.length < graph.options.keySize
  · have refused : catalogue.remove probe = .error (.invalidArgument .shortKey) := if_pos short
    rw [refused]
    exact ⟨_, graph, _, shape, yields_remove_short short, rfl, holds, rfl⟩
  · have long := Nat.le_of_not_lt short
    obtain ⟨answer, after, whole, log, yields, removes⟩ := holds.sound.exists_removes order probe
    have among := removes.among holds.sound long
      (holds.records_eq.trans (catalogue.records_around probe)) (catalogue.cuts byKey probe)
    obtain ⟨reply, records⟩ := catalogue.changed_remove long among
    exact ⟨answer, after, log, whole, yields, reply,
      ⟨removes.sound holds.sound, removes.options_eq, records.symm⟩, removes.host_eq⟩

/-! ## Runs -/

/-- A call that changes nothing comes back with the catalogue's answer. -/
theorem unchanged {α : Type} {action : Action Tree α} {answer : α} {reply : α → Reply}
    (holds : graph.Holds shape catalogue)
    (yields : ∃ log, Action.Yields Tree.graph action graph answer graph log) :
    ∃ final log whole, Action.Yields Tree.graph (action >>= fun given => pure (reply given)) graph
      (reply answer) final log ∧ final.Holds whole catalogue ∧
        final.ledger.host = graph.ledger.host := by
  obtain ⟨log, yields⟩ := yields
  exact ⟨graph, log, shape, yields.concluding (Action.yields_pure _ graph), holds, rfl⟩

/-- A change comes back with the catalogue's answer and leaves what it leaves. -/
theorem changed {action : Action Tree (Except Refusal Unit)}
    {change : Except Refusal (Catalogue key options)}
    (changes : Changes action graph catalogue change) :
    ∃ final log whole, Action.Yields Tree.graph
      (action >>= fun given => pure (Reply.change given)) graph (catalogue.changed change).1 final
        log ∧ final.Holds whole (catalogue.changed change).2 ∧
          final.ledger.host = graph.ledger.host := by
  obtain ⟨answer, final, log, whole, yields, reply, stillHolds⟩ := changes
  rw [reply]
  exact ⟨final, log, whole, yields.concluding (Action.yields_pure _ final), stillHolds⟩

/-- While the host backs every page, the tree replies to a request as the catalogue does, and holds
the same records afterwards. -/
theorem yields_serve (holds : graph.Holds shape catalogue) (byKey : order.By key)
    (grants : graph.ledger.host.Grants) (request : Request) :
    ∃ final log whole, Action.Yields Tree.graph (serve order request) graph
      (catalogue.serve request).1 final log ∧ final.Holds whole (catalogue.serve request).2 ∧
        final.ledger.host = graph.ledger.host := by
  cases request with
  | insert record =>
      exact changed (holds.insert_changes byKey (Arena.Ledger.commitRefusal?_eq_none grants))
  | remove probe => exact changed (holds.remove_changes byKey)
  | get probe => exact holds.unchanged (holds.yields_get byKey)
  | contains probe => exact holds.unchanged (holds.yields_contains byKey)
  | first => exact holds.unchanged ⟨_, holds.yields_extreme .left⟩
  | last => exact holds.unchanged ⟨_, holds.yields_extreme .right⟩
  | next probe => exact holds.unchanged (holds.yields_next byKey)
  | prev probe => exact holds.unchanged (holds.yields_prev byKey)
  | records =>
      refine holds.unchanged ⟨_, Action.yields_read catalogue.records fun tree looks => ?_⟩
      rw [holds.sound.records_eq looks, holds.records_eq]
  | count =>
      refine holds.unchanged ⟨_, Action.yields_view catalogue.records.length fun tree looks => ?_⟩
      rw [← holds.count_eq, ← looks]
      rfl

/-- The tree replies to any sequence of requests as the catalogue does. -/
theorem yields_serveAll (holds : graph.Holds shape catalogue) (byKey : order.By key)
    (grants : graph.ledger.host.Grants) (requests : List Request) :
    ∃ final log, Action.Yields Tree.graph (serveAll order requests) graph
      (catalogue.replies requests) final log := by
  induction requests generalizing graph shape catalogue with
  | nil => exact ⟨graph, _, Action.yields_pure _ graph⟩
  | cons request rest inductionHypothesis =>
      obtain ⟨middle, log, whole, serves, stillHolds, sameHost⟩ :=
        holds.yields_serve byKey grants request
      obtain ⟨final, restLog, onward⟩ := inductionHypothesis stillHolds (sameHost ▸ grants)
      exact ⟨final, _, serves.bind (onward.concluding (Action.yields_pure _ final))⟩

end Holds

end Graph

/-- Under an order by a key, and the order of leading bytes is one, a new tree whose host backs
every page replies to any sequence of requests as the empty catalogue does. -/
theorem serveAll_replies {options : Options} {host : Host} {made : Session Tree}
    (created : Tree.create options host = .ok made) (grants : host.Grants) :
    (∀ {κ : Type u} [LinearOrder κ] (key : Bytes → κ) (order : KeyOrder), order.By key →
      ∀ requests, ∃ final, serveAll order requests made =
        .ok ((Catalogue.empty key options).replies requests) final) ∧
      ∀ keySize, (KeyOrder.leading keySize).By fun bytes =>
        KeyOrder.numbers (bytes.take keySize) := by
  obtain ⟨sound, sameOptions⟩ := create_sound created
  refine ⟨?_, KeyOrder.leading_by⟩
  intro κ _ key order byKey requests
  have granting : made.state.arena.region.host.Grants := (host_of_create created).symm ▸ grants
  have holds : made.state.graph.Holds .leaf (Catalogue.empty key options) :=
    ⟨sound, sameOptions, rfl⟩
  obtain ⟨final, log, yields⟩ := holds.yields_serveAll byKey granting requests
  obtain ⟨state, ran, _⟩ := yields made.state made.journal rfl
  exact ⟨_, ran⟩

/-- A short run on a small tree. -/
theorem serveAll_replies_small :
    ∃ made final, Tree.create { maxNodes := 2, nodeSize := 2, keySize := 1 } Host.plain =
        .ok made ∧
      serveAll (.leading 1) [.insert [7, 1], .insert [7, 2], .insert [9, 3], .insert [8, 4],
          .next [7], .prev [7], .remove [7, 5], .records] made =
        .ok [.change (.ok ()), .change (.error .duplicateKey), .change (.ok ()),
          .change (.error .capacityExceeded), .record (.ok [9, 3]), .record (.error .notFound),
          .change (.ok ()), .records [[9, 3]]] final := by
  have run : ∃ made, Tree.create { maxNodes := 2, nodeSize := 2, keySize := 1 } Host.plain =
      .ok made := ⟨_, rfl⟩
  obtain ⟨made, created⟩ := run
  obtain ⟨replies, leading⟩ := serveAll_replies created fun _ => rfl
  obtain ⟨final, ran⟩ := replies _ _ (leading 1) [.insert [7, 1], .insert [7, 2], .insert [9, 3],
    .insert [8, 4], .next [7], .prev [7], .remove [7, 5], .records]
  refine ⟨made, final, created, ran.trans ?_⟩
  rfl

end Tree

end SlabTree
