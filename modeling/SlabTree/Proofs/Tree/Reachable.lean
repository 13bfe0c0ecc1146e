import SlabTree.Proofs.Tree.Insertion
import SlabTree.Proofs.Tree.Removal

/-!
# Reachable trees

A tree is reachable when insertions and removals lead to it from a new one, each
under an order of its own.  The orders are arbitrary, and they may answer the same
question differently when it is asked again: reachable trees are sound and calls on them
answer, whatever came and comes out of comparisons.
-/

namespace SlabTree.Tree

/-- The trees that insertions and removals lead to. -/
inductive Reachable : Tree → Prop
  | create {options : Options} {host : Host} {made : Session Tree}
      (created : Tree.create options host = .ok made) : Reachable made.state
  | insert {tree : Tree} {order : KeyOrder} {record : Bytes} {journal : Journal}
      {answer : Except Refusal Unit} {later : Session Tree} (reachable : Reachable tree)
      (ran : Tree.insert order record ⟨tree, journal⟩ = .ok answer later) :
      Reachable later.state
  | remove {tree : Tree} {order : KeyOrder} {key : Bytes} {journal : Journal}
      {answer : Except Refusal Unit} {later : Session Tree} (reachable : Reachable tree)
      (ran : Tree.remove order key ⟨tree, journal⟩ = .ok answer later) :
      Reachable later.state

variable {tree : Tree} {α : Type}

/-- A tree is only made with options that keep the rules, around a new arena. -/
theorem exists_of_create {options : Options} {host : Host} {made : Session Tree}
    (created : Tree.create options host = .ok made) :
    options.validate = .ok () ∧ ∃ arena : Session Arena,
      Arena.create (Header.size + options.nodeSize) options.maxNodes options.preallocate host =
          .ok arena ∧
        made.state = ⟨arena.state, none, 0, options, {}⟩ ∧
          made.journal.events = arena.journal.events.push (.create options.maxNodes
            options.nodeSize options.keySize options.preallocate arena.state.virtualBytes) := by
  unfold Tree.create at created
  cases valid : options.validate with
  | error refusal => simp [valid, Bind.bind, Except.bind] at created
  | ok =>
      cases reserved : Arena.create (Header.size + options.nodeSize) options.maxNodes
          options.preallocate host with
      | error refusal => simp [valid, reserved, Bind.bind, Except.bind] at created
      | ok arena =>
          simp only [valid, reserved, Bind.bind, Except.bind, Except.ok.injEq] at created
          subst created
          exact ⟨rfl, arena, rfl, rfl, rfl⟩

/-- A tree is only made with options that keep the rules. -/
theorem validate_of_create {options : Options} {host : Host} {made : Session Tree}
    (created : Tree.create options host = .ok made) : options.validate = .ok () :=
  (exists_of_create created).1

/-- A new tree is sound and has no slots. -/
theorem create_sound {options : Options} {host : Host} {made : Session Tree}
    (created : Tree.create options host = .ok made) :
    made.state.graph.Sound .leaf ∧ made.state.options = options := by
  obtain ⟨valid, arena, reserved, same, _⟩ := exists_of_create created
  have fresh := Arena.made_of_create reserved
  obtain ⟨_, below, _⟩ := Options.validate_eq_ok_iff.mp valid
  rw [same]
  exact ⟨⟨⟨fresh.sound, fresh.elementSize_eq, fresh.capacity_eq, below⟩,
    ⟨rfl, trivial, List.nodup_nil, fun slot member => absurd member List.not_mem_nil⟩,
    fresh.live_eq.symm, trivial, trivial, fresh.live_eq.symm⟩, rfl⟩

/-- A new tree gets its memory from the host that it was made with. -/
theorem host_of_create {options : Options} {host : Host} {made : Session Tree}
    (created : Tree.create options host = .ok made) : made.state.arena.region.host = host := by
  obtain ⟨_, arena, reserved, same, _⟩ := exists_of_create created
  rw [same]
  exact (Arena.made_of_create reserved).host_eq

/-- What an action yields is what comes out of its run. -/
theorem final_of_yields {action : Action Tree α} {before after : Graph} {answer given : α}
    {log : Journal} {journal : Journal} {later : Session Tree}
    (yields : Action.Yields graph action before answer after log) (looks : tree.graph = before)
    (ran : action ⟨tree, journal⟩ = .ok given later) :
    given = answer ∧ later.state.graph = after ∧ later.journal = journal ++ log := by
  obtain ⟨final, result, finalLooks⟩ := yields tree journal looks
  rw [result] at ran
  cases ran
  exact ⟨rfl, finalLooks, rfl⟩

/-- Reachable trees are sound. -/
theorem Reachable.sound (reachable : Reachable tree) : ∃ shape, tree.graph.Sound shape := by
  induction reachable with
  | create created => exact ⟨.leaf, (create_sound created).1⟩
  | insert _ ran inductionHypothesis =>
      obtain ⟨shape, sound⟩ := inductionHypothesis
      obtain ⟨_, after, _, whole, yields, stillSound, _⟩ := sound.insert_answers _ _
      rw [(final_of_yields yields rfl ran).2.1]
      exact ⟨whole, stillSound⟩
  | remove _ ran inductionHypothesis =>
      obtain ⟨shape, sound⟩ := inductionHypothesis
      obtain ⟨_, after, _, whole, yields, stillSound, _⟩ := sound.remove_answers _ _
      rw [(final_of_yields yields rfl ran).2.1]
      exact ⟨whole, stillSound⟩

/-- Makes a tree and inserts records into it, one after the other. -/
def grown? (options : Options) (host : Host) (order : KeyOrder) (records : List Bytes) :
    Option (Session Tree) :=
  match Tree.create options host with
  | .error _ => none
  | .ok made =>
    match records.mapM (Tree.insert order) ⟨made.state, {}⟩ with
    | .ok _ later => some later
    | .error _ _ => none

/-- What holds of new trees and is kept by insertions holds of the trees that are grown. -/
theorem of_grown {P : Tree → Prop} {options : Options} {host : Host} {order : KeyOrder}
    {records : List Bytes} {later : Session Tree}
    (new : ∀ {made : Session Tree}, Tree.create options host = .ok made → P made.state)
    (step : ∀ {tree : Tree} {record : Bytes} {journal : Journal} {answer : Except Refusal Unit}
      {after : Session Tree}, P tree → Tree.insert order record ⟨tree, journal⟩ = .ok answer after →
        P after.state)
    (grown : grown? options host order records = some later) : P later.state := by
  have onward : ∀ {tree : Tree} {journal : Journal} {answers : List (Except Refusal Unit)}
      {after : Session Tree}, P tree →
        records.mapM (Tree.insert order) ⟨tree, journal⟩ = .ok answers after → P after.state := by
    clear grown
    induction records with
    | nil =>
        intro tree journal answers after start ran
        cases ran
        exact start
    | cons record rest inductionHypothesis =>
        intro tree journal answers after start ran
        rw [List.mapM_cons] at ran
        obtain ⟨answer, between, head, onward⟩ := Action.exists_of_bind_run ran
        obtain ⟨others, final, tail, finishes⟩ := Action.exists_of_bind_run onward
        cases finishes
        exact inductionHypothesis (step start head) tail
  unfold grown? at grown
  split at grown
  · cases grown
  next made created =>
    split at grown
    next inserted =>
      cases grown
      exact onward (new created) inserted
    · cases grown

theorem Reachable.of_grown {options : Options} {host : Host} {order : KeyOrder}
    {records : List Bytes} {later : Session Tree}
    (grown : grown? options host order records = some later) : Reachable later.state :=
  Tree.of_grown .create .insert grown

/-- Insertions and removals keep the options. -/
theorem Reachable.options_eq (reachable : Reachable tree) {journal : Journal}
    {answer : Except Refusal Unit} {later : Session Tree} :
    (∀ order record, Tree.insert order record ⟨tree, journal⟩ = .ok answer later →
        later.state.options = tree.options) ∧
      ∀ order key, Tree.remove order key ⟨tree, journal⟩ = .ok answer later →
        later.state.options = tree.options := by
  obtain ⟨shape, sound⟩ := reachable.sound
  constructor
  · intro order record ran
    obtain ⟨_, _, _, _, yields, inserts⟩ := sound.exists_inserts order record
    exact (congrArg Graph.options (final_of_yields yields rfl ran).2.1).trans inserts.options_eq
  · intro order key ran
    obtain ⟨_, _, _, _, yields, removes⟩ := sound.exists_removes order key
    exact (congrArg Graph.options (final_of_yields yields rfl ran).2.1).trans removes.options_eq

/-! ## Structure of reachable trees -/

/-- The nodes read from the live slots of a tree spell out a balanced shape over
exactly these slots, with right heights, and the tree counts them. -/
structure Intact (tree : Tree) (headers : Slot → Header) (shape : Shape) : Prop where
  header_eq : ∀ slot, slot < tree.arena.live → tree.header slot = .ok (headers slot)
  root_eq : tree.root = shape.root?
  linked : Linked headers none shape
  nodup : shape.slots.Nodup
  mem_iff : ∀ slot, slot ∈ shape.slots ↔ slot < tree.arena.live
  measured : Measured headers shape
  balanced : shape.Balanced
  count_eq : tree.count = tree.arena.live

theorem Graph.Sound.intact {shape : Shape} (sound : tree.graph.Sound shape) :
    Intact tree tree.graph.headers shape where
  header_eq := fun _ live => Graph.header_eq_ok sound.usable live rfl
  root_eq := sound.spans.root_eq
  linked := sound.spans.linked
  nodup := sound.spans.nodup
  mem_iff := fun _ => sound.mem_slots_iff
  measured := sound.measured
  balanced := sound.balanced
  count_eq := sound.count_eq

/-- Whatever the orders, insertions and removals never fault, and they keep the
structure of the tree intact. -/
theorem intact_of_reachable (reachable : Reachable tree) :
    (∃ headers shape, Intact tree headers shape) ∧
      (∀ order record journal, ∃ answer later,
        Tree.insert order record ⟨tree, journal⟩ = .ok answer later) ∧
      ∀ order key journal, ∃ answer later,
        Tree.remove order key ⟨tree, journal⟩ = .ok answer later := by
  obtain ⟨shape, sound⟩ := reachable.sound
  refine ⟨⟨_, shape, sound.intact⟩, ?_, ?_⟩
  · intro order record journal
    obtain ⟨answer, _, _, _, yields, _⟩ := sound.insert_answers order record
    obtain ⟨final, ran, _⟩ := yields tree journal rfl
    exact ⟨answer, _, ran⟩
  · intro order key journal
    obtain ⟨answer, _, _, _, yields, _⟩ := sound.remove_answers order key
    obtain ⟨final, ran, _⟩ := yields tree journal rfl
    exact ⟨answer, _, ran⟩

/-- A tree of five records that came in order, which took two rotations, and every call on it. -/
theorem intact_of_reachable_rotated :
    ∃ later,
      grown? { maxNodes := 8, nodeSize := 2, keySize := 1 } Host.plain (.leading 1)
          [[1, 0], [2, 0], [3, 0], [4, 0], [5, 0]] = some later ∧
        later.state.root = some 1 ∧ later.state.counters.singleRotations = 2 ∧
          (∃ headers shape, Intact later.state headers shape) ∧
            (∀ order record journal, ∃ answer final,
              Tree.insert order record ⟨later.state, journal⟩ = .ok answer final) ∧
              ∀ order key journal, ∃ answer final,
                Tree.remove order key ⟨later.state, journal⟩ = .ok answer final := by
  have run :
      (grown? { maxNodes := 8, nodeSize := 2, keySize := 1 } Host.plain (.leading 1)
          [[1, 0], [2, 0], [3, 0], [4, 0], [5, 0]]).any (fun later =>
        decide (later.state.root = some 1 ∧ later.state.counters.singleRotations = 2)) = true := by
    decide +kernel
  obtain ⟨later, grown, numbers⟩ := (Option.any_eq_true _ _).mp run
  obtain ⟨top, rotations⟩ := of_decide_eq_true numbers
  exact ⟨later, grown, top, rotations, intact_of_reachable (.of_grown grown)⟩

/-! ## Records of reachable trees -/

/-- The records below a slot from left to right, down to a depth of `fuel`. -/
def walkWithin (tree : Tree) : Nat → Option Slot → Except Fault (List Bytes)
  | _, none => .ok []
  | 0, some _ => .error .endless
  | fuel + 1, some slot => do
    let left ← tree.child slot .left
    let earlier ← walkWithin tree fuel left
    let record ← tree.payload slot
    let right ← tree.child slot .right
    let later ← walkWithin tree fuel right
    .ok (earlier ++ record :: later)

/-- All records from left to right, read recursively. -/
def walk (tree : Tree) : Except Fault (List Bytes) :=
  tree.walkWithin (tree.arena.live + 1) tree.root

theorem walkWithin_eq {graph : Graph} {parent : Option Slot} {shape : Shape}
    (usable : graph.Usable) (linked : Linked graph.headers parent shape)
    (live : ∀ slot ∈ shape.slots, slot < graph.live) (looks : tree.graph = graph) {fuel : Nat}
    (enough : shape.height ≤ fuel) :
    tree.walkWithin fuel shape.root? = .ok (graph.records shape) := by
  induction shape generalizing parent fuel with
  | leaf => cases fuel <;> rfl
  | node left slot right onLeft onRight =>
      obtain ⟨_, leftLink, rightLink, leftLinked, rightLinked⟩ := linked
      have toLeft : (graph.headers slot).child .left = left.root? := leftLink
      have toRight : (graph.headers slot).child .right = right.root? := rightLink
      have here : slot < graph.live := live slot (by simp [Shape.slots])
      have inLeft : ∀ inner ∈ left.slots, inner < graph.live := fun inner member =>
        live inner (by simp [Shape.slots, member])
      have inRight : ∀ inner ∈ right.slots, inner < graph.live := fun inner member =>
        live inner (by simp [Shape.slots, member])
      cases fuel with
      | zero => simp [Shape.height] at enough
      | succ fuel =>
          simp only [Shape.height, Nat.add_le_add_iff_right, Nat.max_le] at enough
          have top : (Shape.node left slot right).root? = some slot := rfl
          simp only [top, walkWithin, Graph.child_eq_ok usable here looks, toLeft, toRight,
            onLeft leftLinked inLeft enough.1, Graph.payload_eq_ok usable here looks,
            onRight rightLinked inRight enough.2, Bind.bind, Except.bind, Graph.records,
            Shape.slots, List.map_append, List.map_cons]

theorem Graph.Sound.walk_eq {graph : Graph} {shape : Shape} (sound : graph.Sound shape)
    (looks : tree.graph = graph) : tree.walk = .ok (graph.records shape) := by
  have live : tree.arena.live = graph.live := by
    rw [← looks]
    rfl
  rw [walk, sound.root_eq looks, live]
  exact walkWithin_eq sound.usable sound.spans.linked sound.spans.live looks
    (Nat.le_succ_of_le (Nat.le_trans shape.height_le_length sound.spans.length_le))

/-- How an insertion that answered changed the records. -/
def InsertedAmong (record : Bytes) (before after : List Bytes) : Except Refusal Unit → Prop
  | .error _ => after = before
  | .ok () => ∃ earlier later, before = earlier ++ later ∧ after = earlier ++ [record] ++ later

/-- How a removal that answered after `asked` comparisons changed the records: the one
that goes came out equal to the key in the last of them. -/
def RemovedFrom (order : KeyOrder) (key : Bytes) (asked : Nat) (before after : List Bytes) :
    Except Refusal Unit → Prop
  | .error _ => after = before
  | .ok () => ∃ earlier record later, before = earlier ++ [record] ++ later ∧
      (∃ last, asked = last + 1 ∧ order.compare last key record = .eq) ∧
        after = earlier ++ later

/-- Whatever the orders, a record that is inserted comes to stand among the others, a
record that is removed goes, and all others stay as they are and where they are. -/
theorem records_of_reachable (reachable : Reachable tree) :
    (∀ order record journal answer later,
      Tree.insert order record ⟨tree, journal⟩ = .ok answer later →
        ∃ before after, tree.walk = .ok before ∧ later.state.walk = .ok after ∧
          InsertedAmong record before after answer) ∧
      ∀ order key journal answer later,
        Tree.remove order key ⟨tree, journal⟩ = .ok answer later →
          ∃ before after asked, tree.walk = .ok before ∧ later.state.walk = .ok after ∧
            later.journal.comparisons = journal.comparisons + asked ∧
              RemovedFrom order key asked before after answer := by
  obtain ⟨shape, sound⟩ := reachable.sound
  constructor
  · intro order record journal answer later ran
    obtain ⟨given, after, _, whole, yields, stillSound, change⟩ :=
      sound.insert_answers order record
    obtain ⟨rfl, looks, _⟩ := final_of_yields yields rfl ran
    refine ⟨_, _, sound.walk_eq rfl, stillSound.walk_eq looks, ?_⟩
    rcases change with ⟨⟨refusal, rfl⟩, same⟩ | ⟨rfl, earlier, behind, old, new⟩
    · exact same
    · exact ⟨earlier, behind, old, by rw [new, List.append_assoc, List.singleton_append]⟩
  · intro order key journal answer later ran
    obtain ⟨given, after, log, whole, yields, stillSound, change⟩ :=
      sound.remove_answers order key
    obtain ⟨rfl, looks, logged⟩ := final_of_yields yields rfl ran
    refine ⟨_, _, log.comparisons, sound.walk_eq rfl, stillSound.walk_eq looks, ?_, ?_⟩
    · rw [logged, Journal.comparisons_append]
    rcases change with ⟨⟨refusal, rfl⟩, rfl, rfl⟩ | ⟨rfl, earlier, record, behind, old, equal, new⟩
    · rfl
    · exact ⟨earlier, record, behind,
        by rw [old, List.append_assoc, List.singleton_append], equal, new⟩

/-- A record that goes from the middle of five, and one that comes under an order that calls it
larger than any other. -/
theorem records_of_reachable_middle :
    ∃ later shorter longer,
      grown? { maxNodes := 8, nodeSize := 2, keySize := 1 } Host.plain (.leading 1)
          [[1, 0], [2, 0], [3, 0], [4, 0], [5, 0]] = some later ∧
        Tree.remove (.leading 1) [2] ⟨later.state, {}⟩ = .ok (.ok ()) shorter ∧
          (∃ before after asked, later.state.walk = .ok before ∧ shorter.state.walk = .ok after ∧
            shorter.journal.comparisons = 0 + asked ∧
              RemovedFrom (.leading 1) [2] asked before after (.ok ())) ∧
            shorter.state.walk = .ok [[1, 0], [3, 0], [4, 0], [5, 0]] ∧
              Tree.insert (.constant .gt) [0, 9] ⟨later.state, {}⟩ = .ok (.ok ()) longer ∧
                (∃ before after, later.state.walk = .ok before ∧ longer.state.walk = .ok after ∧
                  InsertedAmong [0, 9] before after (.ok ())) ∧
                  longer.state.walk = .ok [[1, 0], [2, 0], [3, 0], [4, 0], [5, 0], [0, 9]] := by
  have run :
      (grown? { maxNodes := 8, nodeSize := 2, keySize := 1 } Host.plain (.leading 1)
          [[1, 0], [2, 0], [3, 0], [4, 0], [5, 0]]).any (fun later =>
        match Tree.remove (.leading 1) [2] ⟨later.state, {}⟩ with
        | .ok (.ok ()) shorter =>
            match Tree.insert (.constant .gt) [0, 9] ⟨later.state, {}⟩ with
            | .ok (.ok ()) longer =>
                decide (shorter.state.walk = .ok [[1, 0], [3, 0], [4, 0], [5, 0]] ∧
                  longer.state.walk = .ok [[1, 0], [2, 0], [3, 0], [4, 0], [5, 0], [0, 9]])
            | .ok (.error _) _ => false
            | .error _ _ => false
        | .ok (.error _) _ => false
        | .error _ _ => false) = true := by
    decide +kernel
  obtain ⟨later, grown, numbers⟩ := (Option.any_eq_true _ _).mp run
  obtain ⟨inserts, removes⟩ := records_of_reachable (.of_grown grown)
  split at numbers
  case h_1 shorter removed =>
    split at numbers
    case h_1 longer inserted =>
      obtain ⟨without, among⟩ := of_decide_eq_true numbers
      exact ⟨later, shorter, longer, grown, removed, removes _ _ _ _ _ removed, without, inserted,
        inserts _ _ _ _ _ inserted, among⟩
    all_goals exact absurd numbers Bool.false_ne_true
  all_goals exact absurd numbers Bool.false_ne_true

end SlabTree.Tree
