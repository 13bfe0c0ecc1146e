import SlabTree.Proofs.Tree.Likeness
import SlabTree.Proofs.Tree.Refinement

/-!
# What is seen of a tree without its records

A call shows which slot it looks up, how it ends and, afterwards, all nodes and numbers of the
tree.  Only comparisons have a part in that: corresponding calls on two trees show the same as
long as their orders agree, and so what the orders do not look at, the bytes behind a key for
example, is in no slot's place and in nothing that is counted.
-/

namespace SlabTree

/-- What is left of a reply without its records. -/
def Reply.kind : Reply → Reply
  | .record answer => .change (answer.map fun _ => ())
  | .records answer => .count answer.length
  | reply => reply

namespace Tree

/-! ## The slots that lookups come to -/

/-- The slot at one end of a tree; none in a tree without a root. -/
def endmost (tree : Tree) (side : Side) : Except Fault (Option Slot) :=
  match tree.root with
  | none => .ok none
  | some root => (tree.outermost side root).map some

theorem Graph.Sound.endmost_eq {tree : Tree} {shape : Shape} (sound : tree.graph.Sound shape)
    (side : Side) : tree.endmost side = .ok (shape.end? side) := by
  rw [endmost, sound.root_eq rfl]
  cases top : shape.root? with
  | none =>
      rw [Shape.root?_eq_none_iff.mp top]
      cases side <;> rfl
  | some slot =>
      obtain ⟨last, isEnd, walk⟩ := Graph.outermost_eq side sound.usable sound.spans.linked
        sound.spans.live sound.spans.length_le rfl top
      rw [isEnd]
      simp only [walk, Except.map]

/-- The slot that a search for a probe comes to; a probe that is too short is not searched for. -/
def sought (tree : Tree) (probe : Bytes) (search : Lookup (Option Slot)) :
    Except Fault (Option Slot) :=
  if probe.length < tree.options.keySize then .ok none else search.result

/-! ## Calls and what is seen of them -/

/-- What a call does, with the text that it brings or without one. -/
inductive Verb
  | insert
  | remove
  | get
  | contains
  | next
  | prev
  | nextInto (buffer : Bytes)
  | first
  | last
  | firstInto (buffer : Bytes)

/-- Whether the text is compared with records. -/
def Verb.compares : Verb → Bool
  | first | last | firstInto _ => false
  | _ => true

/-- A call, with the order that it asks and the record or the probe that it brings. -/
structure Call where
  verb : Verb
  order : KeyOrder
  text : Bytes

namespace Call

/-- Makes a call. -/
def make (call : Call) : Action Tree Reply :=
  match call.verb with
  | .insert => serve call.order (.insert call.text)
  | .remove => serve call.order (.remove call.text)
  | .get => serve call.order (.get call.text)
  | .contains => serve call.order (.contains call.text)
  | .next => serve call.order (.next call.text)
  | .prev => serve call.order (.prev call.text)
  | .nextInto buffer => do
      pure (.change (← consult (·.nextInto call.order call.text buffer)).1)
  | .first => serve call.order .first
  | .last => serve call.order .last
  | .firstInto buffer => do pure (.change (← Action.read (·.firstInto buffer)).1)

/-- The slot that a call looks up. -/
def chosen (call : Call) (tree : Tree) : Except Fault (Option Slot) :=
  match call.verb with
  | .insert => .ok none
  | .remove | .get | .contains => tree.sought call.text (tree.locate call.order call.text)
  | .next | .nextInto _ => tree.sought call.text (tree.locateAbove call.order call.text)
  | .prev => tree.sought call.text (tree.locateBelow call.order call.text)
  | .first | .firstInto _ => tree.endmost .left
  | .last => tree.endmost .right

/-- Both are the same call, with texts of the same length. -/
structure Alike (call twin : Call) : Prop where
  verb_eq : call.verb = twin.verb
  length_eq : twin.text.length = call.text.length

end Call

/-- What is seen of a tree without its records. -/
structure Outline where
  /-- The headers of the live slots. -/
  headers : List Header
  root : Option Slot
  count : Nat
  counters : Counters
  stats : TreeStats
  pages : ArenaStats

/-- What is seen of a tree without its records. -/
def outline (tree : Tree) : Except Fault Outline := do
  let headers ← (List.range tree.arena.live).mapM tree.header
  .ok
    { headers := headers
      root := tree.root
      count := tree.count
      counters := tree.counters
      stats := tree.stats
      pages := tree.arena.stats }

/-- What is seen of a call: the slot that it looks up, how it ends, and the tree behind it. -/
structure Sighting where
  chosen : Option Slot
  kind : Reply
  outline : Outline

/-- Makes a call and watches it. -/
def watch (call : Call) : Action Tree Sighting := do
  let chosen ← Action.read call.chosen
  let reply ← call.make
  let outline ← Action.read (·.outline)
  pure ⟨chosen, reply.kind, outline⟩

/-- Makes one call after the other and watches all of them. -/
def watchAll (calls : List Call) : Action Tree (List Sighting) :=
  calls.mapM watch

/-- The records are inserted by corresponding calls. -/
def Paired (calls : List (Call × Call)) (record twin : Bytes) : Prop :=
  ∃ pair ∈ calls, pair.1.verb = .insert ∧ pair.1.text = record ∧ pair.2.text = twin

/-- Wherever corresponding texts are compared with corresponding records, the orders answer the
same. -/
def Agree (calls : List (Call × Call)) : Prop :=
  ∀ pair ∈ calls, pair.1.verb.compares →
    Graph.Unanimous (Paired calls) pair.1.order pair.2.order pair.1.text pair.2.text

/-- Both trees have the same nodes, and the records in a slot are one of `pairs`. -/
def Likened (pairs : Bytes → Bytes → Prop) (tree opposite : Tree) : Prop :=
  ∃ shape, Graph.Twins pairs shape tree.graph opposite.graph

section Likened

variable {pairs : Bytes → Bytes → Prop} {tree opposite : Tree} {shape : Shape}
  {order other : KeyOrder} {text twin : Bytes} {call counterpart : Call}

theorem Graph.Sound.outline_eq (sound : tree.graph.Sound shape) :
    tree.outline = .ok ⟨(List.range tree.arena.live).map tree.graph.headers, tree.root, tree.count,
      tree.counters, tree.stats, tree.arena.stats⟩ := by
  have headers : (List.range tree.arena.live).mapM tree.header =
      .ok ((List.range tree.arena.live).map tree.graph.headers) :=
    mapM_eq_ok fun slot member =>
      Graph.header_eq_ok sound.usable (List.mem_range.mp member) rfl
  rw [outline, headers]
  rfl

/-- Twins look the same. -/
theorem Graph.Twins.outline_eq (twins : Twins pairs shape tree.graph opposite.graph) :
    opposite.outline = tree.outline := by
  have live : opposite.arena.live = tree.arena.live := twins.live_eq
  have root : opposite.root = tree.root :=
    (twins.alsoSound.root_eq rfl).trans (twins.sound.root_eq rfl).symm
  have count : opposite.count = tree.count := twins.count_eq twins.sound twins.alsoSound
  have counters : opposite.counters = tree.counters := twins.counters_eq
  obtain ⟨contents, ledger_eq⟩ := twins.ledger_eq
  have pages : opposite.arena.stats = tree.arena.stats :=
    congrArg (fun ledger : Arena.Ledger => (⟨ledger.live, ledger.committed, ledger.size,
      ledger.pageCommits, ledger.pageReleases⟩ : ArenaStats)) ledger_eq
  have stats : opposite.stats = tree.stats :=
    congrArg₂ (fun count (pages : ArenaStats) =>
      (⟨count, pages.physicalBytes, pages.virtualBytes⟩ : TreeStats)) count pages
  have headers : (List.range tree.arena.live).map opposite.graph.headers =
      (List.range tree.arena.live).map tree.graph.headers :=
    List.map_congr_left fun slot member => twins.header_eq (List.mem_range.mp member)
  rw [twins.alsoSound.outline_eq, twins.sound.outline_eq, live, headers, root, count, counters,
    pages, stats]

theorem tandem_insert (unanimous : Graph.Unanimous pairs order other text twin)
    (length : twin.length = text.length) (pair : pairs text twin) :
    Action.Tandem (Likened pairs) Eq (insert order text) (insert other twin) :=
  tandem_of_kin fun _ _ _ twins => Graph.Twins.insert twins unanimous length pair

theorem tandem_remove (unanimous : Graph.Unanimous pairs order other text twin)
    (length : twin.length = text.length) :
    Action.Tandem (Likened pairs) Eq (remove order text) (remove other twin) :=
  tandem_of_kin fun _ _ _ twins => Graph.Twins.remove twins unanimous length

/-- Corresponding calls on likened trees end alike and leave likened trees. -/
theorem tandem_make (alike : call.Alike counterpart)
    (unanimous : call.verb.compares →
      Graph.Unanimous pairs call.order counterpart.order call.text counterpart.text)
    (paired : call.verb = .insert → pairs call.text counterpart.text) :
    Action.Tandem (Likened pairs) (fun reply given => reply.kind = given.kind) call.make
      counterpart.make := by
  rcases call with ⟨verb, order, text⟩
  rcases counterpart with ⟨_, other, twin⟩
  obtain ⟨rfl, length⟩ := alike
  cases verb with
  | insert =>
      refine (tandem_insert (unanimous rfl) length (paired rfl)).map ?_
      rintro answer _ rfl
      rfl
  | remove =>
      refine (tandem_remove (unanimous rfl) length).map ?_
      rintro answer _ rfl
      rfl
  | get =>
      refine (tandem_consult fun tree opposite ⟨shape, twins⟩ =>
        twins.recordFor_map length (twins.meet_locate (unanimous rfl))).map ?_
      exact fun answer given same => congrArg Reply.change same
  | contains =>
      refine (tandem_consult fun tree opposite ⟨shape, twins⟩ =>
        twins.contains_eq (unanimous rfl) length).map ?_
      exact fun answer given same => congrArg Reply.stored same
  | next =>
      refine (tandem_consult fun tree opposite ⟨shape, twins⟩ =>
        twins.recordFor_map length (twins.meet_locateAbove (unanimous rfl))).map ?_
      exact fun answer given same => congrArg Reply.change same
  | prev =>
      refine (tandem_consult fun tree opposite ⟨shape, twins⟩ =>
        twins.recordFor_map length (twins.meet_locateBelow (unanimous rfl))).map ?_
      exact fun answer given same => congrArg Reply.change same
  | nextInto buffer =>
      refine (tandem_consult fun tree opposite ⟨shape, twins⟩ =>
        twins.nextInto_map (unanimous rfl) length buffer).map ?_
      exact fun answer given same => congrArg Reply.change same
  | first =>
      refine (Action.tandem_read fun tree opposite ⟨shape, twins⟩ =>
        twins.extreme_map .left).map ?_
      exact fun answer given same => congrArg Reply.change same
  | last =>
      refine (Action.tandem_read fun tree opposite ⟨shape, twins⟩ =>
        twins.extreme_map .right).map ?_
      exact fun answer given same => congrArg Reply.change same
  | firstInto buffer =>
      refine (Action.tandem_read fun tree opposite ⟨shape, twins⟩ =>
        twins.firstInto_map buffer).map ?_
      exact fun answer given same => congrArg Reply.change same

theorem Graph.Twins.sought_eq {search find : Lookup (Option Slot)}
    (twins : Twins pairs shape tree.graph opposite.graph)
    (length : twin.length = text.length) (meet : Meet shape search find) :
    ∃ found, tree.sought text search = .ok found ∧ opposite.sought twin find = .ok found := by
  obtain ⟨found, told, alsoTold, _⟩ := meet
  rw [sought, sought, length, twins.keySize_eq]
  split
  · exact ⟨none, rfl, rfl⟩
  · exact ⟨found, told, alsoTold⟩

/-- Corresponding calls on likened trees look up the same slot. -/
theorem Graph.Twins.chosen_eq (twins : Twins pairs shape tree.graph opposite.graph)
    (alike : call.Alike counterpart)
    (unanimous : call.verb.compares →
      Graph.Unanimous pairs call.order counterpart.order call.text counterpart.text) :
    ∃ found, call.chosen tree = .ok found ∧ counterpart.chosen opposite = .ok found := by
  rcases call with ⟨verb, order, text⟩
  rcases counterpart with ⟨_, other, twin⟩
  obtain ⟨rfl, length⟩ := alike
  have ends : ∀ side, ∃ found, tree.endmost side = .ok found ∧ opposite.endmost side = .ok found :=
    fun side => ⟨_, twins.sound.endmost_eq side, twins.alsoSound.endmost_eq side⟩
  cases verb with
  | insert => exact ⟨none, rfl, rfl⟩
  | remove | get | contains => exact twins.sought_eq length (twins.meet_locate (unanimous rfl))
  | next | nextInto => exact twins.sought_eq length (twins.meet_locateAbove (unanimous rfl))
  | prev => exact twins.sought_eq length (twins.meet_locateBelow (unanimous rfl))
  | first | firstInto => exact ends .left
  | last => exact ends .right

theorem tandem_watch (alike : call.Alike counterpart)
    (unanimous : call.verb.compares →
      Graph.Unanimous pairs call.order counterpart.order call.text counterpart.text)
    (paired : call.verb = .insert → pairs call.text counterpart.text) :
    Action.Tandem (Likened pairs) Eq (watch call) (watch counterpart) := by
  have looks : Action.Tandem (Likened pairs) Eq (Action.read call.chosen)
      (Action.read counterpart.chosen) := by
    apply Action.tandem_read
    rintro tree opposite ⟨shape, twins⟩
    obtain ⟨found, told, alsoTold⟩ := twins.chosen_eq alike unanimous
    exact ⟨found, found, told, alsoTold, rfl⟩
  have sees : Action.Tandem (Likened pairs) Eq (Action.read (·.outline))
      (Action.read (·.outline)) := by
    apply Action.tandem_read
    rintro tree opposite ⟨shape, twins⟩
    exact ⟨_, _, twins.sound.outline_eq, twins.outline_eq.trans twins.sound.outline_eq, rfl⟩
  refine looks.bind ?_
  rintro chosen _ rfl
  refine (tandem_make alike unanimous paired).bind fun reply given same => sees.map ?_
  rintro outline _ rfl
  rw [same]

/-- Corresponding runs of calls show the same when their orders agree. -/
theorem tandem_watchAll {calls : List (Call × Call)}
    (alike : ∀ pair ∈ calls, pair.1.Alike pair.2) (agree : Agree calls) :
    Action.Tandem (Likened (Paired calls)) Eq (watchAll (calls.map Prod.fst))
      (watchAll (calls.map Prod.snd)) := by
  rw [watchAll, watchAll, List.mapM_map, List.mapM_map]
  exact Action.tandem_mapM fun pair member => tandem_watch (alike pair member) (agree pair member)
    fun inserts => ⟨pair, member, inserts, rfl, rfl⟩

end Likened

/-- Orders of leading bytes agree wherever corresponding texts have the same leading bytes. -/
theorem agree_of_leading {keySize : Nat} {calls : List (Call × Call)}
    (leading : ∀ pair ∈ calls, pair.1.order = .leading keySize ∧ pair.2.order = .leading keySize)
    (same : ∀ pair ∈ calls, pair.1.text.take keySize = pair.2.text.take keySize) :
    Agree calls := by
  rintro pair member _ record twin ⟨inserting, inside, _, rfl, rfl⟩ asked
  obtain ⟨first, second⟩ := leading pair member
  simp only [first, second, KeyOrder.leading, same pair member, same inserting inside]

/-- Both runs of corresponding calls answer, and show the same after each call. -/
def Concur (calls : List (Call × Call)) (made opposite : Session Tree) : Prop :=
  ∃ seen final last, watchAll (calls.map Prod.fst) made = .ok seen final ∧
    watchAll (calls.map Prod.snd) opposite = .ok seen last

/-- Two new trees with equal options, on hosts that refuse the same and only hand out other
contents, on which corresponding calls are made, with texts of the same lengths and with orders that
agree wherever these are compared, show the same after each of them: the same slot looked up, the
same kind of answer, and the same tree but for its records.  Under the order of leading bytes that
is so whenever the texts have the same keys. -/
theorem likeness_of_run {options : Options} {host : Host} {contents : Nat → Nat → UInt8}
    {made opposite : Session Tree} (created : Tree.create options host = .ok made)
    (alsoCreated : Tree.create options { host with contents } = .ok opposite) :
    (∀ calls : List (Call × Call), (∀ pair ∈ calls, pair.1.Alike pair.2) → Agree calls →
      Concur calls made opposite) ∧
      ∀ calls : List (Call × Call), (∀ pair ∈ calls, pair.1.Alike pair.2) →
        (∀ pair ∈ calls, pair.1.order = .leading options.keySize ∧
          pair.2.order = .leading options.keySize) →
        (∀ pair ∈ calls, pair.1.text.take options.keySize = pair.2.text.take options.keySize) →
        Concur calls made opposite := by
  have runs : ∀ calls : List (Call × Call), (∀ pair ∈ calls, pair.1.Alike pair.2) →
      Agree calls → Concur calls made opposite := by
    intro calls alike agree
    have likened : Likened (Paired calls) made.state opposite.state :=
      ⟨.leaf, Graph.abreast_of_create created alsoCreated, (create_sound created).1,
        (create_sound alsoCreated).1, fun slot member => absurd member List.not_mem_nil⟩
    obtain ⟨seen, _, final, last, ran, alsoRan, rfl, _⟩ :=
      tandem_watchAll alike agree made opposite likened
    exact ⟨seen, final, last, ran, alsoRan⟩
  exact ⟨runs, fun calls alike leading same => runs calls alike (agree_of_leading leading same)⟩

/-- Two records come and the first one goes: a run that shows the same when bytes behind the keys
differ, and when keys are mirrored and so is the order. -/
theorem likeness_of_run_small :
    ∃ made seen final,
      Tree.create { maxNodes := 4, nodeSize := 2, keySize := 1 } Host.plain = .ok made ∧
        watchAll [⟨.insert, .leading 1, [7, 1]⟩, ⟨.insert, .leading 1, [9, 2]⟩,
          ⟨.next, .leading 1, [7]⟩, ⟨.remove, .leading 1, [7]⟩] made = .ok seen final ∧
        seen.map (·.chosen) = [none, none, some 1, some 0] ∧
        (∃ last, watchAll [⟨.insert, .leading 1, [7, 5]⟩, ⟨.insert, .leading 1, [9, 6]⟩,
          ⟨.next, .leading 1, [7]⟩, ⟨.remove, .leading 1, [7]⟩] made = .ok seen last) ∧
        ∃ last, watchAll [⟨.insert, .reverse (.leading 1), [3, 0]⟩,
          ⟨.insert, .reverse (.leading 1), [1, 0]⟩, ⟨.next, .reverse (.leading 1), [3]⟩,
          ⟨.remove, .reverse (.leading 1), [3]⟩] made = .ok seen last := by
  have run :
      (match Tree.create { maxNodes := 4, nodeSize := 2, keySize := 1 } Host.plain with
      | .ok made =>
          match watchAll [⟨.insert, .leading 1, [7, 1]⟩, ⟨.insert, .leading 1, [9, 2]⟩,
              ⟨.next, .leading 1, [7]⟩, ⟨.remove, .leading 1, [7]⟩] made with
          | .ok seen _ => decide (seen.map (·.chosen) = [none, none, some 1, some 0])
          | _ => false
      | .error _ => false) = true := by
    decide +kernel
  split at run <;> try contradiction
  rename_i made created
  split at run <;> try contradiction
  rename_i seen final ran
  obtain ⟨agreeing, leading⟩ := likeness_of_run created created
  refine ⟨made, seen, final, created, ran, of_decide_eq_true run, ?_, ?_⟩
  · obtain ⟨_, _, last, alsoRan, tails⟩ := leading
      [(⟨.insert, .leading 1, [7, 1]⟩, ⟨.insert, .leading 1, [7, 5]⟩),
        (⟨.insert, .leading 1, [9, 2]⟩, ⟨.insert, .leading 1, [9, 6]⟩),
        (⟨.next, .leading 1, [7]⟩, ⟨.next, .leading 1, [7]⟩),
        (⟨.remove, .leading 1, [7]⟩, ⟨.remove, .leading 1, [7]⟩)]
      (by simpa using ⟨⟨rfl, rfl⟩, ⟨rfl, rfl⟩, ⟨rfl, rfl⟩, ⟨rfl, rfl⟩⟩) (by simp) (by simp)
    cases ran.symm.trans alsoRan
    exact ⟨last, tails⟩
  · obtain ⟨_, _, last, alsoRan, mirrored⟩ := agreeing
      [(⟨.insert, .leading 1, [7, 1]⟩, ⟨.insert, .reverse (.leading 1), [3, 0]⟩),
        (⟨.insert, .leading 1, [9, 2]⟩, ⟨.insert, .reverse (.leading 1), [1, 0]⟩),
        (⟨.next, .leading 1, [7]⟩, ⟨.next, .reverse (.leading 1), [3]⟩),
        (⟨.remove, .leading 1, [7]⟩, ⟨.remove, .reverse (.leading 1), [3]⟩)]
      (by simpa using ⟨⟨rfl, rfl⟩, ⟨rfl, rfl⟩, ⟨rfl, rfl⟩, ⟨rfl, rfl⟩⟩) (by
        rintro pair member _ record twin ⟨inserting, inside, _, rfl, rfl⟩ asked
        simp only [List.mem_cons, List.not_mem_nil, or_false] at member inside
        rcases member with rfl | rfl | rfl | rfl <;>
          rcases inside with rfl | rfl | rfl | rfl <;> rfl)
    cases ran.symm.trans alsoRan
    exact ⟨last, mirrored⟩

end Tree

end SlabTree
