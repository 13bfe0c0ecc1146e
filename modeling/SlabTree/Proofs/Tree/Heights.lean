import SlabTree.Proofs.Tree.Reachable

/-!
# How tall trees are, and what calls cost

A balanced shape is thin only as far as the Fibonacci numbers let it be, so that a tree whose
slots have numbers of 32 bits has few levels.  Heights then stay far from what their fields can
hold, and since a search compares once on each level that it comes through, no call compares
more often than there are levels.
-/

namespace SlabTree

/-- The height as a tree reports it: one less than the number of levels, and none without any. -/
def Shape.height? : Shape → Option Nat
  | leaf => none
  | node left _ right => some (max left.height right.height)

/-- The number of levels of a tree that reports a height. -/
def levels : Option Nat → Nat
  | none => 0
  | some height => height + 1

@[simp]
theorem levels_height? (shape : Shape) : levels shape.height? = shape.height := by
  cases shape <;> rfl

namespace Tree

variable {tree : Tree}

namespace Graph

variable {graph : Graph} {shape : Shape}

/-! ## The height -/

theorem Sound.height_le (sound : graph.Sound shape) : shape.height ≤ 45 := by
  have whole := (sound.focused (rfl : Context.fill [] shape = shape)).length_lt sound.usable
  exact sound.balanced.height_le (Nat.lt_of_le_of_lt (Nat.le_add_left _ _) whole)

/-- A sound tree reports the height of its shape. -/
theorem Sound.height_eq (sound : graph.Sound shape) (looks : tree.graph = graph) :
    tree.height = .ok shape.height? := by
  have low := sound.height_le
  rw [Tree.height, sound.root_eq looks]
  cases shape with
  | leaf => rfl
  | node left slot right =>
      have live : slot < graph.live := sound.spans.live slot (by simp [Shape.slots])
      simp only [Shape.root?, header_eq_ok sound.usable live looks, Except.map, Shape.height?,
        sound.measured.1]
      rw [Shape.height] at low
      congr 2
      omega

/-- A sound tree that reports a height has a Fibonacci number of records at least. -/
theorem Sound.fib_le {height : Nat} (sound : graph.Sound shape)
    (reported : shape.height? = some height) : Nat.fib (height + 3) ≤ graph.count + 1 := by
  have tall : shape.height = height + 1 := by rw [← levels_height?, reported, levels]
  have thick := sound.balanced.fib_le
  rwa [tall, sound.length_eq, ← sound.count_eq] at thick

/-! ## Comparisons -/

variable {order : KeyOrder} {probe : Bytes}

/-- A search makes one comparison on a level at most. -/
theorem length_searchPath_le (turn : Turn) :
    (graph.searchPath order turn probe shape).visits.length ≤ shape.height := by
  rw [searchPath, List.length_map]
  exact shape.length_trail_le _ turn

theorem Sound.length_path_le (sound : graph.Sound shape) (looks : tree.graph = graph)
    (turn : Turn) : (tree.path order turn probe).visits.length ≤ shape.height := by
  rw [sound.spans.path_eq sound.usable looks]
  exact length_searchPath_le turn

variable {answer : Except Refusal Unit} {after : Graph} {whole : Shape} {log : Journal}

theorem Inserts.comparisons_le
    (inserts : graph.Inserts shape order probe answer after whole log) :
    log.comparisons ≤ shape.height := by
  have searched := @length_searchPath_le graph shape order probe .exact
  cases inserts with
  | length => exact Nat.zero_le _
  | duplicate => exact searched
  | full => exact searched
  | refused | inserted => simpa [comparisons] using searched

theorem Removes.comparisons_le
    (removes : graph.Removes shape order probe answer after whole log) :
    log.comparisons ≤ shape.height := by
  have searched := @length_searchPath_le graph shape order probe .exact
  cases removes with
  | short => exact Nat.zero_le _
  | empty => exact Nat.zero_le _
  | missing => exact searched
  | removed => simpa [comparisons] using searched

end Graph

/-- The comparisons of a lookup by key are those of its search, if there is one. -/
theorem length_recordFor_le (tree : Tree) (key : Bytes) (slot : Lookup (Option Slot)) :
    (tree.recordFor key slot).visits.length ≤ slot.visits.length := by
  unfold recordFor
  split
  · exact Nat.zero_le _
  · exact Nat.le_refl _

/-- No height or balance that a change computes on its way is too large for its field. -/
structure HeightsFit (tree : Tree) : Prop where
  insert : ∀ order record journal height later,
    Tree.insert order record ⟨tree, journal⟩ ≠ .error (.heightOverflow height) later
  remove : ∀ order key journal height later,
    Tree.remove order key ⟨tree, journal⟩ ≠ .error (.heightOverflow height) later

/-- Every call that changes the tree answers, and no call compares more often than `bound`
says. -/
structure ComparesWithin (tree : Tree) (bound : Nat) : Prop where
  get : ∀ order key, (tree.get order key).visits.length ≤ bound
  contains : ∀ order key, (tree.contains order key).visits.length ≤ bound
  next : ∀ order key, (tree.next order key).visits.length ≤ bound
  prev : ∀ order key, (tree.prev order key).visits.length ≤ bound
  insert : ∀ order record journal, ∃ answer later,
    Tree.insert order record ⟨tree, journal⟩ = .ok answer later ∧
      later.journal.comparisons ≤ journal.comparisons + bound
  remove : ∀ order key journal, ∃ answer later,
    Tree.remove order key ⟨tree, journal⟩ = .ok answer later ∧
      later.journal.comparisons ≤ journal.comparisons + bound

theorem Graph.Sound.comparesWithin {shape : Shape} (sound : tree.graph.Sound shape) :
    ComparesWithin tree shape.height where
  get := fun order key =>
    Nat.le_trans (length_recordFor_le tree key _) (sound.length_path_le rfl .exact)
  contains := fun order key => by
    unfold Tree.contains
    split
    · exact Nat.zero_le _
    · exact sound.length_path_le rfl .exact
  next := fun order key =>
    Nat.le_trans (length_recordFor_le tree key _) (sound.length_path_le rfl .above)
  prev := fun order key =>
    Nat.le_trans (length_recordFor_le tree key _) (sound.length_path_le rfl .below)
  insert := fun order record journal => by
    obtain ⟨answer, _, _, log, yields, inserts⟩ := sound.exists_inserts order record
    obtain ⟨final, ran, _⟩ := yields tree journal rfl
    exact ⟨answer, _, ran, Nat.add_le_add_left inserts.comparisons_le _⟩
  remove := fun order key journal => by
    obtain ⟨answer, _, _, log, yields, removes⟩ := sound.exists_removes order key
    obtain ⟨final, ran, _⟩ := yields tree journal rfl
    exact ⟨answer, _, ran, Nat.add_le_add_left removes.comparisons_le _⟩

theorem ComparesWithin.heightsFit {bound : Nat} (within : ComparesWithin tree bound) :
    HeightsFit tree where
  insert := fun order record journal height later faulted => by
    obtain ⟨answer, final, ran, _⟩ := within.insert order record journal
    rw [ran] at faulted
    contradiction
  remove := fun order key journal height later faulted => by
    obtain ⟨answer, final, ran, _⟩ := within.remove order key journal
    rw [ran] at faulted
    contradiction

/-- A reachable tree that is `h` high holds a Fibonacci number of records at least, so that it
is never higher than 44, no height that its changes compute is too large for its field, and no
call compares more often than there are levels. -/
theorem height_of_reachable (reachable : Reachable tree) :
    ∃ height, tree.height = .ok height ∧
      (∀ h, height = some h → Nat.fib (h + 3) - 1 ≤ tree.count ∧ h ≤ 44) ∧
        HeightsFit tree ∧ ComparesWithin tree (levels height) := by
  obtain ⟨shape, sound⟩ := reachable.sound
  refine ⟨shape.height?, sound.height_eq rfl, ?_, sound.comparesWithin.heightsFit, ?_⟩
  · intro h reported
    have low := sound.height_le
    rw [← levels_height?, reported, levels] at low
    exact ⟨Nat.sub_le_of_le_add (sound.fib_le reported), Nat.le_of_succ_le_succ low⟩
  · rw [levels_height?]
    exact sound.comparesWithin

/-- Four records make a tree of three levels, which no fewer would, and each call compares three
times at most. -/
theorem height_of_reachable_sparse :
    ∃ later,
      grown? { maxNodes := 4, nodeSize := 2, keySize := 1 } Host.plain (.leading 1)
          [[2, 0], [1, 0], [3, 0], [4, 0]] = some later ∧
        later.state.height = .ok (some 2) ∧ later.state.count = 4 ∧
          Nat.fib 5 - 1 ≤ later.state.count ∧ HeightsFit later.state ∧
            ComparesWithin later.state 3 := by
  have run :
      (grown? { maxNodes := 4, nodeSize := 2, keySize := 1 } Host.plain (.leading 1)
          [[2, 0], [1, 0], [3, 0], [4, 0]]).any (fun later =>
        decide (later.state.height = .ok (some 2) ∧ later.state.count = 4)) = true := by
    decide +kernel
  obtain ⟨later, grown, numbers⟩ := (Option.any_eq_true _ _).mp run
  obtain ⟨high, four⟩ := of_decide_eq_true numbers
  obtain ⟨height, reported, bounds, within⟩ := height_of_reachable (.of_grown grown)
  obtain rfl := Except.ok.inj (high.symm.trans reported)
  exact ⟨later, grown, high, four, (bounds 2 rfl).1, within⟩

end Tree

end SlabTree
