import Mathlib.Data.Finset.Card
import Mathlib.Logic.Relation
import SlabTree.Proofs.Arena.Requests
import SlabTree.Proofs.Tree.Verification
import SlabTree.Tree.Cursor

/-!
# Walking through damaged trees

The walk through a tree yields as many records as the tree counts at most.  Between two
records it follows links, to the left as far as they lead and up until it comes from the
left, and of these steps nothing keeps count.  On links that go round in a circle it does
not come back from them.

Here every such loop is cut off after a number of steps.  More steps than slots are live
come to the same, since a loop that long has been where it is before; so a walk that is
cut off for want of steps then is cut off whatever their number.
-/

namespace SlabTree

/-! ## Steps one after the other -/

section Repeated

variable {α : Type} {next : α → Option α} {start state after : α} {m n : Nat}

/-- Where `n` steps lead, when each of them leads somewhere. -/
def repeated (next : α → Option α) : Nat → α → Option α
  | 0, state => some state
  | n + 1, state => (next state).bind (repeated next n)

theorem repeated_add (m n : Nat) (start : α) :
    repeated next (m + n) start = (repeated next m start).bind (repeated next n) := by
  induction m generalizing start with
  | zero => rw [Nat.zero_add, repeated, Option.bind_some]
  | succ m inductionHypothesis =>
      rw [Nat.succ_add, repeated, repeated, Option.bind_assoc]
      exact Option.bind_congr fun between _ => inductionHypothesis between

/-- The last of some steps. -/
theorem repeated_succ (n : Nat) (start : α) :
    repeated next (n + 1) start = (repeated next n start).bind next := by
  rw [repeated_add]
  exact Option.bind_congr fun between _ => Option.bind_fun_some (next between)

/-- Steps that keep to a relation between places lead along it. -/
theorem transGen_of_repeated {β : Type} {R : β → β → Prop} {place : α → β}
    (related : ∀ state after, next state = some after → R (place state) (place after))
    (leads : repeated next (n + 1) start = some state) :
    Relation.TransGen R (place start) (place state) := by
  induction n generalizing state with
  | zero =>
      rw [repeated_succ] at leads
      exact .single (related _ _ leads)
  | succ n inductionHypothesis =>
      rw [repeated_succ] at leads
      obtain ⟨between, before, onward⟩ := Option.bind_eq_some_iff.mp leads
      exact (inductionHypothesis before).tail (related _ _ onward)

/-- What goes on for a number of steps has gone on for fewer. -/
theorem exists_repeated (long : repeated next n start ≠ none) (less : m ≤ n) :
    ∃ state, repeated next m start = some state := by
  obtain ⟨rest, rfl⟩ := Nat.exists_eq_add_of_le less
  rw [repeated_add] at long
  exact Option.ne_none_iff_exists'.mp fun none => long (by rw [none, Option.bind_none])

/-- What comes back to where it was goes on for any number of steps. -/
theorem repeated_ne_none (less : m < n) (again : repeated next m start = repeated next n start)
    (long : repeated next n start ≠ none) (steps : Nat) : repeated next steps start ≠ none := by
  induction steps using Nat.strong_induction_on with
  | h steps inductionHypothesis =>
      by_cases few : steps ≤ n
      · obtain ⟨state, leads⟩ := exists_repeated long few
        exact Option.ne_none_iff_exists'.mpr ⟨state, leads⟩
      · obtain ⟨more, rfl⟩ := Nat.exists_eq_add_of_lt (Nat.lt_of_not_le few)
        -- from the second time on the steps are those from the first time on
        have shorter := inductionHypothesis (m + (more + 1)) (by omega)
        rwa [Nat.add_assoc, repeated_add, ← again, ← repeated_add]

/-- Of more numbers below a bound than there are, two are the same. -/
theorem exists_same {f : Nat → Nat} {bound : Nat} (low : ∀ n, n ≤ bound → f n < bound) :
    ∃ m n, m < n ∧ n ≤ bound ∧ f m = f n := by
  have inside : ∀ n ∈ Finset.range (bound + 1), f n ∈ Finset.range bound := fun n member =>
    Finset.mem_range.mpr (low n (Nat.lt_succ_iff.mp (Finset.mem_range.mp member)))
  obtain ⟨m, inM, n, inN, different, same⟩ :=
    Finset.exists_ne_map_eq_of_card_lt_of_maps_to (by simp) inside
  rw [Finset.mem_range, Nat.lt_succ_iff] at inM inN
  rcases Nat.lt_or_gt_of_ne different with less | less
  · exact ⟨m, n, less, inN, same⟩
  · exact ⟨n, m, less, inM, same.symm⟩

/-- Among more steps than there are places two start in the same place.  Where the place says
how to go on, the steps go on for ever. -/
theorem exists_again {place : α → Nat} {bound : Nat}
    (low : ∀ state after, next state = some after → place state < bound)
    (only : ∀ first second after other, place first = place second → next first = some after →
      next second = some other → after = other)
    (long : repeated next (bound + 1) start ≠ none) :
    (∃ first second n, repeated next (n + 1) first = some second ∧
      place first = place second) ∧ ∀ steps, repeated next steps start ≠ none := by
  have : Nonempty α := ⟨start⟩
  have goesOn : ∀ n, n ≤ bound → ∃ state after, repeated next n start = some state ∧
      next state = some after := by
    intro n few
    obtain ⟨after, leads⟩ := exists_repeated long (Nat.succ_le_succ few)
    rw [repeated_succ] at leads
    obtain ⟨state, before, onward⟩ := Option.bind_eq_some_iff.mp leads
    exact ⟨state, after, before, onward⟩
  choose! states afters leads onward using goesOn
  obtain ⟨m, n, less, few, samePlace⟩ : ∃ m n, m < n ∧ n ≤ bound ∧
      place (states m) = place (states n) :=
    exists_same fun n few => low _ _ (onward n few)
  have fewer : m ≤ bound := Nat.le_trans (Nat.le_of_lt less) few
  constructor
  · obtain ⟨more, rfl⟩ := Nat.exists_eq_add_of_lt less
    have both := leads (m + (more + 1)) few
    rw [repeated_add, leads m fewer, Option.bind_some] at both
    exact ⟨states m, _, more, both, samePlace⟩
  · have again : repeated next (m + 1) start = repeated next (n + 1) start := by
      rw [repeated_succ, repeated_succ, leads m fewer, leads n few, Option.bind_some,
        Option.bind_some, onward m fewer, onward n few,
        only _ _ _ _ samePlace (onward m fewer) (onward n few)]
    exact repeated_ne_none (Nat.succ_lt_succ less) again
      (Option.ne_none_iff_exists'.mpr (exists_repeated long (Nat.succ_le_succ few)))

end Repeated

/-! ## Answers that take more steps -/

section Approximates

variable {α β : Type} {few many : Except Fault α}

/-- More steps come to what fewer come to, unless these were too few. -/
def Approximates (few many : Except Fault α) : Prop :=
  few = .error .endless ∨ many = few

theorem Approximates.refl (answer : Except Fault α) : Approximates answer answer :=
  Or.inr rfl

theorem Approximates.bind {f g : α → Except Fault β} (head : Approximates few many)
    (tail : ∀ answer, Approximates (f answer) (g answer)) :
    Approximates (few >>= f) (many >>= g) := by
  rcases head with endless | same
  · exact Or.inl (by rw [endless]; rfl)
  · subst same
    cases many with
    | ok answer => exact tail answer
    | error fault => exact Or.inr rfl

/-- Where the greater number of steps was too small, so was the smaller. -/
theorem Approximates.endless (approximates : Approximates few many)
    (endless : many = .error .endless) : few = .error .endless :=
  approximates.elim id fun same => same ▸ endless

/-- Every fault that comes out is of a kind. -/
def Faults (kind : Fault → Prop) (outcome : Except Fault α) : Prop :=
  ∀ fault, outcome = .error fault → kind fault

variable {kind : Fault → Prop}

theorem faults_ok (answer : α) : Faults kind (.ok answer : Except Fault α) := by
  intro fault stopped
  cases stopped

theorem Faults.bind {f : α → Except Fault β} (head : Faults kind few)
    (tail : ∀ answer, Faults kind (f answer)) : Faults kind (few >>= f) := by
  intro fault stopped
  cases few with
  | ok answer => exact tail answer fault stopped
  | error first => exact head fault (by cases stopped; rfl)

end Approximates

namespace Tree

variable {tree : Tree} {link : Link} {side : Side} {slot child parent : Slot}

/-! ## Links of damaged trees -/

/-- A link of a live slot leads from one slot to another. -/
def Points (tree : Tree) (link : Link) (slot target : Slot) : Prop :=
  tree.link slot link = .ok (some target)

/-- From some slot the links of a kind lead back to it. -/
def Circle (tree : Tree) (link : Link) : Prop :=
  ∃ slot, Relation.TransGen (tree.Points link) slot slot

/-- The fault of using a slot that is not live. -/
def Strays (tree : Tree) (fault : Fault) : Prop :=
  ∃ slot, tree.arena.live ≤ slot ∧ fault = .notLive slot tree.arena.live

theorem link_dead (dead : tree.arena.live ≤ slot) (link : Link) :
    tree.link slot link = .error (.notLive slot tree.arena.live) := by
  simp only [Tree.link, Arena.read, Arena.check_dead dead, Bind.bind, Except.bind, Except.map]

theorem payload_dead (dead : tree.arena.live ≤ slot) :
    tree.payload slot = .error (.notLive slot tree.arena.live) := by
  simp only [payload, Arena.read, Arena.check_dead dead, Bind.bind, Except.bind]

/-- What is read of a live slot and faults at a slot that is not strays at most. -/
theorem faults_of_dead {α : Type} {outcome : Except Fault α}
    (alive : slot < tree.arena.live → ∃ answer, outcome = .ok answer)
    (dead : tree.arena.live ≤ slot → outcome = .error (.notLive slot tree.arena.live)) :
    Faults tree.Strays outcome := by
  rcases Nat.lt_or_ge slot tree.arena.live with live | past
  · obtain ⟨answer, rfl⟩ := alive live
    exact faults_ok answer
  · intro fault stopped
    rw [dead past] at stopped
    cases stopped
    exact ⟨slot, past, rfl⟩

theorem faults_link (usable : tree.graph.Usable) (slot : Slot) (link : Link) :
    Faults tree.Strays (tree.link slot link) :=
  faults_of_dead (fun live => ⟨_, Graph.link_eq_ok usable live rfl link⟩)
    fun dead => link_dead dead link

theorem faults_payload (usable : tree.graph.Usable) (slot : Slot) :
    Faults tree.Strays (tree.payload slot) :=
  faults_of_dead (fun live => ⟨_, Graph.payload_eq_ok usable live rfl⟩) payload_dead

/-! ## Loops along links -/

/-- Where a link leads, if it can be read and leads anywhere. -/
def hop (tree : Tree) (link : Link) (slot : Slot) : Option Slot :=
  match tree.link slot link with
  | .ok target => target
  | .error _ => none

/-- The next child and parent on the way up, unless the child is a left one. -/
def ascend (tree : Tree) : Slot × Slot → Option (Slot × Slot)
  | (child, parent) =>
    if tree.hop .left parent = some child then none
    else (tree.hop .parent parent).map fun above => (parent, above)

theorem hop_eq_some_iff {target : Slot} :
    tree.hop link slot = some target ↔ tree.Points link slot target := by
  unfold hop Points
  cases tree.link slot link with
  | ok found => simp
  | error fault => simp

theorem live_of_points {target : Slot} (points : tree.Points link slot target) :
    slot < tree.arena.live := by
  unfold Points Tree.link at points
  cases ran : tree.arena.read slot link.offset (link.offset + Header.fieldSize) with
  | ok bytes => exact Arena.live_of_read ran
  | error fault => simp only [ran, Except.map, reduceCtorEq] at points

theorem points_of_ascend {first second : Slot × Slot} (climbs : tree.ascend first = some second) :
    tree.Points .parent first.2 second.2 ∧ second.1 = first.2 := by
  obtain ⟨child, parent⟩ := first
  by_cases reached : tree.hop .left parent = some child
  · rw [ascend, if_pos reached] at climbs
    cases climbs
  · rw [ascend, if_neg reached] at climbs
    obtain ⟨above, leads, rfl⟩ := Option.map_eq_some_iff.mp climbs
    exact ⟨hop_eq_some_iff.mp leads, rfl⟩

/-- Steps along links of a kind that come back to a slot go round in a circle. -/
theorem circle_of_repeated {α : Type} {next : α → Option α} {place : α → Slot}
    (points : ∀ state after, next state = some after → tree.Points link (place state) (place after))
    {n : Nat} {first second : α} (leads : repeated next (n + 1) first = some second)
    (back : place first = place second) : tree.Circle link := by
  have around := transGen_of_repeated points leads
  rw [← back] at around
  exact ⟨place first, around⟩

theorem outermostWithin_eq_endless_iff (usable : tree.graph.Usable) {steps : Nat} :
    tree.outermostWithin side steps slot = .error .endless ↔
      repeated (tree.hop side.link) steps slot ≠ none := by
  induction steps generalizing slot with
  | zero => simp [outermostWithin, repeated]
  | succ steps inductionHypothesis =>
      by_cases live : slot < tree.arena.live
      · have here := Graph.link_eq_ok usable live rfl side.link
        simp only [outermostWithin, repeated, hop, Tree.child, here, Bind.bind, Except.bind]
        cases (tree.graph.headers slot).link side.link with
        | none => simp
        | some next => exact inductionHypothesis
      · have dead := link_dead (Nat.le_of_not_lt live) side.link
        simp [outermostWithin, repeated, hop, Tree.child, dead, Bind.bind, Except.bind]

theorem climbWithin_eq_endless_iff (usable : tree.graph.Usable) {steps : Nat} :
    tree.climbWithin steps child (some parent) = .error .endless ↔
      repeated tree.ascend steps (child, parent) ≠ none := by
  induction steps generalizing child parent with
  | zero => simp [climbWithin, repeated]
  | succ steps inductionHypothesis =>
      by_cases live : parent < tree.arena.live
      · have onLeft := Graph.link_eq_ok usable live rfl .left
        have upward := Graph.link_eq_ok usable live rfl .parent
        simp only [climbWithin, repeated, ascend, hop, Tree.child, Side.link, onLeft, upward,
          Bind.bind, Except.bind]
        split
        · simp
        · cases (tree.graph.headers parent).link .parent with
          | none => simp [climbWithin]
          | some above => exact inductionHypothesis
      · have dead := link_dead (Nat.le_of_not_lt live)
        simp [climbWithin, repeated, ascend, hop, Tree.child, dead, Bind.bind, Except.bind]

/-! ## Enough steps -/

/-- More steps to one side than slots are live are as good as any number of them. -/
theorem outermostWithin_approximates {few many : Nat} (less : few ≤ many) :
    Approximates (tree.outermostWithin side few slot) (tree.outermostWithin side many slot) := by
  induction few generalizing slot many with
  | zero => exact Or.inl rfl
  | succ few inductionHypothesis =>
      obtain ⟨more, rfl⟩ := Nat.exists_eq_add_of_le less
      rw [Nat.succ_add, outermostWithin, outermostWithin]
      refine (Approximates.refl _).bind fun target => ?_
      cases target with
      | none => exact .refl _
      | some next => exact inductionHypothesis (Nat.le_add_right _ _)

theorem climbWithin_approximates {few many : Nat} {above : Option Slot} (less : few ≤ many) :
    Approximates (tree.climbWithin few child above) (tree.climbWithin many child above) := by
  induction few generalizing child above many with
  | zero =>
      cases above with
      | none => exact Or.inr (by cases many <;> rfl)
      | some parent => exact Or.inl rfl
  | succ few inductionHypothesis =>
      obtain ⟨more, rfl⟩ := Nat.exists_eq_add_of_le less
      cases above with
      | none => exact Or.inr (by cases more <;> rfl)
      | some parent =>
          rw [Nat.succ_add, climbWithin, climbWithin]
          refine (Approximates.refl _).bind fun left => ?_
          split
          · exact .refl _
          · exact (Approximates.refl _).bind fun _ => inductionHypothesis (Nat.le_add_right _ _)

/-- A loop that does not come to an end within more steps than slots are live goes along a circle
of links, and comes to no end at all. -/
theorem circle_of_outermost (usable : tree.graph.Usable)
    (long : tree.outermost side slot = .error .endless) :
    tree.Circle side.link ∧ ∀ steps, tree.outermostWithin side steps slot = .error .endless := by
  obtain ⟨⟨first, second, n, leads, back⟩, forever⟩ :=
    @exists_again _ (tree.hop side.link) slot id tree.arena.live
      (fun _ _ leads => live_of_points (hop_eq_some_iff.mp leads))
      (fun first second after other same leads leadsOther => by
        cases same
        exact Option.some.inj (leads.symm.trans leadsOther))
      ((outermostWithin_eq_endless_iff usable).mp long)
  exact ⟨circle_of_repeated (fun _ _ leads => hop_eq_some_iff.mp leads) leads back,
    fun steps => (outermostWithin_eq_endless_iff usable).mpr (forever steps)⟩

theorem circle_of_climb (usable : tree.graph.Usable) {above : Option Slot}
    (long : tree.climbWithin (tree.arena.live + 1) child above = .error .endless) :
    tree.Circle .parent ∧ ∀ steps, tree.climbWithin steps child above = .error .endless := by
  cases above with
  | none => cases long
  | some parent =>
      obtain ⟨⟨first, second, n, leads, back⟩, forever⟩ :=
        @exists_again _ tree.ascend (child, parent) Prod.snd tree.arena.live
          (fun _ _ climbs => live_of_points (points_of_ascend climbs).1)
          (fun first second after other same climbs climbsOther => by
            obtain ⟨up, below⟩ := points_of_ascend climbs
            obtain ⟨upOther, belowOther⟩ := points_of_ascend climbsOther
            rw [Points, same] at up
            refine Prod.ext (below.trans (same.trans belowOther.symm)) ?_
            exact Option.some.inj (Except.ok.inj (up.symm.trans upOther)))
          ((climbWithin_eq_endless_iff usable).mp long)
      exact ⟨circle_of_repeated (fun _ _ climbs => (points_of_ascend climbs).1) leads back,
        fun steps => (climbWithin_eq_endless_iff usable).mpr (forever steps)⟩

/-! ## Walks whose loops are cut off -/

/-- The next slot in order, where no loop takes more than so many steps. -/
def successorWithin (tree : Tree) (steps : Nat) (slot : Slot) : Except Fault (Option Slot) := do
  match ← tree.child slot .right with
  | some right => (tree.outermostWithin .left steps right).map some
  | none => tree.climbWithin steps slot (← tree.link slot .parent)

/-- At most `remaining` records from a slot on, where no loop takes more than so many steps. -/
def recordsFromWithin (tree : Tree) (steps : Nat) : Nat → Option Slot → Except Fault (List Bytes)
  | 0, _ => .ok []
  | _, none => .ok []
  | remaining + 1, some slot => do
      let upcoming ← tree.successorWithin steps slot
      let record ← tree.payload slot
      let rest ← recordsFromWithin tree steps remaining upcoming
      .ok (record :: rest)

/-- All records in order, where no loop takes more than so many steps. -/
def recordsWithin (tree : Tree) (steps : Nat) : Except Fault (List Bytes) :=
  match tree.root with
  | none => tree.recordsFromWithin steps tree.count none
  | some root => do
      let first ← tree.outermostWithin .left steps root
      tree.recordsFromWithin steps tree.count (some first)

/-- The kinds of fault with which a walk can end: it comes to a slot that is not live, or the
links that its loops follow go round in a circle. -/
def Interrupts (tree : Tree) (fault : Fault) : Prop :=
  tree.Strays fault ∨ fault = .endless ∧ (tree.Circle .left ∨ tree.Circle .parent)

theorem approximates_map {α β : Type} {few many : Except Fault α} (f : α → β)
    (approximates : Approximates few many) : Approximates (few.map f) (many.map f) := by
  rcases approximates with rfl | rfl
  · exact Or.inl rfl
  · exact Or.inr rfl

theorem successorWithin_approximates {few many : Nat} (less : few ≤ many) :
    Approximates (tree.successorWithin few slot) (tree.successorWithin many slot) := by
  refine (Approximates.refl _).bind fun right => ?_
  cases right with
  | some right => exact approximates_map some (outermostWithin_approximates less)
  | none => exact (Approximates.refl _).bind fun _ => climbWithin_approximates less

theorem recordsFromWithin_approximates {few many : Nat} (less : few ≤ many) (remaining : Nat)
    (upcoming : Option Slot) :
    Approximates (tree.recordsFromWithin few remaining upcoming)
      (tree.recordsFromWithin many remaining upcoming) := by
  induction remaining generalizing upcoming with
  | zero => exact .refl _
  | succ remaining inductionHypothesis =>
      cases upcoming with
      | none => exact .refl _
      | some slot =>
          refine (successorWithin_approximates less).bind fun next => ?_
          refine (Approximates.refl _).bind fun record => ?_
          exact (inductionHypothesis next).bind fun rest => .refl _

theorem recordsWithin_approximates {few many : Nat} (less : few ≤ many) :
    Approximates (tree.recordsWithin few) (tree.recordsWithin many) := by
  unfold recordsWithin
  cases tree.root with
  | none => exact recordsFromWithin_approximates less _ _
  | some root =>
      exact (outermostWithin_approximates less).bind fun first =>
        recordsFromWithin_approximates less _ _

/-- More steps than slots are live come to the same. -/
theorem outermostWithin_eq (usable : tree.graph.Usable) {steps : Nat}
    (enough : tree.arena.live < steps) :
    tree.outermostWithin side steps slot = tree.outermost side slot := by
  rcases @outermostWithin_approximates tree side slot _ _ enough with long | same
  · exact ((circle_of_outermost usable long).2 steps).trans long.symm
  · exact same

theorem climbWithin_eq (usable : tree.graph.Usable) {steps : Nat} {above : Option Slot}
    (enough : tree.arena.live < steps) :
    tree.climbWithin steps child above = tree.climbWithin (tree.arena.live + 1) child above := by
  rcases @climbWithin_approximates tree child _ _ above enough with long | same
  · exact ((circle_of_climb usable long).2 steps).trans long.symm
  · exact same

theorem successorWithin_eq (usable : tree.graph.Usable) {steps : Nat}
    (enough : tree.arena.live < steps) : tree.successorWithin steps slot = tree.successor slot := by
  refine congrArg (Bind.bind (tree.child slot .right)) (funext fun next => ?_)
  cases next with
  | some right => exact congrArg (Except.map some) (outermostWithin_eq usable enough)
  | none =>
      exact congrArg (Bind.bind (tree.link slot .parent)) (funext fun above =>
        climbWithin_eq usable enough)

theorem recordsFromWithin_eq (usable : tree.graph.Usable) {steps : Nat}
    (enough : tree.arena.live < steps) (remaining : Nat) (upcoming : Option Slot) :
    tree.recordsFromWithin steps remaining upcoming =
      Cursor.recordsFrom tree remaining upcoming := by
  induction remaining generalizing upcoming with
  | zero => rfl
  | succ remaining inductionHypothesis =>
      cases upcoming with
      | none => rfl
      | some slot =>
          simp only [recordsFromWithin, Cursor.recordsFrom, successorWithin_eq usable enough,
            inductionHypothesis]

theorem recordsWithin_eq (usable : tree.graph.Usable) {steps : Nat}
    (enough : tree.arena.live < steps) : tree.recordsWithin steps = tree.records := by
  unfold recordsWithin records cursor leftmost
  cases tree.root with
  | none => exact recordsFromWithin_eq usable enough _ _
  | some root =>
      simp only [outermostWithin_eq usable enough, recordsFromWithin_eq usable enough]
      cases tree.outermost .left root <;> rfl

/-- A walk that goes on for ever is cut off after any number of steps. -/
theorem recordsWithin_endless (usable : tree.graph.Usable)
    (endless : tree.records = .error .endless) (steps : Nat) :
    tree.recordsWithin steps = .error .endless := by
  rcases Nat.lt_or_ge tree.arena.live steps with enough | few
  · exact (recordsWithin_eq usable enough).trans endless
  · exact (recordsWithin_approximates (Nat.le_succ_of_le few)).endless
      ((recordsWithin_eq usable (Nat.lt_succ_self _)).trans endless)

/-! ## What a walk comes to -/

theorem faults_outermostWithin (usable : tree.graph.Usable) (steps : Nat) (slot : Slot) :
    Faults (fun fault => tree.Strays fault ∨ fault = .endless)
      (tree.outermostWithin side steps slot) := by
  induction steps generalizing slot with
  | zero =>
      intro fault stopped
      cases stopped
      exact Or.inr rfl
  | succ steps inductionHypothesis =>
      refine Faults.bind (fun fault stopped =>
        Or.inl (faults_link usable slot side.link fault stopped)) fun target => ?_
      cases target with
      | none => exact faults_ok slot
      | some next => exact inductionHypothesis next

theorem faults_climbWithin (usable : tree.graph.Usable) (steps : Nat) (child : Slot)
    (above : Option Slot) :
    Faults (fun fault => tree.Strays fault ∨ fault = .endless)
      (tree.climbWithin steps child above) := by
  induction steps generalizing child above with
  | zero =>
      cases above with
      | none => exact faults_ok none
      | some parent =>
          intro fault stopped
          cases stopped
          exact Or.inr rfl
  | succ steps inductionHypothesis =>
      cases above with
      | none => exact faults_ok none
      | some parent =>
          have strays : ∀ link, Faults (fun fault => tree.Strays fault ∨ fault = .endless)
              (tree.link parent link) := fun link fault stopped =>
            Or.inl (faults_link usable parent link fault stopped)
          refine (strays .left).bind fun left => ?_
          split
          · exact faults_ok _
          · exact (strays .parent).bind fun above => inductionHypothesis parent above

theorem faults_outermost (usable : tree.graph.Usable) (slot : Slot) :
    Faults tree.Interrupts (tree.outermost .left slot) := by
  intro fault stopped
  rcases faults_outermostWithin usable _ slot fault stopped with strays | rfl
  · exact Or.inl strays
  · exact Or.inr ⟨rfl, Or.inl (circle_of_outermost usable stopped).1⟩

theorem faults_climb (usable : tree.graph.Usable) (child : Slot) (above : Option Slot) :
    Faults tree.Interrupts (tree.climbWithin (tree.arena.live + 1) child above) := by
  intro fault stopped
  rcases faults_climbWithin usable _ child above fault stopped with strays | rfl
  · exact Or.inl strays
  · exact Or.inr ⟨rfl, Or.inr (circle_of_climb usable stopped).1⟩

theorem faults_successor (usable : tree.graph.Usable) (slot : Slot) :
    Faults tree.Interrupts (tree.successor slot) := by
  have strays : ∀ link, Faults tree.Interrupts (tree.link slot link) := fun link fault stopped =>
    Or.inl (faults_link usable slot link fault stopped)
  refine (strays .right).bind fun right => ?_
  cases right with
  | none => exact (strays .parent).bind fun above => faults_climb usable slot above
  | some right =>
      have onward : Faults tree.Interrupts (tree.leftmost right) := faults_outermost usable right
      exact onward.bind fun _ => faults_ok _

theorem faults_recordsFrom (usable : tree.graph.Usable) (remaining : Nat)
    (upcoming : Option Slot) :
    Faults tree.Interrupts (Cursor.recordsFrom tree remaining upcoming) := by
  induction remaining generalizing upcoming with
  | zero => exact faults_ok _
  | succ remaining inductionHypothesis =>
      cases upcoming with
      | none => exact faults_ok _
      | some slot =>
          refine (faults_successor usable slot).bind fun next => ?_
          refine Faults.bind
            (fun fault stopped => Or.inl (faults_payload usable slot fault stopped))
            fun record => ?_
          exact (inductionHypothesis next).bind fun rest => faults_ok _

theorem faults_records (usable : tree.graph.Usable) : Faults tree.Interrupts tree.records := by
  unfold records cursor
  cases tree.root with
  | none => exact faults_recordsFrom usable _ _
  | some root =>
      have first : Faults tree.Interrupts ((tree.leftmost root).map
          fun slot => (⟨some slot, tree.count⟩ : Cursor)) :=
        Faults.bind (faults_outermost usable root) fun _ => faults_ok _
      exact first.bind fun cursor => faults_recordsFrom usable _ _

theorem length_recordsFrom_le {remaining : Nat} {upcoming : Option Slot} {records : List Bytes}
    (walked : Cursor.recordsFrom tree remaining upcoming = .ok records) :
    records.length ≤ remaining := by
  induction remaining generalizing upcoming records with
  | zero =>
      cases walked
      exact Nat.le_refl 0
  | succ remaining inductionHypothesis =>
      cases upcoming with
      | none =>
          cases walked
          exact Nat.zero_le _
      | some slot =>
          obtain ⟨next, _, walked⟩ := exists_of_bind_eq_ok walked
          obtain ⟨record, _, walked⟩ := exists_of_bind_eq_ok walked
          obtain ⟨rest, onward, same⟩ := exists_of_bind_eq_ok walked
          cases same
          exact Nat.succ_le_succ (inductionHypothesis onward)

theorem length_records_le {records : List Bytes} (walked : tree.records = .ok records) :
    records.length ≤ tree.count := by
  obtain ⟨cursor, started, walked⟩ := exists_of_bind_eq_ok walked
  have counted : cursor.remaining = tree.count := by
    unfold Tree.cursor at started
    split at started
    · cases started
      rfl
    · obtain ⟨_, _, same⟩ := exists_of_bind_eq_ok started
      cases same
      rfl
  exact counted ▸ length_recordsFrom_le walked

/-- The walk through a tree comes to an end, whatever stands in the slots of a reachable tree, in
its root and in its count: after some number of steps at most in each loop along links it has
yielded no more records than the tree counts, or has come to a slot that is not live. -/
def IterationEnds : Prop :=
  ∀ tree damaged : Tree, Reachable tree → damaged.arena.ledger = tree.arena.ledger →
    damaged.options = tree.options → ∃ steps,
      (∃ records, damaged.recordsWithin steps = .ok records ∧
        records.length ≤ damaged.count) ∨
      ∃ fault, damaged.recordsWithin steps = .error fault ∧ damaged.Strays fault

/-- A node that is its own left child keeps the walk in its first loop. -/
theorem not_iterationEnds : ¬IterationEnds := by
  have run : ∃ made later damaged,
      Tree.create { maxNodes := 4, nodeSize := 2, keySize := 1 } Host.plain = .ok made ∧
        Tree.insert (.leading 1) [7, 1] ⟨made.state, {}⟩ = .ok (.ok ()) later ∧
          later.state.arena.live = 1 ∧
            Tree.setLink 0 .left (some 0) ⟨later.state, {}⟩ = .ok () damaged ∧
              damaged.state.records = .error .endless :=
    ⟨_, _, _, rfl, rfl, rfl, rfl, rfl⟩
  obtain ⟨made, later, damaged, created, inserted, one, damage, endless⟩ := run
  have reachable : Reachable later.state := .insert (.create created) inserted
  have usable := reachable.usable_of_damage rfl rfl
  have written := @Graph.yields_setLink later.state.graph 0 .left (some 0) usable
    (Nat.lt_of_lt_of_eq Nat.one_pos one.symm) (Slot.storable_some (by decide))
  obtain ⟨_, looks, _⟩ := final_of_yields written rfl damage
  have numbers : damaged.state.arena.ledger = later.state.arena.ledger :=
    congrArg Graph.ledger looks
  have options : damaged.state.options = later.state.options := congrArg Graph.options looks
  intro ends
  obtain ⟨steps, ends⟩ := ends later.state damaged.state reachable numbers options
  rw [recordsWithin_endless (reachable.usable_of_damage numbers options) endless] at ends
  rcases ends with ⟨_, answered, _⟩ | ⟨_, stopped, _, _, strays⟩
  · cases answered
  · cases stopped.trans (congrArg Except.error strays)

/-- Whatever comes to stand in the slots of a reachable tree, in its root and in its count, a walk
yields no more records than the tree counts.  It stops early at a slot that is not live, or it
goes on for ever, and this only where left links or parent links of live slots go round in a
circle.  More steps in a loop than slots are live make no difference, and a walk that goes on for
ever then needs more steps than any number. -/
theorem records_of_damage {damaged : Tree} (reachable : Reachable tree)
    (numbers : damaged.arena.ledger = tree.arena.ledger)
    (options : damaged.options = tree.options) :
    (∀ records, damaged.records = .ok records → records.length ≤ damaged.count) ∧
      (∀ fault, damaged.records = .error fault → damaged.Strays fault ∨
        fault = .endless ∧ (damaged.Circle .left ∨ damaged.Circle .parent)) ∧
        (∀ steps, damaged.arena.live < steps → damaged.recordsWithin steps = damaged.records) ∧
          (damaged.records = .error .endless →
            ∀ steps, damaged.recordsWithin steps = .error .endless) := by
  have usable := reachable.usable_of_damage numbers options
  exact ⟨fun _ => length_records_le, faults_records usable,
    fun _ => recordsWithin_eq usable, recordsWithin_endless usable⟩

/-- A node that is its own right child is yielded as often as the tree counts nodes. -/
theorem records_of_damage_cyclic :
    ∃ made later cyclic,
      Tree.create { maxNodes := 4, nodeSize := 2, keySize := 1 } Host.plain = .ok made ∧
        Tree.insert (.leading 1) [7, 1] ⟨made.state, {}⟩ = .ok (.ok ()) later ∧
          Tree.setLink 0 .right (some 0) ⟨later.state, {}⟩ = .ok () cyclic ∧
            ∃ records, ({ cyclic.state with count := 3 } : Tree).records = .ok records ∧
              records = [[7, 1], [7, 1], [7, 1]] ∧ records.length ≤ 3 ∧
                ∀ steps, 1 < steps →
                  ({ cyclic.state with count := 3 } : Tree).recordsWithin steps = .ok records := by
  have run : ∃ made later cyclic,
      Tree.create { maxNodes := 4, nodeSize := 2, keySize := 1 } Host.plain = .ok made ∧
        Tree.insert (.leading 1) [7, 1] ⟨made.state, {}⟩ = .ok (.ok ()) later ∧
          later.state.arena.live = 1 ∧
            Tree.setLink 0 .right (some 0) ⟨later.state, {}⟩ = .ok () cyclic ∧
              cyclic.state.arena.live = 1 ∧
                ({ cyclic.state with count := 3 } : Tree).records =
                  .ok [[7, 1], [7, 1], [7, 1]] :=
    ⟨_, _, _, rfl, rfl, rfl, rfl, rfl, rfl⟩
  obtain ⟨made, later, cyclic, created, inserted, one, damage, still, walked⟩ := run
  have reachable : Reachable later.state := .insert (.create created) inserted
  have storable : Slot.Storable (some 0) := Slot.storable_some (by decide)
  have written := @Graph.yields_setLink later.state.graph 0 .right (some 0)
    (reachable.usable_of_damage rfl rfl) (Nat.lt_of_lt_of_eq Nat.one_pos one.symm) storable
  obtain ⟨_, looks, _⟩ := final_of_yields written rfl damage
  obtain ⟨bounded, _, enough, _⟩ :=
    @records_of_damage _ { cyclic.state with count := 3 } reachable (congrArg Graph.ledger looks)
      (congrArg Graph.options looks)
  exact ⟨made, later, cyclic, created, inserted, damage, _, walked, rfl, bounded _ walked,
    fun steps more => (enough steps (Nat.lt_of_le_of_lt (Nat.le_of_eq still) more)).trans walked⟩

end Tree

end SlabTree
