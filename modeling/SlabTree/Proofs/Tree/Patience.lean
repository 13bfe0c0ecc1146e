import SlabTree.Proofs.Tree.Circles
import SlabTree.Proofs.Tree.Reachable

/-!
# Numbers of steps

A walk is given a number of steps and ends with a fault when they run out.  This is the only
part that the number has in anything: with more steps every operation does what it did with
fewer, unless these were too few.  So what an operation comes to with some number of steps is
what it comes to when nobody counts them.

There are two cases in which a number is known to be enough.  In a reachable tree no walk takes
more steps than slots are live.  And where the links of a tree are in disorder, an order that
always answers alike leads a search that takes more steps than that around in a circle, which
it never leaves; an order that changes its mind may still lead it out.
-/

namespace SlabTree

namespace Action

variable {σ α β : Type} {few many : Action σ α}

/-- An action with more steps does what one with fewer does, unless these were too few. -/
def Approximates (few many : Action σ α) : Prop :=
  ∀ session, (∃ later, few session = .error .endless later) ∨ many session = few session

theorem Approximates.refl (action : Action σ α) : Approximates action action :=
  fun _ => Or.inr rfl

theorem Approximates.bind {next onward : α → Action σ β} (head : Approximates few many)
    (tail : ∀ answer, Approximates (next answer) (onward answer)) :
    Approximates (few >>= next) (many >>= onward) := by
  intro session
  rcases head session with ⟨later, endless⟩ | same
  · exact Or.inl ⟨later, by simp only [Bind.bind, EStateM.bind, endless]⟩
  · simp only [Bind.bind, EStateM.bind, same]
    cases few session with
    | ok answer between => exact tail answer between
    | error fault between => exact Or.inr rfl

/-- What follows an action does not need to know how many steps it had. -/
theorem Approximates.then {next : α → Action σ β} (head : Approximates few many) :
    Approximates (few >>= next) (many >>= next) :=
  head.bind fun answer => .refl (next answer)

theorem approximates_read {f g : σ → Except Fault α}
    (told : ∀ state, SlabTree.Approximates (f state) (g state)) :
    Approximates (Action.read f) (Action.read g) := by
  intro session
  rcases told session.state with endless | same
  · exact Or.inl ⟨session, by simp only [Action.read, endless]⟩
  · exact Or.inr (by simp only [Action.read, same])

/-- An answer stays when there are more steps. -/
theorem Approximates.eq_of_ok (approximates : Approximates few many) {session later : Session σ}
    {answer : α} (ran : few session = .ok answer later) : many session = .ok answer later := by
  rcases approximates session with ⟨_, endless⟩ | same
  · rw [ran] at endless
    cases endless
  · rw [same, ran]

end Action

namespace Tree

variable {tree : Tree} {order : KeyOrder} {turn : Turn} {probe record key : Bytes}
  {few many steps : Nat} {start : Option Slot} {slot : Slot} {α : Type}

/-! ## Searches -/

/-- A path that is given more steps is the same, unless it was cut off. -/
theorem pathFrom_approximates (less : few ≤ many) (asked : Nat) :
    (tree.pathFrom order turn probe asked few start).fault = some .endless ∨
      tree.pathFrom order turn probe asked many start =
        tree.pathFrom order turn probe asked few start := by
  induction few generalizing many asked start with
  | zero =>
      cases start with
      | none => exact Or.inr (by cases many <;> rfl)
      | some slot => exact Or.inl rfl
  | succ few inductionHypothesis =>
      obtain ⟨more, rfl⟩ := Nat.exists_eq_add_of_le less
      cases start with
      | none => exact Or.inr (by cases more <;> rfl)
      | some slot =>
          rw [Nat.succ_add]
          simp only [pathFrom]
          split
          · exact Or.inr rfl
          next stored =>
            split
            · exact Or.inr rfl
            next side =>
              split
              · exact Or.inr rfl
              next target _ =>
                rcases @inductionHypothesis (few + more) target (Nat.le_add_right few more)
                  (asked + 1) with endless | same
                · exact Or.inl endless
                · exact Or.inr (by rw [same])

/-- A search that is given more steps is the same, unless it was cut off. -/
theorem ofPath_approximates (less : few ≤ many) (f : List Visit → α) :
    (Lookup.ofPath (tree.pathWithin few order turn probe) f).result = .error .endless ∨
      Lookup.ofPath (tree.pathWithin many order turn probe) f =
        Lookup.ofPath (tree.pathWithin few order turn probe) f := by
  rcases @pathFrom_approximates tree order turn probe few many tree.root less 0 with
    endless | same
  · exact Or.inl (by simp only [Lookup.ofPath, Path.answer, pathWithin, endless])
  · exact Or.inr (by simp only [pathWithin, same])

theorem consult_approximates {lookup other : Tree → Lookup α}
    (told : ∀ tree, (lookup tree).result = .error .endless ∨ other tree = lookup tree) :
    Action.Approximates (consult lookup) (consult other) := by
  intro session
  rcases told session.state with endless | same
  · refine Or.inl ⟨⟨session.state, session.journal.events,
      session.journal.comparisons + (lookup session.state).visits.length⟩, ?_⟩
    simp only [consult, Action.view, Action.noteComparisons, Action.read, Bind.bind,
      EStateM.bind, endless]
  · refine Or.inr ?_
    simp only [consult, Action.view, Bind.bind, EStateM.bind, same]

/-! ## Changes -/

theorem rebalanceWithin_approximates (less : few ≤ many) (slot : Option Slot) :
    Action.Approximates (rebalanceWithin few slot) (rebalanceWithin many slot) := by
  induction few generalizing many slot with
  | zero =>
      cases slot with
      | none =>
          cases many with
          | zero => exact .refl _
          | succ many => exact .refl _
      | some slot => exact fun session => Or.inl ⟨session, rfl⟩
  | succ few inductionHypothesis =>
      obtain ⟨more, rfl⟩ := Nat.exists_eq_add_of_le less
      cases slot with
      | none =>
          rw [Nat.succ_add]
          exact .refl _
      | some slot =>
          rw [Nat.succ_add]
          exact (Action.Approximates.refl (settle slot)).bind fun top =>
            (Action.Approximates.refl _).bind fun parent =>
              inductionHypothesis (Nat.le_add_right few more) parent

theorem insertAt_approximates (less : few ≤ many) (place : Option (Slot × Side)) (slot : Slot)
    (record : Bytes) :
    Action.Approximates (insertAt few place slot record) (insertAt many place slot record) :=
  (Action.Approximates.refl _).bind fun _ => (Action.Approximates.refl _).bind fun _ =>
    (Action.Approximates.refl _).bind fun _ => (Action.Approximates.refl _).bind fun _ =>
      (Action.Approximates.refl _).bind fun _ => rebalanceWithin_approximates less _

theorem unlink_approximates (less : few ≤ many) (slot : Slot) :
    Action.Approximates (unlink few slot) (unlink many slot) :=
  (Action.Approximates.refl _).bind fun _ => (Action.Approximates.refl _).bind fun _ =>
    (Action.Approximates.refl _).bind fun _ => rebalanceWithin_approximates less _

theorem prepareRemoval_approximates (less : few ≤ many) (slot : Slot) :
    Action.Approximates (prepareRemoval few slot) (prepareRemoval many slot) := by
  refine (Action.Approximates.refl _).bind fun header => ?_
  split
  · exact (Action.approximates_read fun _ => outermostWithin_approximates less).then
  · exact .refl _

theorem removeAt_approximates (less : few ≤ many) (slot : Slot) :
    Action.Approximates (removeAt few slot) (removeAt many slot) :=
  (prepareRemoval_approximates less slot).bind fun vacated =>
    (unlink_approximates less vacated).then

/-! ## Operations -/

/-- With more steps an insertion does what it did with fewer, unless these were too few. -/
theorem insertWithin_approximates (less : few ≤ many) (order : KeyOrder) (record : Bytes) :
    Action.Approximates (insertWithin few order record) (insertWithin many order record) := by
  refine (Action.Approximates.refl _).bind fun options => ?_
  split
  · exact .refl _
  refine (consult_approximates fun tree => ofPath_approximates less _).bind fun found => ?_
  dsimp only
  split
  · exact .refl _
  refine (Action.Approximates.refl _).bind fun count => ?_
  split
  · exact .refl _
  refine (Action.Approximates.refl _).bind fun taken => ?_
  split
  · exact .refl _
  · exact .refl _
  · exact (insertAt_approximates less _ _ record).then

/-- With more steps a removal does what it did with fewer, unless these were too few. -/
theorem removeWithin_approximates (less : few ≤ many) (order : KeyOrder) (key : Bytes) :
    Action.Approximates (removeWithin few order key) (removeWithin many order key) := by
  refine (Action.Approximates.refl _).bind fun checked => ?_
  split
  · exact .refl _
  refine (Action.Approximates.refl _).bind fun count => ?_
  split
  · exact .refl _
  refine (consult_approximates fun tree => ofPath_approximates less _).bind fun found => ?_
  split
  · exact .refl _
  · exact removeAt_approximates less _

/-- On a reachable tree, as many steps as slots are live are as good as any number of them. -/
theorem Reachable.within_eq (reachable : Reachable tree) (enough : tree.arena.live ≤ steps)
    (order : KeyOrder) (journal : Journal) :
    (∀ record, insertWithin steps order record ⟨tree, journal⟩ =
        Tree.insert order record ⟨tree, journal⟩) ∧
      ∀ key, removeWithin steps order key ⟨tree, journal⟩ =
        Tree.remove order key ⟨tree, journal⟩ := by
  obtain ⟨shape, sound⟩ := reachable.sound
  have limit : tree.arena.live ≤ walkLimit := sound.usable.live_le_walkLimit
  constructor
  · intro record
    obtain ⟨_, _, _, _, yields, _⟩ := sound.exists_insertsWithin (Nat.le_refl _) order record
    obtain ⟨_, ran, _⟩ := yields tree journal rfl
    exact ((insertWithin_approximates enough order record).eq_of_ok ran).trans
      ((insertWithin_approximates limit order record).eq_of_ok ran).symm
  · intro key
    obtain ⟨_, _, _, _, yields, _⟩ := sound.exists_removesWithin (Nat.le_refl _) order key
    obtain ⟨_, ran, _⟩ := yields tree journal rfl
    exact ((removeWithin_approximates enough order key).eq_of_ok ran).trans
      ((removeWithin_approximates limit order key).eq_of_ok ran).symm

/-! ## Orders that do not change their minds -/

end Tree

/-- The order gives the same answer whenever it is asked the same. -/
def KeyOrder.Steady (order : KeyOrder) : Prop :=
  ∀ asked probe stored, order.compare asked probe stored = order.compare 0 probe stored

namespace Tree

variable {tree : Tree} {order : KeyOrder} {turn : Turn} {probe : Bytes} {slot : Slot}
  {steps : Nat}

/-- Where a search goes on from a slot, if it does. -/
def onward (tree : Tree) (order : KeyOrder) (turn : Turn) (probe : Bytes) (slot : Slot) :
    Option Slot :=
  match tree.payload slot with
  | .error _ => none
  | .ok stored => (turn (order.compare 0 probe stored)).bind fun side => tree.hop side.link slot

theorem live_of_onward {target : Slot}
    (leads : tree.onward order turn probe slot = some target) : slot < tree.arena.live := by
  unfold onward at leads
  split at leads
  · cases leads
  next stored read => exact Arena.live_of_read read

/-- A search is cut off where each of its steps leads on. -/
theorem fault_pathFrom_eq_endless_iff (usable : tree.graph.Usable) (steady : order.Steady)
    (asked : Nat) :
    (tree.pathFrom order turn probe asked steps (some slot)).fault = some .endless ↔
      repeated (tree.onward order turn probe) steps slot ≠ none := by
  induction steps generalizing slot asked with
  | zero => simp [pathFrom, repeated, Path.stopped]
  | succ steps inductionHypothesis =>
      by_cases live : slot < tree.arena.live
      · have stored := Graph.payload_eq_ok usable live rfl
        have link := fun side : Side => Graph.link_eq_ok usable live rfl side.link
        simp only [pathFrom, repeated, onward, hop, child, stored, link, steady asked,
          Path.cons]
        cases turn (order.compare 0 probe (tree.graph.payloads slot)) with
        | none => simp [Path.stopped]
        | some side =>
            simp only [Option.bind_some]
            cases (tree.graph.headers slot).link side.link with
            | none => cases steps <;> simp [pathFrom, Path.stopped]
            | some target => exact inductionHypothesis (asked + 1)
      · have dead := payload_dead (Nat.le_of_not_lt live)
        simp [pathFrom, repeated, onward, dead, Path.stopped]

/-- A search by a steady order that takes more steps than slots are live never ends. -/
theorem endless_of_steady (usable : tree.graph.Usable) (steady : order.Steady)
    (enough : tree.arena.live < steps)
    (long : (tree.pathWithin steps order turn probe).fault = some .endless) (many : Nat) :
    (tree.pathWithin many order turn probe).fault = some .endless := by
  unfold pathWithin at long ⊢
  cases root : tree.root with
  | none =>
      rw [root] at long
      cases steps <;> cases long
  | some slot =>
      rw [root, fault_pathFrom_eq_endless_iff usable steady] at long
      rw [fault_pathFrom_eq_endless_iff usable steady]
      obtain ⟨state, leads⟩ := exists_repeated long enough
      exact (@exists_again _ (tree.onward order turn probe) slot id tree.arena.live
        (fun _ _ => live_of_onward)
        (fun first second after other same leads leadsOther => by
          cases same
          exact Option.some.inj (leads.symm.trans leadsOther))
        (by rw [leads]; exact Option.some_ne_none state)).2 many

/-- More steps than slots are live make no difference to a search by a steady order: it is the
same, or it is cut off whatever their number. -/
theorem path_of_steady (usable : tree.graph.Usable) (steady : order.Steady)
    (enough : tree.arena.live < steps) (turn : Turn) (probe : Bytes) (many : Nat)
    (more : steps ≤ many) :
    tree.pathWithin many order turn probe = tree.pathWithin steps order turn probe ∨
      ∀ number, (tree.pathWithin number order turn probe).fault = some .endless := by
  rcases @pathFrom_approximates tree order turn probe steps many tree.root more 0 with
    endless | same
  · exact Or.inr (endless_of_steady usable steady enough endless)
  · exact Or.inl same

end Tree

end SlabTree
