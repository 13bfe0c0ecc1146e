import SlabTree.Proofs.Tree.Patience

/-!
# Refused operations

An insertion or a removal that is refused has changed nothing, as long as the host backs
every page.  Up to the last check that may refuse, an operation only looks; and what comes
after it cannot be refused any more, because the number of live slots, on which taking and
freeing a slot depend, stays the same until the slot is taken or freed.  Nothing is asked of
the tree for this: it holds of damaged trees as well, and of searches that an order leads
around in a circle and out of it again.
-/

namespace SlabTree

namespace Arena

/-! ## Actions that neither take nor free a slot -/

theorem keeps_live_write (slot : Slot) (start : Nat) (data : Bytes) :
    Action.Keeps live (write slot start data) :=
  (Action.keeps_read _).bind fun _ => Action.keeps_update fun _ => rfl

theorem keeps_live_copyRange (source target : Slot) (start stop : Nat) :
    Action.Keeps live (copyRange source target start stop) := by
  refine (Action.keeps_read _).bind fun _ => (Action.keeps_read _).bind fun _ =>
    (Action.keeps_view _).bind fun _ => ?_
  split
  · split
    · exact Action.keeps_pure ()
    · exact (Action.keeps_read _).bind fun _ => (Action.keeps_read _).bind fun _ =>
        (Action.keeps_view _).bind fun _ => Action.keeps_update fun _ => rfl
  · exact Action.keeps_fail _

theorem keeps_live_copySlot (source target : Slot) :
    Action.Keeps live (copySlot source target) :=
  (Action.keeps_view _).bind fun _ => keeps_live_copyRange source target 0 _

/-! ## Taking and freeing slots -/

/-- A host that backs every page backs the next one. -/
theorem commitPage_answers {session later : Session Arena} {answer : Except Refusal Unit}
    (grants : session.state.region.host.Grants)
    (ran : commitPage session = .ok answer later) :
    answer = .ok () ∧ later.state.region.host = session.state.region.host := by
  replace ran := Action.run_of_bind_view ran
  obtain ⟨_, _, ran⟩ := Action.run_of_bind_read ran
  replace ran := Action.run_of_bind_view ran
  have backed : session.state.region.commitError = none := grants _
  rw [backed] at ran
  obtain ⟨_, _, logged, ran⟩ := Action.exists_of_bind_run ran
  cases logged
  obtain ⟨_, _, ran⟩ := Action.run_of_bind_read ran
  obtain ⟨_, _, changed, ran⟩ := Action.exists_of_bind_run ran
  cases changed
  cases ran
  exact ⟨rfl, rfl⟩

theorem commitPages_answers {n : Nat} {session later : Session Arena}
    {answer : Except Refusal Unit} (grants : session.state.region.host.Grants)
    (ran : commitPages n session = .ok answer later) : answer = .ok () := by
  induction n generalizing session with
  | zero =>
      cases ran
      rfl
  | succ n inductionHypothesis =>
      obtain ⟨committed, between, head, ran⟩ := Action.exists_of_bind_run ran
      obtain ⟨rfl, sameHost⟩ := commitPage_answers grants head
      exact inductionHypothesis (sameHost ▸ grants) ran

/-- With a host that backs every page, a slot is refused only by a full arena, before anything is
done. -/
theorem allocate_refused {session later : Session Arena} {refusal : Refusal}
    (grants : session.state.region.host.Grants)
    (ran : allocate session = .ok (.error refusal) later) :
    refusal = .arenaFull ∧ later = session := by
  replace ran := Action.run_of_bind_view ran
  replace ran := Action.run_of_bind_view ran
  split at ran
  · cases ran
    exact ⟨rfl, rfl⟩
  · -- From here on a slot is handed out.
    obtain ⟨_, _, ran⟩ := Action.run_of_bind_read ran
    obtain ⟨_, _, ran⟩ := Action.run_of_bind_read ran
    replace ran := Action.run_of_bind_view ran
    obtain ⟨committed, between, committing, ran⟩ := Action.exists_of_bind_run ran
    obtain rfl := commitPages_answers grants committing
    have granted : Except.error refusal = .ok session.state.live :=
      Action.always_bind (fun _ => Action.always_bind fun _ => Action.always_pure _) _ _ _ ran
    cases granted

/-- The last slot is freed as long as there is one. -/
theorem free_answers {session later : Session Arena} {answer : Except Refusal Unit}
    (used : session.state.live ≠ 0) (ran : free session = .ok answer later) :
    answer = .ok () := by
  replace ran := Action.run_of_bind_view ran
  rw [if_neg used] at ran
  refine Action.always_bind (fun _ => Action.always_bind fun preallocated => ?_) _ _ _ ran
  split
  · exact Action.always_pure _
  · exact Action.always_bind fun _ => Action.always_bind fun _ => Action.always_bind fun _ =>
      Action.always_pure _

end Arena

namespace Tree

variable {α : Type}

/-! ## Actions that neither take nor free a slot -/

/-- The number of slots that are live. -/
def liveSlots (tree : Tree) : Nat :=
  tree.arena.live

/-- What an action of the arena that answers does, it does to the tree. -/
theorem exists_of_onArena {action : Action Arena α} {session later : Session Tree} {answer : α}
    (ran : onArena action session = .ok answer later) :
    ∃ final, action ⟨session.state.arena, session.journal⟩ = .ok answer final ∧
      later = ⟨{ session.state with arena := final.state }, final.journal⟩ := by
  obtain ⟨⟨arena, root, count, options, counters⟩, journal⟩ := session
  unfold onArena at ran
  cases inside : action ⟨arena, journal⟩ with
  | ok given final =>
      simp only [inside] at ran
      cases ran
      exact ⟨final, rfl, rfl⟩
  | error fault final =>
      simp only [inside] at ran
      cases ran

theorem keeps_live_onArena {action : Action Arena α} (inArena : Action.Keeps Arena.live action) :
    Action.Keeps liveSlots (onArena action) := by
  intro session answer later ran
  obtain ⟨final, inside, rfl⟩ := exists_of_onArena ran
  exact inArena _ _ _ inside

theorem keeps_live_setLink (slot : Slot) (link : Link) (target : Option Slot) :
    Action.Keeps liveSlots (setLink slot link target) :=
  keeps_live_onArena (Arena.keeps_live_write _ _ _)

theorem keeps_live_updateHeight (slot : Slot) : Action.Keeps liveSlots (updateHeight slot) :=
  (Action.keeps_read _).bind fun _ => keeps_live_onArena (Arena.keeps_live_write _ _ _)

theorem keeps_live_updateCounters (f : Counters → Counters) :
    Action.Keeps liveSlots (updateCounters f) :=
  Action.keeps_update fun _ => rfl

theorem keeps_live_setRoot (root : Option Slot) : Action.Keeps liveSlots (setRoot root) :=
  Action.keeps_update fun _ => rfl

theorem keeps_live_adopt (child parent : Option Slot) :
    Action.Keeps liveSlots (adopt child parent) := by
  cases child with
  | none => exact Action.keeps_pure ()
  | some child => exact keeps_live_setLink child .parent parent

theorem keeps_live_replaceChild (parent : Option Slot) (old : Slot) (new : Option Slot) :
    Action.Keeps liveSlots (replaceChild parent old new) := by
  cases parent with
  | none => exact keeps_live_setRoot new
  | some parent => exact (Action.keeps_read _).bind fun _ => keeps_live_setLink parent _ new

theorem keeps_live_corrupt (slot : Slot) (balance : Int) :
    Action.Keeps liveSlots (corrupt slot balance : Action Tree α) :=
  (Action.keeps_log _).bind fun _ => Action.keeps_fail _

theorem keeps_live_requireChild (slot : Slot) (side : Side) :
    Action.Keeps liveSlots (requireChild slot side) := by
  refine (Action.keeps_read _).bind fun child => ?_
  cases child with
  | none => exact (Action.keeps_read _).bind fun balance => keeps_live_corrupt slot balance
  | some child => exact Action.keeps_pure child

theorem keeps_live_rotate (side : Side) (slot : Slot) :
    Action.Keeps liveSlots (rotate side slot) := by
  refine (Action.keeps_read _).bind fun parent =>
    (keeps_live_requireChild slot side).bind fun pivot => (Action.keeps_read _).bind fun inner => ?_
  refine (keeps_live_setLink slot _ inner).bind fun _ =>
    (keeps_live_adopt inner _).bind fun _ => (keeps_live_setLink pivot _ _).bind fun _ =>
      (keeps_live_setLink slot _ _).bind fun _ =>
        (keeps_live_setLink pivot _ parent).bind fun _ => ?_
  exact (keeps_live_replaceChild parent slot _).bind fun _ =>
    (keeps_live_updateHeight slot).bind fun _ => (keeps_live_updateHeight pivot).bind fun _ =>
      (Action.keeps_log _).bind fun _ => Action.keeps_pure pivot

theorem keeps_live_mend (side : Side) (slot : Slot) :
    Action.Keeps liveSlots (mend side slot) := by
  refine (keeps_live_requireChild slot side).bind fun child =>
    (Action.keeps_read _).bind fun balance => ?_
  split
  · exact (keeps_live_updateCounters _).bind fun _ => keeps_live_rotate side slot
  · exact (keeps_live_updateCounters _).bind fun _ =>
      (keeps_live_rotate side.flip child).bind fun _ => keeps_live_rotate side slot

theorem keeps_live_settle (slot : Slot) : Action.Keeps liveSlots (settle slot) := by
  refine (keeps_live_updateHeight slot).bind fun _ => (Action.keeps_read _).bind fun balance => ?_
  split
  · exact Action.keeps_pure slot
  split
  · exact keeps_live_mend .left slot
  split
  · exact keeps_live_mend .right slot
  · exact keeps_live_corrupt slot balance

theorem keeps_live_rebalanceWithin (steps : Nat) (slot : Option Slot) :
    Action.Keeps liveSlots (rebalanceWithin steps slot) := by
  induction steps generalizing slot with
  | zero =>
      cases slot with
      | none => exact Action.keeps_pure ()
      | some slot => exact Action.keeps_fail _
  | succ steps inductionHypothesis =>
      cases slot with
      | none => exact Action.keeps_pure ()
      | some slot =>
          exact (keeps_live_settle slot).bind fun _ =>
            (Action.keeps_read _).bind fun parent => inductionHypothesis parent

theorem keeps_live_unlink (steps : Nat) (slot : Slot) :
    Action.Keeps liveSlots (unlink steps slot) :=
  (Action.keeps_read _).bind fun _ => (keeps_live_adopt _ _).bind fun _ =>
    (keeps_live_replaceChild _ slot _).bind fun _ => keeps_live_rebalanceWithin steps _

theorem keeps_live_relocate (source target : Slot) :
    Action.Keeps liveSlots (relocate source target) :=
  (keeps_live_onArena (Arena.keeps_live_copySlot source target)).bind fun _ =>
    (Action.keeps_read _).bind fun _ => (keeps_live_replaceChild _ source _).bind fun _ =>
      (keeps_live_adopt _ _).bind fun _ => (keeps_live_adopt _ _).bind fun _ =>
        (Action.keeps_log _).bind fun _ => keeps_live_updateCounters _

theorem keeps_live_prepareRemoval (steps : Nat) (slot : Slot) :
    Action.Keeps liveSlots (prepareRemoval steps slot) := by
  refine (Action.keeps_read _).bind fun header => ?_
  split
  · exact (Action.keeps_read _).bind fun successor => (Action.keeps_view _).bind fun _ =>
      (keeps_live_onArena (Arena.keeps_live_copyRange successor slot _ _)).bind fun _ =>
        Action.keeps_pure successor
  · exact Action.keeps_pure slot

/-! ## Removals -/

theorem free_answers {session later : Session Tree} {answer : Except Refusal Unit}
    (used : session.state.liveSlots ≠ 0) (ran : onArena Arena.free session = .ok answer later) :
    answer = .ok () := by
  obtain ⟨_, freed, _⟩ := exists_of_onArena ran
  exact Arena.free_answers used freed

/-- As long as a slot is live, a slot can be given up. -/
theorem releaseSlot_answers {vacated : Slot} {session later : Session Tree}
    {answer : Except Refusal Unit} (used : session.state.liveSlots ≠ 0)
    (ran : releaseSlot vacated session = .ok answer later) : answer = .ok () := by
  replace ran := Action.run_of_bind_view ran
  have last : session.state.arena.last? = some (session.state.arena.live - 1) := if_neg used
  simp only [last] at ran
  split at ran
  · exact free_answers used ran
  · obtain ⟨_, moved, relocated, ran⟩ := Action.exists_of_bind_run ran
    have stillUsed : moved.state.liveSlots ≠ 0 := by
      rwa [keeps_live_relocate _ vacated _ _ _ relocated]
    exact free_answers stillUsed ran

/-- A removal that has found its slot is not refused any more. -/
theorem removeAt_answers {steps : Nat} {slot : Slot} {session later : Session Tree}
    {answer : Except Refusal Unit} (used : session.state.liveSlots ≠ 0)
    (ran : removeAt steps slot session = .ok answer later) : answer = .ok () := by
  obtain ⟨vacated, prepared, preparing, ran⟩ := Action.exists_of_bind_run ran
  obtain ⟨_, unlinked, unlinking, ran⟩ := Action.exists_of_bind_run ran
  obtain ⟨released, freed, releasing, ran⟩ := Action.exists_of_bind_run ran
  have stillUsed : unlinked.state.liveSlots ≠ 0 := by
    rw [keeps_live_unlink steps vacated _ _ _ unlinking,
      keeps_live_prepareRemoval steps slot _ _ _ preparing]
    exact used
  rw [releaseSlot_answers stillUsed releasing] at ran
  exact Action.always_bind (fun _ => Action.always_bind fun _ => Action.always_pure _) _ _ _ ran

/-! ## Lookups -/

/-- A lookup that answers leaves the tree as it is. -/
theorem state_of_consult {lookup : Tree → Lookup α} {session later : Session Tree} {answer : α}
    (ran : consult lookup session = .ok answer later) :
    later.state = session.state ∧ (lookup session.state).result = .ok answer := by
  replace ran := Action.run_of_bind_view ran
  obtain ⟨_, _, noted, ran⟩ := Action.exists_of_bind_run ran
  cases noted
  cases told : (lookup session.state).result with
  | error fault =>
      simp only [Action.read, told] at ran
      cases ran
  | ok given =>
      simp only [Action.read, told] at ran
      cases ran
      exact ⟨rfl, rfl⟩

/-- A path that visits a slot starts in a tree with live slots. -/
theorem used_of_visits {tree : Tree} {order : KeyOrder} {turn : Turn} {probe : Bytes}
    {asked steps : Nat} {start : Option Slot}
    (visited : (tree.pathFrom order turn probe asked steps start).visits ≠ []) :
    tree.liveSlots ≠ 0 := by
  cases start with
  | none => cases steps <;> exact absurd rfl visited
  | some slot =>
      cases steps with
      | zero => exact absurd rfl visited
      | succ steps =>
          cases stored : tree.payload slot with
          | error fault =>
              rw [pathFrom, stored] at visited
              exact absurd rfl visited
          | ok bytes => exact Nat.ne_of_gt (Nat.zero_lt_of_lt (Arena.live_of_read stored))

theorem used_of_located {tree : Tree} {steps : Nat} {order : KeyOrder} {key : Bytes} {slot : Slot}
    (located : (tree.locateWithin steps order key).result = .ok (some slot)) :
    tree.liveSlots ≠ 0 := by
  apply @used_of_visits tree order .exact key 0 steps tree.root
  intro nowhere
  simp only [locateWithin, Lookup.ofPath, Path.answer] at located
  split at located
  · cases located
  · rw [pathWithin, nowhere] at located
    cases located

/-! ## Refusals -/

/-- An insertion that is refused has changed nothing, and it is refused for the length of
the record, an equal record, or want of room. -/
theorem insertWithin_refused {steps : Nat} {order : KeyOrder} {record : Bytes}
    {session later : Session Tree} {refusal : Refusal}
    (grants : session.state.arena.region.host.Grants)
    (ran : insertWithin steps order record session = .ok (.error refusal) later) :
    later.state = session.state ∧
      refusal ∈ [.invalidArgument .recordLength, .duplicateKey, .capacityExceeded] := by
  replace ran := Action.run_of_bind_view ran
  split at ran
  · cases ran
    exact ⟨rfl, by simp⟩
  obtain ⟨⟨equal, place⟩, searched, searching, ran⟩ := Action.exists_of_bind_run ran
  obtain ⟨same, _⟩ := state_of_consult searching
  dsimp only at ran
  split at ran
  · cases ran
    exact ⟨same, by simp⟩
  replace ran := Action.run_of_bind_view ran
  split at ran
  · obtain ⟨_, _, logged, ran⟩ := Action.exists_of_bind_run ran
    cases logged
    cases ran
    exact ⟨same, by simp⟩
  obtain ⟨taken, allocated, allocating, ran⟩ := Action.exists_of_bind_run ran
  cases taken with
  | error reason =>
      obtain ⟨final, inArena, rfl⟩ := exists_of_onArena allocating
      obtain ⟨rfl, rfl⟩ := Arena.allocate_refused (same.symm ▸ grants) inArena
      cases ran
      exact ⟨same, by simp⟩
  | ok slot =>
      have inserted : Except.error refusal = .ok () :=
        Action.always_bind (fun _ => Action.always_pure _) _ _ _ ran
      cases inserted

theorem refused_of_checkKey {tree : Tree} {key : Bytes} {refusal : Refusal}
    (checked : tree.checkKey key = .error refusal) : refusal = .invalidArgument .shortKey := by
  unfold checkKey at checked
  split at checked
  · cases checked
    rfl
  · cases checked

/-- A removal that is refused has changed nothing, and it is refused for the length of the
key, an empty tree, or want of an equal record. -/
theorem removeWithin_refused {steps : Nat} {order : KeyOrder} {key : Bytes}
    {session later : Session Tree} {refusal : Refusal}
    (ran : removeWithin steps order key session = .ok (.error refusal) later) :
    later.state = session.state ∧
      refusal ∈ [.invalidArgument .shortKey, .emptyTree, .notFound] := by
  replace ran := Action.run_of_bind_view ran
  cases checked : session.state.checkKey key with
  | error reason =>
      simp only [checked] at ran
      cases ran
      exact ⟨rfl, by simp [refused_of_checkKey checked]⟩
  | ok _ =>
      simp only [checked] at ran
      replace ran := Action.run_of_bind_view ran
      split at ran
      · cases ran
        exact ⟨rfl, by simp⟩
      obtain ⟨found, searched, searching, ran⟩ := Action.exists_of_bind_run ran
      obtain ⟨same, located⟩ := state_of_consult searching
      cases found with
      | none =>
          cases ran
          exact ⟨same, by simp⟩
      | some slot =>
          have used : searched.state.liveSlots ≠ 0 := same ▸ used_of_located located
          cases removeAt_answers used ran

/-- Whatever tree there is, sound or damaged, whatever the order and whatever number of steps its
walks take: with a host that backs every page, an insertion or a removal that is refused leaves the
tree, its arena and its counters as they were; nothing but a bad argument, an equal record, want of
room, an empty tree or want of an equal record is a reason to refuse it; and it is refused as well
when its walks may take more steps than that. -/
theorem unchanged_of_refused {tree : Tree} (grants : tree.arena.region.host.Grants)
    (order : KeyOrder) (steps : Nat) (journal : Journal) (refusal : Refusal)
    (later : Session Tree) :
    (∀ record, insertWithin steps order record ⟨tree, journal⟩ = .ok (.error refusal) later →
      later.state = tree ∧
        refusal ∈ [.invalidArgument .recordLength, .duplicateKey, .capacityExceeded] ∧
          ∀ more, steps ≤ more →
            insertWithin more order record ⟨tree, journal⟩ = .ok (.error refusal) later) ∧
      ∀ key, removeWithin steps order key ⟨tree, journal⟩ = .ok (.error refusal) later →
        later.state = tree ∧ refusal ∈ [.invalidArgument .shortKey, .emptyTree, .notFound] ∧
          ∀ more, steps ≤ more →
            removeWithin more order key ⟨tree, journal⟩ = .ok (.error refusal) later := by
  constructor
  · intro record ran
    obtain ⟨same, reason⟩ := insertWithin_refused grants ran
    exact ⟨same, reason, fun more less =>
      (insertWithin_approximates less order record).eq_of_ok ran⟩
  · intro key ran
    obtain ⟨same, reason⟩ := removeWithin_refused ran
    exact ⟨same, reason, fun more less => (removeWithin_approximates less order key).eq_of_ok ran⟩

/-- A node that is its own left child, under an order that says less five times and then something
else: the search goes around in five circles and out of them.  An insertion finds an equal record
and a removal finds none, as soon as their searches may take so many steps.  If the tree loses
sight of the node altogether, the arena alone refuses another record. -/
theorem unchanged_of_refused_circling :
    ∃ made grown bent equal absent lost full,
      Tree.create { maxNodes := 1, nodeSize := 2, keySize := 1 } Host.plain = .ok made ∧
        Tree.insert (.leading 1) [7, 1] ⟨made.state, {}⟩ = .ok (.ok ()) grown ∧
        Tree.setLink 0 .left (some 0) ⟨grown.state, {}⟩ = .ok () bent ∧
        (∀ more, 6 ≤ more →
          insertWithin more ⟨fun asked _ _ => if asked < 5 then .lt else .eq, 0⟩ [9, 1]
            ⟨bent.state, {}⟩ = .ok (.error .duplicateKey) equal) ∧
        equal.state = bent.state ∧ equal.journal.comparisons = 6 ∧
        (∀ more, 6 ≤ more →
          removeWithin more ⟨fun asked _ _ => if asked < 5 then .lt else .gt, 0⟩ [9]
            ⟨bent.state, {}⟩ = .ok (.error .notFound) absent) ∧
        absent.state = bent.state ∧
        lost = { bent.state with root := none, count := 0 } ∧
        Tree.insert (.leading 1) [9, 1] ⟨lost, {}⟩ = .ok (.error .capacityExceeded) full ∧
        full.state = lost := by
  have run : ∃ made grown bent equal absent lost full,
      Tree.create { maxNodes := 1, nodeSize := 2, keySize := 1 } Host.plain = .ok made ∧
        Tree.insert (.leading 1) [7, 1] ⟨made.state, {}⟩ = .ok (.ok ()) grown ∧
        Tree.setLink 0 .left (some 0) ⟨grown.state, {}⟩ = .ok () bent ∧
        insertWithin 6 ⟨fun asked _ _ => if asked < 5 then .lt else .eq, 0⟩ [9, 1]
          ⟨bent.state, {}⟩ = .ok (.error .duplicateKey) equal ∧
        equal.journal.comparisons = 6 ∧
        removeWithin 6 ⟨fun asked _ _ => if asked < 5 then .lt else .gt, 0⟩ [9]
          ⟨bent.state, {}⟩ = .ok (.error .notFound) absent ∧
        lost = { bent.state with root := none, count := 0 } ∧
        insertWithin walkLimit (.leading 1) [9, 1] ⟨lost, {}⟩ =
          .ok (.error .capacityExceeded) full ∧
        bent.state.arena.region.host = Host.plain ∧ lost.arena.region.host = Host.plain :=
    ⟨_, _, _, _, _, _, _, rfl, rfl, rfl, rfl, rfl, rfl, rfl, rfl, rfl, rfl⟩
  obtain ⟨made, grown, bent, equal, absent, lost, full, created, inserted, bending, found, six,
    missing, losing, crowded, sameHost, lostHost⟩ := run
  have grants : bent.state.arena.region.host.Grants := sameHost ▸ fun _ => rfl
  have lostGrants : lost.arena.region.host.Grants := lostHost ▸ fun _ => rfl
  obtain ⟨stillEqual, _, equalLater⟩ := (unchanged_of_refused grants _ 6 {} _ equal).1 _ found
  obtain ⟨stillAbsent, _, absentLater⟩ :=
    (unchanged_of_refused grants _ 6 {} _ absent).2 _ missing
  obtain ⟨stillLost, _, _⟩ :=
    (unchanged_of_refused lostGrants _ walkLimit {} _ full).1 _ crowded
  exact ⟨made, grown, bent, equal, absent, lost, full, created, inserted, bending, equalLater,
    stillEqual, six, absentLater, stillAbsent, losing, crowded, stillLost⟩

end Tree

end SlabTree
