import Mathlib.Logic.Relation
import SlabTree.Proofs.Shared.Runs
import SlabTree.Proofs.Tree.Reachable
import SlabTree.Shared.Call

/-!
# Sections take effect one after the other

However the steps of the workers of a forest interleave, the sections that are finished
answer what they answer if they are done one after the other, and they leave the trees as
if they were.  They are lined up in the order of their last guards, and so as they got the
guards that clash.
-/

namespace SlabTree.Shared

open Lock (Mode System)

variable {α β : Type} {start forest after later : Forest α} {trace more : List Acquisition}
  {i n t : Nat}

/-! ## Calls -/

/-- What an action comes to on a tree of one's own, and the tree that it leaves. -/
def ended (action : Action Tree β) (tree : Tree) : Except Fault β × Tree :=
  match action ⟨tree, {}⟩ with
  | .ok answer after => (.ok answer, after.state)
  | .error fault after => (.error fault, after.state)

/-- A section does an action on a tree that it has to itself. -/
structure DoesAction (part : Section (Except Fault Answer)) (t : Nat)
    (action : KeyOrder → Action Tree β) (wrap : β → Answer) : Prop where
  guard_eq : part.guard = ⟨t, .exclusive⟩
  run_eq : ∀ (trees : Trees) (shared : SharedTree), trees t = some shared →
    part.run trees = some ((ended (action shared.order) shared.tree).1.map wrap,
      trees.modify t fun _ => (ended (action shared.order) shared.tree).2)

/-- A section asks a tree under a guard that others may share. -/
structure AsksQuery (part : Section (Except Fault Answer)) (t : Nat)
    (query : KeyOrder → Tree → Except Fault β) (wrap : β → Answer) : Prop where
  guard_eq : part.guard = ⟨t, .shared⟩
  run_eq : ∀ (trees : Trees) (shared : SharedTree), trees t = some shared →
    part.run trees = some ((query shared.order shared.tree).map wrap, trees)

theorem doesAction_writing {action : KeyOrder → Action Tree β} {wrap : β → Answer} :
    DoesAction (.writing t fun order => do pure (wrap (← action order))) t action wrap where
  guard_eq := rfl
  run_eq := by
    intro trees shared there
    simp only [Section.run, Section.whole, Section.writing, Work.run, there, ended]
    cases ran : action shared.order ⟨shared.tree, {}⟩ with
    | ok answer after =>
        rw [Action.bind_run ran]
        rfl
    | error fault after =>
        have faults : (do pure (wrap (← action shared.order)) : Action Tree Answer)
            ⟨shared.tree, {}⟩ = .error fault after := by
          simp only [bind, EStateM.bind, ran]
        rw [faults]
        rfl

theorem asksQuery_reading {query : KeyOrder → Tree → Except Fault β} {wrap : β → Answer} :
    AsksQuery (.reading t fun order tree => (query order tree).map wrap) t query wrap where
  guard_eq := rfl
  run_eq := by
    intro trees shared there
    simp only [Section.run, Section.whole, Section.reading, Work.run, there]

/-! ## Runs -/

/-- The chains of steps from a forest to another, with the guards that sections got on the
way. -/
inductive Run (start : Forest α) : List Acquisition → Forest α → Prop
  | nil : Run start [] start
  | step {trace : List Acquisition} {forest after : Forest α} {i : Nat}
      (run : Run start trace forest) (moves : forest.Moves i after) :
      Run start (trace ++ forest.acquired i after) after

/-- Steps all through which a worker is in the middle of a section with a shared guard on a
tree. -/
def StaysReader (i t : Nat) : Forest α → Forest α → Prop :=
  Relation.ReflTransGen fun before after => (∃ j, before.Moves j after) ∧
    ∃ progress, after.scene.inside i = some progress ∧ ⟨t, .shared⟩ ∈ progress.guards

namespace Forest

/-- Nobody has begun: all locks are free, and all workers idle. -/
structure Fresh (forest : Forest α) : Prop where
  free : ∀ system ∈ forest.locks,
    system = System.initial (forest.workers.length * forest.hands)
  idle : ∀ worker ∈ forest.workers,
    worker.stage = .idle ∧ worker.guards = [] ∧ worker.answers = []

/-- Trees that have just been shared are a fresh forest, and so they are with any workers. -/
theorem fresh_plant (trees : List Tree) (locking : Locking) (hands : Nat) :
    (plant trees locking hands : Forest α).Fresh where
  free := by
    intro system member
    have free : system = System.initial 0 := by
      cases locking with
      | internal => exact List.eq_of_mem_replicate member
      | external => exact List.mem_singleton.mp member
    simp [free, plant]
  idle := by
    intro worker member
    cases member

theorem Fresh.hire (fresh : forest.Fresh) (sections : List (Section α)) :
    (forest.hire sections).1.Fresh where
  free := by
    intro system member
    obtain ⟨before, inside, rfl⟩ := List.mem_map.mp member
    rw [fresh.free before inside]
    simp [Forest.hire, System.initial, Nat.succ_mul]
  idle := by
    intro worker member
    rcases List.mem_append.mp member with old | new
    · exact fresh.idle worker old
    · rw [List.mem_singleton.mp new]
      exact ⟨rfl, rfl, rfl⟩

theorem Fresh.workerAt (fresh : forest.Fresh) (i : Nat) :
    (forest.workerAt i).stage = .idle ∧ (forest.workerAt i).guards = [] ∧
      (forest.workerAt i).answers = [] :=
  forest.workerAt_induct ⟨rfl, rfl, rfl⟩ fresh.idle i

theorem Fresh.inside_eq_none (fresh : forest.Fresh) (i : Nat) : forest.scene.inside i = none :=
  Worker.inside?_of_idle (fresh.workerAt i).1

theorem Fresh.orderly (fresh : forest.Fresh) :
    Orderly (forest.workers.length * forest.hands) forest where
  locks := by
    intro system member
    rw [fresh.free system member]
    exact .initial
  idle i _ := (fresh.workerAt i).2.1
  fits i := by
    rw [(fresh.workerAt i).2.1]
    exact Nat.zero_le _
  room := by
    intro i guard work takes
    cases (fresh.workerAt i).1.symm.trans takes
  held := by
    intro i progress inside
    cases (fresh.inside_eq_none i).symm.trans inside

end Forest

theorem Forest.Moves.becomes (moves : forest.Moves i after) (orderly : forest.Orderly n) :
    after.Orderly n ∧ forest.scene.Becomes (forest.acquired i after) after.scene := by
  obtain ⟨worker, there, acts⟩ := moves.acts
  exact ⟨acts.orderly there orderly, acts.becomes there orderly⟩

theorem Run.follows (run : Run start trace forest) (fresh : start.Fresh)
    (few : start.workers.length * start.hands < 2 ^ 29) :
    forest.Orderly (start.workers.length * start.hands) ∧
      start.scene.Follows trace forest.scene := by
  induction run with
  | nil =>
      exact ⟨fresh.orderly, Scene.follows_self fresh.inside_eq_none fun i => (fresh.workerAt i).2.2⟩
  | step _ moves inductionHypothesis =>
      obtain ⟨orderly, follows⟩ := inductionHypothesis
      obtain ⟨orderlyAfter, becomes⟩ := moves.becomes orderly
      have apart := (orderly.apart few).congr follows.lock?_trees
      have apartAfter := (orderlyAfter.apart few).congr
        (becomes.lock?_trees.trans follows.lock?_trees)
      exact ⟨orderlyAfter, follows.becomes becomes apart apartAfter⟩

/-- A reader sees one and the same tree as long as it has its guard. -/
theorem Forest.Orderly.tree?_eq {progress : Progress α} (orderly : forest.Orderly n)
    (few : n < 2 ^ 29) (inside : forest.scene.inside i = some progress)
    (reads : ⟨t, .shared⟩ ∈ progress.guards) (stays : StaysReader i t forest later) :
    later.tree? t = forest.tree? t := by
  suffices all : later.Orderly n ∧
      (∃ now, later.scene.inside i = some now ∧ ⟨t, .shared⟩ ∈ now.guards) ∧
      later.tree? t = forest.tree? t from all.2.2
  induction stays with
  | refl => exact ⟨orderly, ⟨progress, inside, reads⟩, rfl⟩
  | tail _ next inductionHypothesis =>
      obtain ⟨orderly, ⟨now, insideNow, readsNow⟩, same⟩ := inductionHypothesis
      obtain ⟨⟨j, moves⟩, still⟩ := next
      obtain ⟨orderlyAfter, becomes⟩ := moves.becomes orderly
      exact ⟨orderlyAfter, still,
        (becomes.trees_eq (orderly.apart few) insideNow readsNow).trans same⟩

/-! ## Sections in turn -/

/-- Shared trees are linearizable.  Take any run of workers that have fewer than 2 ^ 29 hands
together, each with any sections, under any guards on any of the trees, whose locks are their
own or shared; and line the sections up in the order of their last guards.

Done one after the other in this order, on trees of one's own, the finished sections answer
what they answered; and each tree that nobody is about to change is as they then leave it.
Every finished section is in the line, and none is twice.  If one section gets a guard and
later another gets one that clashes with it, the first is finished and stands before the
other; and so does a section that has got all its guards when the other gets its first.  A
reader sees one and the same tree from its guard on to its end.  And as a section, each call
does what the call of the same name does on a tree of one's own, the two that change the tree
under an exclusive guard and the others under a shared one. -/
theorem sequential_of_run (fresh : start.Fresh)
    (few : start.workers.length * start.hands < 2 ^ 29) (run : Run start trace forest) :
    (∃ trees, InTurn (Does start.scene.section?) start.tree? (forest.scene.history (lineUp trace))
          trees ∧
        ∀ t, forest.scene.Quiet t → forest.tree? t = trees t) ∧
      (∀ ticket answer, (ticket, answer) ∈ forest.scene.history (lineUp trace) ↔
        forest.scene.answer? ticket = some answer) ∧
      (lineUp trace).Nodup ∧
      (∀ before later after, trace = before ++ later :: after → ∀ earlier ∈ before,
        earlier.ticket ≠ later.ticket → Trees.Clash start.tree? earlier.guard later.guard →
          (∃ answer, forest.scene.answer? earlier.ticket = some answer) ∧
            [earlier.ticket, later.ticket].Sublist (lineUp trace)) ∧
      (∀ before after first second, trace = before ++ after →
        (∃ acquisition ∈ before, acquisition.ticket = first) →
          (∀ acquisition ∈ after, acquisition.ticket ≠ first) →
            (∃ acquisition ∈ after, acquisition.ticket = second) →
              [first, second].Sublist (lineUp trace)) ∧
      (∀ i t progress later, forest.scene.inside i = some progress →
        ⟨t, .shared⟩ ∈ progress.guards → StaysReader i t forest later →
          later.tree? t = forest.tree? t) ∧
      ∀ t, (∀ record, DoesAction ((Call.insert record).section t) t
          (fun order => Tree.insert order record) .changed) ∧
        (∀ key, DoesAction ((Call.remove key).section t) t
          (fun order => Tree.remove order key) .changed) ∧
        AsksQuery (Call.first.section t) t (fun _ tree => tree.first) .record ∧
        (∀ key, AsksQuery ((Call.next key).section t) t
          (fun order tree => (tree.next order key).result) .record) ∧
        (∀ buffer, AsksQuery ((Call.firstInto buffer).section t) t
          (fun _ tree => tree.firstInto buffer) .copied) ∧
        (∀ key buffer, AsksQuery ((Call.nextInto key buffer).section t) t
          (fun order tree => (tree.nextInto order key buffer).result) .copied) ∧
        AsksQuery (Call.stats.section t) t (fun _ tree => .ok tree.stats) .stats ∧
        AsksQuery (Call.verify.section t) t (fun order tree => tree.verify order) .report := by
  obtain ⟨orderly, _, filed, ordered, trees, agrees⟩ := run.follows fresh few
  refine ⟨⟨trees, ?_, agrees.quiet⟩, ?_, nodup_lineUp trace, ?_, ?_, ?_, ?_⟩
  · exact agrees.turns.mono fun entry _ before after done => done.does
  · intro ticket answer
    exact Scene.mem_history.trans
      ⟨fun both => both.2, fun answered => ⟨filed.placed ticket answer answered, answered⟩⟩
  · intro before later after parts earlier member different clash
    obtain ⟨finished, none⟩ := ordered.clashed before later after parts earlier member different
      clash
    refine ⟨finished, ?_⟩
    rw [parts]
    exact sublist_lineUp_append ⟨earlier, member, rfl⟩ none ⟨later, List.mem_cons_self, rfl⟩
  · rintro before after first second rfl early done late
    exact sublist_lineUp_append early done late
  · intro i t progress later inside reads stays
    exact orderly.tree?_eq few inside reads stays
  · intro t
    exact ⟨fun record => @doesAction_writing _ t (fun order => Tree.insert order record) .changed,
      fun key => @doesAction_writing _ t (fun order => Tree.remove order key) .changed,
      @asksQuery_reading _ t (fun _ tree => tree.first) .record,
      fun key => @asksQuery_reading _ t (fun order tree => (tree.next order key).result) .record,
      fun buffer => @asksQuery_reading _ t (fun _ tree => tree.firstInto buffer) .copied,
      fun key buffer => @asksQuery_reading _ t
        (fun order tree => (tree.nextInto order key buffer).result) .copied,
      @asksQuery_reading _ t (fun _ tree => .ok tree.stats) .stats,
      @asksQuery_reading _ t (fun order tree => tree.verify order) .report⟩

/-! ## Runs by a schedule -/

/-- Lets workers step in the order of a schedule; none if one of them cannot go on. -/
def Forest.follow? (forest : Forest α) : List Nat → Option (List Acquisition × Forest α)
  | [] => some ([], forest)
  | i :: rest => do
    let after ← forest.step? i
    let (more, last) ← after.follow? rest
    some (forest.acquired i after ++ more, last)

theorem Run.follow {schedule : List Nat} (run : Run start trace forest)
    (follows : forest.follow? schedule = some (more, later)) :
    Run start (trace ++ more) later := by
  induction schedule generalizing trace forest more with
  | nil =>
      cases follows
      rwa [List.append_nil]
  | cons i rest inductionHypothesis =>
      obtain ⟨after, stepped, follows⟩ := Option.bind_eq_some_iff.mp follows
      obtain ⟨⟨others, last⟩, onward, result⟩ := Option.bind_eq_some_iff.mp follows
      cases result
      rw [← List.append_assoc]
      exact inductionHypothesis (run.step (.step stepped)) onward

/-- Makes a call on a tree with the first record of another one, with guards on both. -/
def carrying (source target : Nat) (call : Bytes → Call) : Section (Except Fault Answer) where
  guard := ⟨source, .shared⟩
  work := .look source fun shared =>
    match shared.tree.first with
    | .ok (.ok record) => ((call record).section target).whole
    | .ok (.error refusal) => .done (.ok (.record (.error refusal)))
    | .error fault => .done (.error fault)

/-- Three trees, the first two of them behind one lock, and three workers with two hands each:
one that inserts what is first in the third tree into the first one, one that inserts a record
into the second, and one that looks up in the first what comes after the first record of the
second. -/
def grove (sown grafted : Tree) : Forest (Except Fault Answer) where
  locks := [System.initial 6, System.initial 6]
  trees := [some ⟨sown, .leading 1, 0⟩, some ⟨sown, .leading 1, 0⟩,
    some ⟨grafted, .leading 1, 1⟩]
  workers := [{ pending := [carrying 2 0 .insert] },
    { pending := [(Call.insert [6, 0]).section 1] }, { pending := [carrying 1 0 .next] }]
  hands := 2

theorem fresh_grove (sown grafted : Tree) : (grove sown grafted).Fresh where
  free := by simp [grove]
  idle := by simp [grove]

deriving instance DecidableEq for Answer

/-- The first worker reads the third tree, and meanwhile the second one inserts its record into
the second tree.  The third worker gets two shared guards behind one lock, and the first has to
wait for both of them to go before it can insert its own record.  So it began first, but is the
last one in the line. -/
theorem sequential_of_run_together :
    ∃ (sown grafted : Session Tree) (forest : Forest (Except Fault Answer))
      (trace : List Acquisition) (trees : Trees),
      Tree.grown? { maxNodes := 4, nodeSize := 2, keySize := 1 } Host.plain (.leading 1)
          [[1, 0], [3, 0]] = some sown ∧
        Tree.grown? { maxNodes := 4, nodeSize := 2, keySize := 1 } Host.plain (.leading 1)
          [[2, 0], [7, 0]] = some grafted ∧
        Run (grove sown.state grafted.state) trace forest ∧
        trace = [⟨⟨0, 0⟩, ⟨2, .shared⟩⟩, ⟨⟨1, 0⟩, ⟨1, .exclusive⟩⟩, ⟨⟨2, 0⟩, ⟨1, .shared⟩⟩,
          ⟨⟨2, 0⟩, ⟨0, .shared⟩⟩, ⟨⟨0, 0⟩, ⟨0, .exclusive⟩⟩] ∧
        forest.scene.history (lineUp trace) = [(⟨1, 0⟩, .ok (.changed (.ok ()))),
          (⟨2, 0⟩, .ok (.record (.ok [3, 0]))), (⟨0, 0⟩, .ok (.changed (.ok ())))] ∧
        InTurn (Does (grove sown.state grafted.state).scene.section?)
          (grove sown.state grafted.state).tree? (forest.scene.history (lineUp trace)) trees ∧
        (∀ t, forest.tree? t = trees t) ∧
        (forest.tree? 0).map (·.tree.count) = some 3 := by
  have run :
      (Tree.grown? { maxNodes := 4, nodeSize := 2, keySize := 1 } Host.plain (.leading 1)
          [[1, 0], [3, 0]]).any (fun sown : Session Tree =>
        (Tree.grown? { maxNodes := 4, nodeSize := 2, keySize := 1 } Host.plain (.leading 1)
            [[2, 0], [7, 0]]).any fun grafted : Session Tree =>
          ((grove sown.state grafted.state).follow?
              [0, 0, 0, 1, 1, 1, 1, 1, 1, 1, 1, 1, 1, 1, 2, 2, 2, 2, 2, 0, 0,
                2, 2, 2, 2, 2, 2, 2, 2, 2, 0, 0, 0, 0, 0, 0, 0]).any fun run =>
            decide (run.1 = [⟨⟨0, 0⟩, ⟨2, .shared⟩⟩, ⟨⟨1, 0⟩, ⟨1, .exclusive⟩⟩,
                ⟨⟨2, 0⟩, ⟨1, .shared⟩⟩, ⟨⟨2, 0⟩, ⟨0, .shared⟩⟩, ⟨⟨0, 0⟩, ⟨0, .exclusive⟩⟩] ∧
              run.2.scene.history (lineUp run.1) = [(⟨1, 0⟩, .ok (.changed (.ok ()))),
                (⟨2, 0⟩, .ok (.record (.ok [3, 0]))), (⟨0, 0⟩, .ok (.changed (.ok ())))] ∧
              (∀ worker ∈ run.2.workers, worker.inside? = none) ∧
              (run.2.tree? 0).map (·.tree.count) = some 3)) = true := by
    decide +kernel
  obtain ⟨sown, grownSown, run⟩ := (Option.any_eq_true _ _).mp run
  obtain ⟨grafted, grownGrafted, run⟩ := (Option.any_eq_true _ _).mp run
  obtain ⟨⟨trace, forest⟩, follows, told⟩ := (Option.any_eq_true _ _).mp run
  obtain ⟨got, answered, outside, counted⟩ := of_decide_eq_true told
  have steps := Run.nil.follow follows
  obtain ⟨⟨trees, turns, agrees⟩, _⟩ :=
    sequential_of_run (fresh_grove sown.state grafted.state) (show 3 * 2 < 2 ^ 29 by decide) steps
  refine ⟨sown, grafted, forest, trace, trees, grownSown, grownGrafted, steps, got, answered,
    turns, fun t => agrees t fun i progress inside => ?_, counted⟩
  have nobody := @Forest.workerAt_induct _ forest (fun worker => worker.inside? = none) rfl
    outside i
  cases nobody.symm.trans inside

end SlabTree.Shared
