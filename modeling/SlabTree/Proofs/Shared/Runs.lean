import SlabTree.Proofs.Lock.Exclusion
import SlabTree.Proofs.Shared.Scene
import SlabTree.Shared.Forest

/-!
# Runs of a forest

Most steps of a worker are steps at a lock, and nothing of them is to be seen on the trees.
What is to be seen is that a section begins, that it gets a guard, which is when its worker
comes to hold the lock, that it looks at a tree or changes it, and that it ends, before its
worker starts to give the locks back.  Whoever is in the middle of a section holds the locks
of all its guards, each from a seat of its own, and no two workers share a seat.  So exclusion of
threads at the locks keeps guards that clash apart.
-/

namespace SlabTree

/-! ## Moves at a lock -/

namespace Lock

variable {system after : System} {thread other : Nat} {point next : Point} {mode : Mode}

/-- The thread moved. -/
def System.Moved (thread : Nat) (before after : System) : Prop :=
  ∃ point move, before.threads[thread]? = some point ∧ point.Moves before.core move ∧
    after = before.apply thread move

theorem System.exists_of_start? {call : Call} (started : system.start? thread call = some after) :
    ∃ point next, system.threads[thread]? = some point ∧ point.start? call = some next ∧
      after = system.setPoint thread next := by
  obtain ⟨point, there, rest⟩ := Option.bind_eq_some_iff.mp started
  obtain ⟨next, starts, result⟩ := Option.bind_eq_some_iff.mp rest
  exact ⟨point, next, there, starts, (Option.some.inj result).symm⟩

theorem System.moved_of_start? {call : Call} (started : system.start? thread call = some after) :
    system.Moved thread after := by
  obtain ⟨point, next, there, starts, rfl⟩ := exists_of_start? started
  exact ⟨point, _, there, .start starts, rfl⟩

theorem System.moved_of_step? (stepped : system.step? thread = some after) :
    system.Moved thread after := by
  obtain ⟨point, there, rest⟩ := Option.bind_eq_some_iff.mp stepped
  obtain ⟨move, moves, result⟩ := Option.bind_eq_some_iff.mp rest
  exact ⟨point, move, there, .step moves, (Option.some.inj result).symm⟩

theorem System.moved_of_misfire? (misfired : system.misfire? thread = some after) :
    system.Moved thread after := by
  obtain ⟨point, there, rest⟩ := Option.bind_eq_some_iff.mp misfired
  obtain ⟨next, misfires, result⟩ := Option.bind_eq_some_iff.mp rest
  exact ⟨point, _, there, .misfire misfires, (Option.some.inj result).symm⟩

theorem System.Moved.step (moved : system.Moved thread after) : Step system after := by
  obtain ⟨point, move, there, moves, rfl⟩ := moved
  cases moves with
  | @start call next started =>
      refine @Step.start _ thread call _ ?_
      simp only [System.start?, there, started, Option.bind_eq_bind, Option.bind_some]
      rfl
  | step stepped =>
      refine @Step.step _ thread _ ?_
      simp only [System.step?, there, stepped, Option.bind_eq_bind, Option.bind_some]
  | @misfire next misfired =>
      refine @Step.misfire _ thread _ ?_
      simp only [System.misfire?, there, misfired, Option.bind_eq_bind, Option.bind_some]
      rfl

theorem woken_eq_holding_iff : point.woken = .holding mode ↔ point = .holding mode := by
  unfold Point.woken
  split <;> simp

/-- Whether a thread holds a lock does not change when others move. -/
theorem System.Moved.holding_iff (moved : system.Moved thread after) (distinct : other ≠ thread) :
    after.point other = .holding mode ↔ system.point other = .holding mode := by
  obtain ⟨point, move, there, _, rfl⟩ := moved
  rw [System.point_apply move there, if_neg distinct]
  split
  · exact woken_eq_holding_iff
  · rfl

end Lock

namespace Shared

open Lock (Mode System)

variable {α : Type} {forest after start : Forest α} {worker state : Worker α}
  {i j k t u n : Nat} {guard : Guard} {guards : List Guard} {system next : System}

/-! ## What is to be seen of a forest -/

namespace Worker

/-- How far a worker has got in its section. -/
def inside? (worker : Worker α) : Option (Progress α) :=
  match worker.stage with
  | .acquiring guard next => some ⟨.take guard next, worker.guards⟩
  | .working work => some ⟨work, worker.guards⟩
  | .idle | .leaving => none

theorem inside?_of_idle (stage : worker.stage = .idle) : worker.inside? = none := by
  rw [inside?, stage]

theorem inside?_of_acquiring {work : Work α} (stage : worker.stage = .acquiring guard work) :
    worker.inside? = some ⟨.take guard work, worker.guards⟩ := by
  rw [inside?, stage]

theorem inside?_of_working {work : Work α} (stage : worker.stage = .working work) :
    worker.inside? = some ⟨work, worker.guards⟩ := by
  rw [inside?, stage]

theorem inside?_of_leaving (stage : worker.stage = .leaving) : worker.inside? = none := by
  rw [inside?, stage]

end Worker

namespace Forest

/-- A worker; one that does not exist has nothing to do. -/
def workerAt (forest : Forest α) (i : Nat) : Worker α :=
  forest.workers[i]?.getD {}

/-- The lock that a guard is on is held from a seat. -/
def Holds (forest : Forest α) (seat : Nat) (guard : Guard) : Prop :=
  ∃ system, forest.lockOf? guard.tree = some system ∧ system.point seat = .holding guard.mode

/-- A worker holds the locks that guards are on, each from its own seat. -/
def HoldsAll (forest : Forest α) (i : Nat) : List Guard → Prop
  | [] => True
  | guard :: rest => rest.length < forest.hands ∧
      forest.Holds (forest.seat i rest.length) guard ∧ forest.HoldsAll i rest

/-- What is to be seen of a forest. -/
def scene (forest : Forest α) : Scene α where
  trees := forest.tree?
  inside i := (forest.workerAt i).inside?
  upcoming i := (forest.workerAt i).pending
  answers i := (forest.workerAt i).answers

/-! ## Changes of a forest -/

theorem workerAt_eq (there : forest.workers[i]? = some worker) : forest.workerAt i = worker := by
  rw [workerAt, there, Option.getD_some]

/-- What is true of a worker with nothing to do and of all others is true at any number. -/
theorem workerAt_induct (forest : Forest α) {P : Worker α → Prop} (none : P {})
    (all : ∀ worker ∈ forest.workers, P worker) (i : Nat) : P (forest.workerAt i) := by
  unfold workerAt
  cases there : forest.workers[i]? with
  | none => exact none
  | some worker => exact all worker (List.mem_of_getElem? there)

theorem getElem?_setWorker (there : forest.workers[i]? = some worker) (state : Worker α) :
    (forest.setWorker i state).workers[i]? = some state :=
  List.getElem?_set_self (List.getElem?_eq_some_iff.mp there).1

theorem workerAt_setWorker (different : j ≠ i) :
    (forest.setWorker i state).workerAt j = forest.workerAt j := by
  rw [workerAt, setWorker, List.getElem?_set_ne (Ne.symm different), workerAt]

theorem setWorker_self (there : forest.workers[i]? = some worker) :
    forest.setWorker i worker = forest := by
  obtain ⟨inside, here⟩ := List.getElem?_eq_some_iff.mp there
  rw [setWorker, ← here, List.set_getElem_self]

@[simp]
theorem workers_setLockOf : (forest.setLockOf t next).workers = forest.workers := by
  unfold setLockOf
  split <;> rfl

@[simp]
theorem trees_setLockOf : (forest.setLockOf t next).trees = forest.trees := by
  unfold setLockOf
  split <;> rfl

@[simp]
theorem hands_setLockOf : (forest.setLockOf t next).hands = forest.hands := by
  unfold setLockOf
  split <;> rfl

theorem getElem?_setLockOf (there : forest.workers[i]? = some worker) :
    (forest.setLockOf t next).workers[i]? = some worker := by
  rwa [workers_setLockOf]

@[simp]
theorem workerAt_setLockOf : (forest.setLockOf t next).workerAt = forest.workerAt := by
  funext i
  rw [workerAt, workers_setLockOf, workerAt]

@[simp]
theorem tree?_setLockOf : (forest.setLockOf t next).tree? = forest.tree? := by
  funext u
  rw [tree?, trees_setLockOf, tree?]

/-- The tree that a lock is that of. -/
theorem exists_of_lockOf? (lock : forest.lockOf? t = some system) :
    ∃ shared, forest.tree? t = some shared ∧ forest.locks[shared.lock]? = some system :=
  Option.bind_eq_some_iff.mp lock

theorem locks_setLockOf (lock : forest.lockOf? t = some system) :
    ∃ l, forest.locks[l]? = some system ∧
      (forest.setLockOf t next).locks = forest.locks.set l next := by
  obtain ⟨shared, tree, there⟩ := exists_of_lockOf? lock
  refine ⟨shared.lock, there, ?_⟩
  rw [setLockOf, tree]

/-- A tree has the lock that it had, or the one that was changed. -/
theorem lockOf?_setLockOf (lock : forest.lockOf? t = some system) (u : Nat) :
    (forest.setLockOf t next).lockOf? u = forest.lockOf? u ∨
      forest.lockOf? u = some system ∧ (forest.setLockOf t next).lockOf? u = some next := by
  obtain ⟨l, there, locks⟩ := @locks_setLockOf _ _ _ _ next lock
  have inside : l < forest.locks.length := (List.getElem?_eq_some_iff.mp there).1
  simp only [lockOf?, tree?_setLockOf, locks]
  cases tree : forest.tree? u with
  | none => exact Or.inl rfl
  | some shared =>
      simp only [Option.bind_eq_bind, Option.bind_some]
      by_cases same : shared.lock = l
      · rw [same, there, List.getElem?_set_self inside]
        exact Or.inr ⟨rfl, rfl⟩
      · rw [List.getElem?_set_ne (Ne.symm same)]
        exact Or.inl rfl

theorem lockOf?_setLockOf_self (lock : forest.lockOf? t = some system) :
    (forest.setLockOf t next).lockOf? t = some next := by
  obtain ⟨shared, tree, there⟩ := exists_of_lockOf? lock
  have inside : shared.lock < forest.locks.length := (List.getElem?_eq_some_iff.mp there).1
  have locks : (forest.setLockOf t next).locks = forest.locks.set shared.lock next := by
    rw [setLockOf, tree]
  simp only [lockOf?, tree?_setLockOf, tree, locks, Option.bind_eq_bind, Option.bind_some]
  exact List.getElem?_set_self inside

theorem lockOf?_modifyTree (f : Tree → Tree) (u : Nat) :
    (forest.modifyTree t f).lockOf? u = forest.lockOf? u := by
  simp only [lockOf?, modifyTree, tree?, List.getElem?_modify]
  by_cases same : t = u
  · cases there : forest.trees[u]? with
    | none => simp [same]
    | some found => cases found <;> simp [same]
  · simp [same]

theorem tree?_modifyTree (f : Tree → Tree) :
    (forest.modifyTree t f).tree? = Trees.modify forest.tree? t f := by
  funext u
  by_cases same : t = u
  · subst same
    rw [Trees.modify, Function.update_self]
    simp only [tree?, modifyTree, List.getElem?_modify_eq]
    cases forest.trees[t]? <;> rfl
  · rw [Trees.modify_of_ne (Ne.symm same)]
    simp only [tree?, modifyTree, ne_eq, same, not_false_eq_true, List.getElem?_modify_ne]

/-! ## Steps of a worker -/

/-- What a worker can do. -/
inductive Acts (forest : Forest α) (i : Nat) (worker : Worker α) : Forest α → Prop
  /-- It turns to its next section. -/
  | begin {part : Section α} {rest : List (Section α)} {system started : System}
      (stage : worker.stage = .idle) (pending : worker.pending = part :: rest)
      (room : worker.guards.length < forest.hands)
      (lock : forest.lockOf? part.guard.tree = some system)
      (moved : system.Moved (forest.seat i worker.guards.length) started) :
      Acts forest i worker ((forest.setLockOf part.guard.tree started).setWorker i
        { worker with pending := rest, stage := .acquiring part.guard part.work })
  /-- It turns to the next guard that it needs. -/
  | ask {guard : Guard} {next : Work α} {system started : System}
      (stage : worker.stage = .working (.take guard next))
      (room : worker.guards.length < forest.hands)
      (lock : forest.lockOf? guard.tree = some system)
      (moved : system.Moved (forest.seat i worker.guards.length) started) :
      Acts forest i worker ((forest.setLockOf guard.tree started).setWorker i
        { worker with stage := .acquiring guard next })
  /-- It goes on trying to get a guard. -/
  | attempt {guard : Guard} {work : Work α} {system next : System}
      (stage : worker.stage = .acquiring guard work)
      (lock : forest.lockOf? guard.tree = some system)
      (moved : system.Moved (forest.seat i worker.guards.length) next) :
      Acts forest i worker (forest.setLockOf guard.tree next)
  /-- It has got a guard. -/
  | arrive {guard : Guard} {work : Work α} {system next : System}
      (stage : worker.stage = .acquiring guard work)
      (lock : forest.lockOf? guard.tree = some system)
      (moved : system.Moved (forest.seat i worker.guards.length) next)
      (inside : next.point (forest.seat i worker.guards.length) = .holding guard.mode) :
      Acts forest i worker ((forest.setLockOf guard.tree next).setWorker i
        { worker with stage := .working work, guards := guard :: worker.guards })
  | look {tree : Nat} {next : SharedTree → Work α} {shared : SharedTree}
      (stage : worker.stage = .working (.look tree next))
      (guarded : Guarded worker.guards tree) (there : forest.tree? tree = some shared) :
      Acts forest i worker (forest.setWorker i { worker with stage := .working (next shared) })
  | change {tree : Nat} {f : Tree → Tree} {next : Work α}
      (stage : worker.stage = .working (.change tree f next))
      (own : ⟨tree, .exclusive⟩ ∈ worker.guards) :
      Acts forest i worker
        ((forest.modifyTree tree f).setWorker i { worker with stage := .working next })
  /-- It is done. -/
  | finish {answer : α} (stage : worker.stage = .working (.done answer)) :
      Acts forest i worker (forest.setWorker i
        { worker with stage := .leaving, answers := worker.answers ++ [answer] })
  /-- It goes on giving a guard up. -/
  | retreat {guard : Guard} {rest : List Guard} {system next : System}
      (stage : worker.stage = .leaving) (guards : worker.guards = guard :: rest)
      (lock : forest.lockOf? guard.tree = some system)
      (moved : system.Moved (forest.seat i rest.length) next) :
      Acts forest i worker (forest.setLockOf guard.tree next)
  /-- It has given a guard up. -/
  | drop {guard : Guard} {rest : List Guard} (stage : worker.stage = .leaving)
      (guards : worker.guards = guard :: rest) :
      Acts forest i worker (forest.setWorker i { worker with guards := rest })
  /-- It has given all its guards up. -/
  | depart (stage : worker.stage = .leaving) (guards : worker.guards = []) :
      Acts forest i worker (forest.setWorker i { worker with stage := .idle })

theorem acts_of_step? (stepped : forest.step? i = some after) :
    ∃ worker, forest.workers[i]? = some worker ∧ forest.Acts i worker after := by
  obtain ⟨worker, there, rest⟩ := Option.bind_eq_some_iff.mp stepped
  refine ⟨worker, there, ?_⟩
  obtain ⟨pending, stage, guards, answers⟩ := worker
  cases stage with
  | idle =>
      cases pending with
      | nil => cases rest
      | cons part others =>
          obtain ⟨room, rest⟩ := Option.ite_none_right_eq_some.mp rest
          obtain ⟨system, lock, rest⟩ := Option.bind_eq_some_iff.mp rest
          obtain ⟨started, starts, rest⟩ := Option.bind_eq_some_iff.mp rest
          cases rest
          exact .begin rfl rfl room lock (System.moved_of_start? starts)
  | acquiring guard work =>
      obtain ⟨system, lock, rest⟩ := Option.bind_eq_some_iff.mp rest
      obtain ⟨next, steps, rest⟩ := Option.bind_eq_some_iff.mp rest
      have moved := System.moved_of_step? steps
      by_cases inside : next.point (forest.seat i guards.length) = .holding guard.mode
      · rw [if_pos inside] at rest
        cases rest
        exact .arrive rfl lock moved inside
      · rw [if_neg inside] at rest
        cases rest
        rw [setWorker_self (by rwa [workers_setLockOf])]
        exact .attempt rfl lock moved
  | working work =>
      cases work with
      | done answer =>
          cases rest
          exact .finish rfl
      | take guard next =>
          obtain ⟨room, rest⟩ := Option.ite_none_right_eq_some.mp rest
          obtain ⟨system, lock, rest⟩ := Option.bind_eq_some_iff.mp rest
          obtain ⟨started, starts, rest⟩ := Option.bind_eq_some_iff.mp rest
          cases rest
          exact .ask rfl room lock (System.moved_of_start? starts)
      | look tree next =>
          simp only [Option.ite_none_right_eq_some, List.any_eq_true, decide_eq_true_eq] at rest
          obtain ⟨guarded, rest⟩ := rest
          obtain ⟨shared, found, rest⟩ := Option.bind_eq_some_iff.mp rest
          cases rest
          exact .look rfl guarded found
      | change tree f next =>
          simp only [Option.ite_none_right_eq_some] at rest
          obtain ⟨own, rest⟩ := rest
          cases rest
          exact .change rfl own
  | leaving =>
      cases guards with
      | nil =>
          cases rest
          exact .depart rfl rfl
      | cons guard others =>
          obtain ⟨system, lock, rest⟩ := Option.bind_eq_some_iff.mp rest
          split at rest
          next =>
            obtain ⟨started, starts, rest⟩ := Option.bind_eq_some_iff.mp rest
            cases rest
            exact .retreat rfl rfl lock (System.moved_of_start? starts)
          next =>
            split at rest
            next =>
              cases rest
              exact .drop rfl rfl
            next =>
              obtain ⟨next, steps, rest⟩ := Option.bind_eq_some_iff.mp rest
              cases rest
              exact .retreat rfl rfl lock (System.moved_of_step? steps)

theorem acts_of_misfire? (misfired : forest.misfire? i = some after) :
    ∃ worker, forest.workers[i]? = some worker ∧ forest.Acts i worker after := by
  obtain ⟨worker, there, rest⟩ := Option.bind_eq_some_iff.mp misfired
  obtain ⟨⟨guard, k⟩, about, rest⟩ := Option.bind_eq_some_iff.mp rest
  obtain ⟨system, lock, rest⟩ := Option.bind_eq_some_iff.mp rest
  obtain ⟨next, misfires, rest⟩ := Option.bind_eq_some_iff.mp rest
  cases rest
  refine ⟨worker, there, ?_⟩
  have moved := System.moved_of_misfire? misfires
  obtain ⟨pending, stage, guards, answers⟩ := worker
  cases stage with
  | idle | working => cases about
  | leaving =>
      cases guards with
      | nil => cases about
      | cons =>
          cases about
          exact .retreat rfl rfl lock moved
  | acquiring =>
      cases about
      exact .attempt rfl lock moved

/-- A step of a forest is something that one of its workers does. -/
theorem Moves.acts (moves : forest.Moves i after) :
    ∃ worker, forest.workers[i]? = some worker ∧ forest.Acts i worker after := by
  cases moves with
  | step stepped => exact acts_of_step? stepped
  | misfire misfired => exact acts_of_misfire? misfired

/-! ## What a step leaves alone -/

theorem seat_ne_of_ne {l : Nat} (distinct : k ≠ l) : forest.seat i k ≠ forest.seat i l :=
  fun same => distinct (Nat.add_left_cancel same)

/-- A seat is one worker's. -/
theorem eq_of_seat_eq {l : Nat} (fits : k < forest.hands) (alsoFits : l < forest.hands)
    (same : forest.seat i k = forest.seat j l) : i = j := by
  have divided : ∀ worker number, number < forest.hands →
      forest.seat worker number / forest.hands = worker := by
    intro worker number fits
    have positive : 0 < forest.hands := Nat.lt_of_le_of_lt (Nat.zero_le _) fits
    rw [seat, Nat.mul_comm, Nat.mul_add_div positive, Nat.div_eq_of_lt fits, Nat.add_zero]
  calc
    i = forest.seat i k / forest.hands := (divided i k fits).symm
    _ = j := by rw [same, divided j l alsoFits]

/-- Whoever does not move at a lock holds it as before. -/
theorem Holds.setLockOf {seat mover : Nat} (holding : forest.Holds seat guard)
    (lock : forest.lockOf? t = some system) (moved : system.Moved mover next)
    (distinct : seat ≠ mover) : (forest.setLockOf t next).Holds seat guard := by
  obtain ⟨held, there, holds⟩ := holding
  rcases @lockOf?_setLockOf _ _ _ _ next lock guard.tree with same | ⟨was, is⟩
  · exact ⟨held, same.trans there, holds⟩
  · rw [was] at there
    cases there
    exact ⟨next, is, (moved.holding_iff distinct).mpr holds⟩

theorem holds_modifyTree {seat : Nat} (f : Tree → Tree) :
    (forest.modifyTree t f).Holds seat guard ↔ forest.Holds seat guard := by
  rw [Holds, lockOf?_modifyTree, Holds]

/-- Guards are kept if the lock of each one is still held from its seat. -/
theorem HoldsAll.mono (all : forest.HoldsAll i guards) (hands : after.hands = forest.hands)
    (keeps : ∀ k guard, k < guards.length → k < forest.hands →
      forest.Holds (forest.seat i k) guard → after.Holds (forest.seat i k) guard) :
    after.HoldsAll i guards := by
  have seats : after.seat = forest.seat := by
    funext worker number
    rw [seat, seat, hands]
  induction guards with
  | nil => trivial
  | cons guard rest inductionHypothesis =>
      obtain ⟨fits, here, others⟩ := all
      refine ⟨hands ▸ fits, ?_, inductionHypothesis others fun k guard below =>
        keeps k guard (Nat.lt_succ_of_lt below)⟩
      rw [seats]
      exact keeps _ _ (Nat.lt_succ_self _) fits here

theorem HoldsAll.setWorker (all : forest.HoldsAll i guards) (j : Nat) (state : Worker α) :
    (forest.setWorker j state).HoldsAll i guards :=
  all.mono rfl fun _ _ _ _ holding => holding

theorem HoldsAll.exists_seat (all : forest.HoldsAll i guards) (member : guard ∈ guards) :
    ∃ k < forest.hands, forest.Holds (forest.seat i k) guard := by
  induction guards with
  | nil => cases member
  | cons other rest inductionHypothesis =>
      obtain ⟨fits, here, others⟩ := all
      rcases List.mem_cons.mp member with rfl | inside
      · exact ⟨_, fits, here⟩
      · exact inductionHypothesis others inside

/-- Nothing changes for the other workers. -/
structure Frame (i : Nat) (before after : Forest α) : Prop where
  worker : ∀ j, j ≠ i → after.workerAt j = before.workerAt j
  hands : after.hands = before.hands
  holds : ∀ j k guard, j ≠ i → k < before.hands → before.Holds (before.seat j k) guard →
    after.Holds (before.seat j k) guard

theorem Frame.setWorker (frame : Frame i forest after) (state : Worker α) :
    Frame i forest (after.setWorker i state) where
  worker j other := (workerAt_setWorker other).trans (frame.worker j other)
  hands := frame.hands
  holds := frame.holds

theorem frame_self (i : Nat) (forest : Forest α) : Frame i forest forest where
  worker _ _ := rfl
  hands := rfl
  holds _ _ _ _ _ holding := holding

theorem frame_setLockOf (fits : k < forest.hands) (lock : forest.lockOf? t = some system)
    (moved : system.Moved (forest.seat i k) next) : Frame i forest (forest.setLockOf t next) where
  worker _ _ := by rw [workerAt_setLockOf]
  hands := hands_setLockOf
  holds _ _ _ other alsoFits holding :=
    holding.setLockOf lock moved fun same => other (eq_of_seat_eq alsoFits fits same)

theorem frame_modifyTree (f : Tree → Tree) : Frame i forest (forest.modifyTree t f) where
  worker _ _ := rfl
  hands := rfl
  holds _ _ _ _ _ := (holds_modifyTree f).mpr

/-! ## Order at the locks -/

/-- Each lock is used by the workers as threads use locks, and whoever is in the middle of a
section holds the locks of its guards. -/
structure Orderly (n : Nat) (forest : Forest α) : Prop where
  locks : ∀ system ∈ forest.locks, Lock.Reachable n system
  idle : ∀ i, (forest.workerAt i).stage = .idle → (forest.workerAt i).guards = []
  fits : ∀ i, (forest.workerAt i).guards.length ≤ forest.hands
  /-- Whoever takes a guard has a hand free for it. -/
  room : ∀ i guard work, (forest.workerAt i).stage = .acquiring guard work →
    (forest.workerAt i).guards.length < forest.hands
  held : ∀ i progress, (forest.workerAt i).inside? = some progress →
    forest.HoldsAll i progress.guards

/-- Guards that clash are one worker's. -/
theorem Orderly.apart (orderly : Orderly n forest) (few : n < 2 ^ 29) :
    forest.scene.Apart forest.tree? := by
  rintro i j mine theirs inside insideToo guard member other memberToo ⟨sameLock, exclusive⟩
  obtain ⟨k, fits, system, lock, holds⟩ := (orderly.held i mine inside).exists_seat member
  obtain ⟨l, alsoFits, system', lock', holdsToo⟩ :=
    (orderly.held j theirs insideToo).exists_seat memberToo
  obtain ⟨shared, tree, stored⟩ := exists_of_lockOf? lock
  obtain ⟨shared', tree', stored'⟩ := exists_of_lockOf? lock'
  have same : shared.lock = shared'.lock := by
    rw [Trees.lock?, Trees.lock?, tree, tree'] at sameLock
    exact Option.some.inj sameLock
  rw [← same, stored] at stored'
  cases stored'
  obtain ⟨exclusion, _⟩ := (orderly.locks system (List.mem_of_getElem? stored)).exclusion few
  have guards : ∀ {thread mode}, system.point thread = .holding mode →
      (system.point thread).stake? = some (.guard mode) := by
    intro thread mode stands
    rw [stands]
    rfl
  have sameSeat : forest.seat i k = forest.seat j l := by
    rcases exclusive with writes | writes
    · rw [writes] at holds
      exact (exclusion.alone (guards holds) (guards holdsToo)).symm
    · rw [writes] at holdsToo
      exact exclusion.alone (guards holdsToo) (guards holds)
  rw [sameSeat, holdsToo] at holds
  exact ⟨eq_of_seat_eq fits alsoFits sameSeat, (Lock.Point.holding.inj holds).symm⟩

/-- Reachable locks stay reachable when a thread moves. -/
theorem Orderly.locks_setLockOf {mover : Nat} (orderly : Orderly n forest)
    (lock : forest.lockOf? t = some system) (moved : system.Moved mover next) :
    ∀ system ∈ (forest.setLockOf t next).locks, Lock.Reachable n system := by
  obtain ⟨l, there, locks⟩ := @Forest.locks_setLockOf _ _ _ _ next lock
  rw [locks]
  intro other member
  rcases List.mem_or_eq_of_mem_set member with old | rfl
  · exact orderly.locks other old
  · exact .step (orderly.locks system (List.mem_of_getElem? there)) moved.step

/-- A worker keeps its guards when it moves at a lock for another one. -/
theorem HoldsAll.setLockOf (all : forest.HoldsAll i guards) (lock : forest.lockOf? t = some system)
    (moved : system.Moved (forest.seat i guards.length) next) :
    (forest.setLockOf t next).HoldsAll i guards :=
  all.mono hands_setLockOf fun _ _ below _ holding =>
    holding.setLockOf lock moved (seat_ne_of_ne (Nat.ne_of_lt below))

theorem Acts.frame (acts : forest.Acts i worker after)
    (there : forest.workers[i]? = some worker) (orderly : Orderly n forest) :
    Frame i forest after := by
  have fits := orderly.fits i
  have room := orderly.room i
  rw [workerAt_eq there] at fits room
  cases acts with
  | begin _ _ room lock moved | ask _ room lock moved =>
      exact (frame_setLockOf room lock moved).setWorker _
  | attempt stage lock moved => exact frame_setLockOf (room _ _ stage) lock moved
  | arrive stage lock moved => exact (frame_setLockOf (room _ _ stage) lock moved).setWorker _
  | look | finish | drop | depart => exact (frame_self i forest).setWorker _
  | change => exact (frame_modifyTree _).setWorker _
  | retreat _ guards lock moved =>
      rw [guards] at fits
      exact frame_setLockOf fits lock moved

/-- It is enough to look at the worker that moved. -/
theorem Orderly.of_frame (orderly : Orderly n forest) (frame : Frame i forest after)
    (locks : ∀ system ∈ after.locks, Lock.Reachable n system)
    (there : after.workers[i]? = some state)
    (idle : state.stage = .idle → state.guards = [])
    (fits : state.guards.length ≤ forest.hands)
    (room : ∀ guard work, state.stage = .acquiring guard work →
      state.guards.length < forest.hands)
    (held : ∀ progress, state.inside? = some progress → after.HoldsAll i progress.guards) :
    Orderly n after where
  locks := locks
  idle := by
    intro j rests
    by_cases same : j = i
    · subst same
      rw [workerAt_eq there] at rests ⊢
      exact idle rests
    · rw [frame.worker j same] at rests ⊢
      exact orderly.idle j rests
  fits := by
    intro j
    rw [frame.hands]
    by_cases same : j = i
    · subst same
      rw [workerAt_eq there]
      exact fits
    · rw [frame.worker j same]
      exact orderly.fits j
  room := by
    intro j guard work takes
    rw [frame.hands]
    by_cases same : j = i
    · subst same
      rw [workerAt_eq there] at takes ⊢
      exact room guard work takes
    · rw [frame.worker j same] at takes ⊢
      exact orderly.room j guard work takes
  held := by
    intro j progress inside
    by_cases same : j = i
    · subst same
      rw [workerAt_eq there] at inside
      exact held progress inside
    · rw [frame.worker j same] at inside
      exact (orderly.held j progress inside).mono frame.hands fun k guard _ fits =>
        frame.holds j k guard same fits

theorem Acts.orderly (acts : forest.Acts i worker after)
    (there : forest.workers[i]? = some worker) (orderly : Orderly n forest) :
    Orderly n after := by
  have frame := acts.frame there orderly
  have idle := orderly.idle i
  have fits := orderly.fits i
  have room := orderly.room i
  have held := orderly.held i
  rw [workerAt_eq there] at idle fits room held
  cases acts with
  | begin stage pending room lock moved =>
      refine orderly.of_frame frame (orderly.locks_setLockOf lock moved)
        (getElem?_setWorker (getElem?_setLockOf there) _) nofun fits (fun _ _ _ => room) ?_
      rintro _ ⟨⟩
      rw [idle stage]
      trivial
  | ask stage room lock moved =>
      refine orderly.of_frame frame (orderly.locks_setLockOf lock moved)
        (getElem?_setWorker (getElem?_setLockOf there) _) nofun fits (fun _ _ _ => room) ?_
      rintro _ ⟨⟩
      exact (HoldsAll.setLockOf (held _ (Worker.inside?_of_working stage)) lock moved).setWorker i _
  | attempt stage lock moved =>
      refine orderly.of_frame frame (orderly.locks_setLockOf lock moved)
        (getElem?_setLockOf there) idle fits room ?_
      intro progress inside
      cases (Worker.inside?_of_acquiring stage).symm.trans inside
      exact HoldsAll.setLockOf (held _ (Worker.inside?_of_acquiring stage)) lock moved
  | @arrive guard work system next stage lock moved inside =>
      refine orderly.of_frame frame (orderly.locks_setLockOf lock moved)
        (getElem?_setWorker (getElem?_setLockOf there) _) nofun (room _ _ stage) nofun ?_
      rintro _ ⟨⟩
      have kept := HoldsAll.setLockOf (held _ (Worker.inside?_of_acquiring stage)) lock moved
      have all : (forest.setLockOf guard.tree next).HoldsAll i (guard :: worker.guards) := by
        refine ⟨?_, ⟨next, lockOf?_setLockOf_self lock, ?_⟩, kept⟩
        · rw [hands_setLockOf]
          exact room _ _ stage
        · rwa [seat, hands_setLockOf]
      exact all.setWorker i _
  | look stage =>
      refine orderly.of_frame frame orderly.locks (getElem?_setWorker there _) nofun fits nofun ?_
      rintro _ ⟨⟩
      exact (held _ (Worker.inside?_of_working stage)).setWorker i _
  | @change tree f next stage own =>
      refine orderly.of_frame frame orderly.locks
        (@getElem?_setWorker _ (forest.modifyTree tree f) _ _ there _) nofun fits nofun ?_
      rintro _ ⟨⟩
      exact (held _ (Worker.inside?_of_working stage)).mono rfl fun _ _ _ _ =>
        (holds_modifyTree f).mpr
  | finish stage =>
      exact orderly.of_frame frame orderly.locks (getElem?_setWorker there _) nofun fits nofun nofun
  | retreat stage guards lock moved =>
      refine orderly.of_frame frame (orderly.locks_setLockOf lock moved)
        (getElem?_setLockOf there) idle fits room ?_
      intro progress inside
      cases (Worker.inside?_of_leaving stage).symm.trans inside
  | drop stage guards =>
      rw [guards] at fits
      refine orderly.of_frame frame orderly.locks (getElem?_setWorker there _) (fun rests => ?_)
        (Nat.le_of_succ_le fits) (fun _ _ takes => ?_) ?_
      · cases stage.symm.trans rests
      · cases stage.symm.trans takes
      · intro progress inside
        simp only [Worker.inside?, stage] at inside
        cases inside
  | depart stage guards =>
      exact orderly.of_frame frame orderly.locks (getElem?_setWorker there _) (fun _ => guards)
        fits nofun nofun

/-! ## What is to be seen of a step -/

theorem inside_scene (there : forest.workers[i]? = some worker) :
    forest.scene.inside i = worker.inside? :=
  congrArg Worker.inside? (workerAt_eq there)

theorem upcoming_scene (there : forest.workers[i]? = some worker) :
    forest.scene.upcoming i = worker.pending :=
  congrArg Worker.pending (workerAt_eq there)

theorem answers_scene (there : forest.workers[i]? = some worker) :
    forest.scene.answers i = worker.answers :=
  congrArg Worker.answers (workerAt_eq there)

theorem Frame.scene_eq (frame : Frame i forest after) (there : after.workers[i]? = some state) :
    after.scene =
      { trees := after.tree?
        inside := Function.update forest.scene.inside i state.inside?
        upcoming := Function.update forest.scene.upcoming i state.pending
        answers := Function.update forest.scene.answers i state.answers } := by
  apply Scene.ext
  · rfl
  all_goals
    refine (Function.update_eq_iff.mpr ⟨?_, fun j other => ?_⟩).symm
    · simp only [scene, workerAt_eq there]
    · simp only [scene, frame.worker j other]

/-- The scene after the worker that moved went on in its section. -/
theorem Frame.scene_proceed {progress : Progress α} (frame : Frame i forest after)
    (there : forest.workers[i]? = some worker) (thereAfter : after.workers[i]? = some state)
    (inside : state.inside? = some progress) (pending : state.pending = worker.pending)
    (answers : state.answers = worker.answers) :
    after.scene = { forest.scene.proceed i progress with trees := after.tree? } := by
  have here := workerAt_eq there
  rw [frame.scene_eq thereAfter, inside, pending, answers, ← here]
  apply Scene.ext
  · rfl
  · rfl
  · exact Function.update_eq_self i forest.scene.upcoming
  · exact Function.update_eq_self i forest.scene.answers

/-- What a worker got in a step: the guard that it was taking if it now has it. -/
def acquired (forest : Forest α) (i : Nat) (after : Forest α) : List Acquisition :=
  match (forest.workerAt i).stage, (after.workerAt i).stage with
  | .acquiring guard _, .working _ => [⟨⟨i, (forest.workerAt i).answers.length⟩, guard⟩]
  | _, _ => []

theorem acquired_eq_nil (there : forest.workers[i]? = some worker)
    (taking : ∀ guard work, worker.stage ≠ .acquiring guard work) :
    forest.acquired i after = [] := by
  rw [acquired, workerAt_eq there]
  split
  next stage _ => exact absurd stage (taking _ _)
  next => rfl

theorem acquired_eq_nil_of_not_working (thereAfter : after.workers[i]? = some state)
    (outside : ∀ work, state.stage ≠ .working work) : forest.acquired i after = [] := by
  rw [acquired, workerAt_eq thereAfter]
  split
  next _ stage => exact absurd stage (outside _)
  next => rfl

/-- Nothing is to be seen if the worker that moved is as far in its section as before. -/
theorem Frame.becomes_same (frame : Frame i forest after) (there : forest.workers[i]? = some worker)
    (thereAfter : after.workers[i]? = some state) (nothing : forest.acquired i after = [])
    (trees : after.tree? = forest.tree?) (inside : state.inside? = worker.inside?)
    (pending : state.pending = worker.pending) (answers : state.answers = worker.answers) :
    forest.scene.Becomes (forest.acquired i after) after.scene := by
  have same : after.scene = forest.scene := by
    have here := workerAt_eq there
    rw [frame.scene_eq thereAfter, trees, inside, pending, answers, ← here]
    apply Scene.ext
    · rfl
    · exact Function.update_eq_self i forest.scene.inside
    · exact Function.update_eq_self i forest.scene.upcoming
    · exact Function.update_eq_self i forest.scene.answers
  rw [nothing, same]
  exact .same

/-- What is to be seen of a step of a worker. -/
theorem Acts.becomes (acts : forest.Acts i worker after)
    (there : forest.workers[i]? = some worker) (orderly : Orderly n forest) :
    forest.scene.Becomes (forest.acquired i after) after.scene := by
  have frame := acts.frame there orderly
  have here := inside_scene there
  cases acts with
  | @begin part rest system started stage pending room lock moved =>
      have none : worker.guards = [] := by
        have rests := orderly.idle i
        rw [workerAt_eq there] at rests
        exact rests stage
      have becomes := @Scene.Becomes.begin _ forest.scene i part rest
        (here.trans (Worker.inside?_of_idle stage)) ((upcoming_scene there).trans pending)
      rw [acquired_eq_nil there (by simp [stage])]
      convert becomes
      rw [frame.scene_eq (getElem?_setWorker (getElem?_setLockOf there) _), none]
      apply Scene.ext
      · exact tree?_setLockOf
      · rfl
      · rfl
      · exact Function.update_eq_iff.mpr ⟨(answers_scene there).symm, fun _ _ => rfl⟩
  | ask stage =>
      exact frame.becomes_same there (getElem?_setWorker (getElem?_setLockOf there) _)
        (acquired_eq_nil there (by simp [stage])) tree?_setLockOf
        (Worker.inside?_of_working stage).symm rfl rfl
  | attempt stage =>
      exact frame.becomes_same there (getElem?_setLockOf there)
        (acquired_eq_nil_of_not_working (getElem?_setLockOf there) (by simp [stage]))
        tree?_setLockOf rfl rfl rfl
  | @arrive guard work system next stage lock moved inside =>
      have thereAfter : ((forest.setLockOf guard.tree next).setWorker i
          { worker with stage := .working work, guards := guard :: worker.guards }).workers[i]? =
          some { worker with stage := .working work, guards := guard :: worker.guards } :=
        getElem?_setWorker (getElem?_setLockOf there) _
      have got : forest.acquired i ((forest.setLockOf guard.tree next).setWorker i
          { worker with stage := .working work, guards := guard :: worker.guards }) =
          [⟨forest.scene.current i, guard⟩] := by
        simp only [acquired, workerAt_eq thereAfter, workerAt_eq there, stage, Scene.current,
          answers_scene there]
      rw [got, frame.scene_proceed there thereAfter rfl rfl rfl]
      convert Scene.Becomes.take (here.trans (Worker.inside?_of_acquiring stage))
      exact Scene.ext tree?_setLockOf rfl rfl rfl
  | look stage guarded found =>
      rw [acquired_eq_nil there (by simp [stage]),
        frame.scene_proceed there (getElem?_setWorker there _) rfl rfl rfl]
      exact .look (here.trans (Worker.inside?_of_working stage)) guarded found
  | @change tree f next stage own =>
      rw [acquired_eq_nil there (by simp [stage]),
        frame.scene_proceed there
          (@getElem?_setWorker _ (forest.modifyTree tree f) _ _ there _) rfl rfl rfl]
      convert Scene.Becomes.change (here.trans (Worker.inside?_of_working stage)) own
      exact Scene.ext (tree?_modifyTree f) rfl rfl rfl
  | @finish answer stage =>
      have becomes := @Scene.Becomes.finish _ forest.scene i worker.guards answer
        (here.trans (Worker.inside?_of_working stage))
      rw [acquired_eq_nil there (by simp [stage])]
      convert becomes
      rw [frame.scene_eq (getElem?_setWorker there _), ← answers_scene there]
      apply Scene.ext
      · rfl
      · rfl
      · exact Function.update_eq_iff.mpr ⟨(upcoming_scene there).symm, fun _ _ => rfl⟩
      · rfl
  | retreat stage =>
      exact frame.becomes_same there (getElem?_setLockOf there)
        (acquired_eq_nil there (by simp [stage])) tree?_setLockOf rfl rfl rfl
  | drop stage =>
      exact frame.becomes_same there (getElem?_setWorker there _)
        (acquired_eq_nil there (by simp [stage])) rfl (by simp only [Worker.inside?, stage]) rfl rfl
  | depart stage guards =>
      exact frame.becomes_same there (getElem?_setWorker there _)
        (acquired_eq_nil there (by simp [stage])) rfl (Worker.inside?_of_leaving stage).symm rfl rfl

end Forest

end Shared

end SlabTree
