import SlabTree.Proofs.Lock.Pursuit

/-!
# Settled locks

A lock is settled when all threads are: outside of its code, with a guard or without,
or parked.  Nothing is under way then, and the word says exactly who is inside and
whether anyone waits.  An attempt to get in that nobody disturbs is decided by that,
and one that is refused leaves everything as it was.
-/

namespace SlabTree.Lock

/-! ## Attempts without waiting -/

/-- How far an attempt has come that found the word `word` and is left undisturbed: where
its thread stands, and what the word is by then. -/
inductive Attempt (word : Word) : Mode → Point → Word → Prop
  | joining : Attempt word .shared (.joining .once) word
  | joined (opened : word.closed = false) : Attempt word .shared (.holding .shared) word.join
  | turnedAway (closed : word.closed = true) :
      Attempt word .shared (.leaving (.turnedAway .once)) word.join
  | looking : Attempt word .exclusive (.looking .once) word
  | claiming (free : word.held = false) : Attempt word .exclusive (.claiming .once word) word
  | claimed (free : word.held = false) : Attempt word .exclusive (.holding .exclusive) word.claim
  | refused {mode : Mode} (blocked : word.blocks mode = true) : Attempt word mode .outside word

/-- The steps that an attempt has still to make, at most. -/
def Point.remaining : Point → Nat
  | .joining _ | .looking _ => 2
  | .leaving _ | .claiming _ _ => 1
  | _ => 0

/-- The thread of an attempt is back outside, or inside. -/
def Point.Through (point : Point) (mode : Mode) : Prop :=
  point = .outside ∨ point = .holding mode

/-- A word that is closed has a holder, and every word has room for one more. -/
structure Word.Steady (word : Word) : Prop where
  used : word.closed = true → 0 < word.holders
  room : word.holders + 1 < 2 ^ 29

variable {system final : System} {point next : Point} {move : Move} {word after : Word}
  {mode : Mode} {mutex : Bool} {thread n : Nat}

/-- A reader that is turned away from a steady word does not give the last hold up. -/
theorem Word.Steady.not_last (steady : word.Steady) (closed : word.closed = true) :
    word.join.lastAwaited = false := by
  have used := steady.used closed
  have holders_eq : word.join.holders = word.holders + 1 :=
    congrArg Snapshot.holders (Word.snapshot_join steady.room)
  rw [Word.lastAwaited_eq, decide_eq_false (by omega), Bool.and_false]

theorem Word.leave_join (word : Word) : word.join.leave = word :=
  UInt32.add_sub_cancel word 1

/-- What an attempt does next is part of it and brings it closer to its end, and it
neither takes the mutex nor wakes anyone. -/
theorem Attempt.step (attempt : Attempt word mode point after) (steady : word.Steady)
    (stepped : point.step? ⟨after, mutex⟩ = some move) :
    Attempt word mode move.point move.core.word ∧ move.point.remaining < point.remaining ∧
      move.core.mutex = mutex ∧ move.notifies = false := by
  cases attempt with
  | joining =>
      cases stepped
      cases closed : word.closed with
      | true => exact ⟨.turnedAway closed, Nat.one_lt_two, rfl, rfl⟩
      | false => exact ⟨.joined closed, Nat.two_pos, rfl, rfl⟩
  | joined _ => cases stepped
  | turnedAway closed =>
      cases stepped
      simp only [Point.afterRelease, steady.not_last closed, word.leave_join]
      exact ⟨.refused closed, Nat.one_pos, trivial, trivial⟩
  | looking =>
      cases stepped
      simp only [Point.claimOrGiveUp]
      cases held : word.held with
      | true => exact ⟨.refused held, Nat.two_pos, trivial, trivial⟩
      | false => exact ⟨.claiming held, Nat.one_lt_two, trivial, trivial⟩
  | claiming free =>
      simp only [Point.step?, if_true] at stepped
      cases stepped
      exact ⟨.claimed free, Nat.one_pos, rfl, rfl⟩
  | claimed _ => cases stepped
  | refused _ => cases stepped

theorem Attempt.misfire (attempt : Attempt word mode point after)
    (misfired : point.misfire? ⟨after, mutex⟩ = some next) : Attempt word mode next after := by
  cases attempt with
  | claiming free =>
      cases misfired
      rw [Point.claimOrGiveUp, free]
      exact .claiming free
  | joining | joined _ | turnedAway _ | looking | claimed _ | refused _ => cases misfired

/-- An attempt that is through succeeded if the word did not block it, and otherwise left
the word as it was. -/
theorem Attempt.outcome (attempt : Attempt word mode point after)
    (through : point.Through mode) :
    (point = .holding mode ∧ word.blocks mode = false) ∨
      (point = .outside ∧ word.blocks mode = true ∧ after = word) := by
  cases attempt with
  | joined opened => exact Or.inl ⟨rfl, opened⟩
  | claimed free => exact Or.inl ⟨rfl, free⟩
  | refused blocked => exact Or.inr ⟨rfl, blocked, rfl⟩
  | joining | turnedAway _ | looking | claiming _ =>
      rcases through with through | through <;> cases through

/-- An attempt that is not through can go on. -/
theorem Attempt.goes_on (attempt : Attempt word mode point after) (mutex : Bool) :
    point.Through mode ∨ ∃ move, point.step? ⟨after, mutex⟩ = some move := by
  cases attempt with
  | joined _ | claimed _ => exact Or.inl (Or.inr rfl)
  | refused _ => exact Or.inl (Or.inl rfl)
  | joining | turnedAway _ | looking => exact Or.inr ⟨_, rfl⟩
  | claiming _ => exact Or.inr ⟨_, if_pos rfl⟩

/-! ## Runs of one thread alone -/

/-- The systems that a thread comes to which goes on by itself while all others rest. -/
inductive Alone (thread : Nat) (start : System) : System → Prop
  | refl : Alone thread start start
  | step {system after : System} (before : Alone thread start system)
      (stepped : system.step? thread = some after) : Alone thread start after
  | misfire {system after : System} (before : Alone thread start system)
      (misfired : system.misfire? thread = some after) : Alone thread start after

theorem Alone.trans {start middle : System} (first : Alone thread start middle)
    (second : Alone thread middle final) : Alone thread start final := by
  induction second with
  | refl => exact first
  | step _ stepped inductionHypothesis => exact .step inductionHypothesis stepped
  | misfire _ misfired inductionHypothesis => exact .misfire inductionHypothesis misfired

/-- The system with a thread elsewhere and another word. -/
def System.replaced (system : System) (thread : Nat) (point : Point) (word : Word) : System where
  core := ⟨word, system.core.mutex⟩
  threads := system.threads.set thread point

theorem System.getElem?_replaced (inside : thread < system.threads.length) :
    (system.replaced thread point word).threads[thread]? = some point :=
  List.getElem?_set_self inside

theorem System.replaced_self (there : system.threads[thread]? = some point) :
    system.replaced thread point system.core.word = system := by
  obtain ⟨inside, rfl⟩ := List.getElem?_eq_some_iff.mp there
  rw [replaced, List.set_getElem_self]

/-- A move of the thread that leaves the mutex alone and wakes no one. -/
theorem System.apply_replaced (mutex_eq : move.core.mutex = system.core.mutex)
    (quiet : move.notifies = false) :
    (system.replaced thread point word).apply thread move =
      system.replaced thread move.point move.core.word := by
  rw [apply, quiet, replaced, replaced, ← mutex_eq, if_neg Bool.false_ne_true, List.set_set]

theorem System.step?_eq (there : system.threads[thread]? = some point) :
    system.step? thread = (point.step? system.core).map (system.apply thread) := by
  rw [step?, there, Option.map_eq_bind]
  rfl

theorem System.misfire?_eq (there : system.threads[thread]? = some point) :
    system.misfire? thread = (point.misfire? system.core).map (system.setPoint thread) := by
  rw [misfire?, there, Option.map_eq_bind]
  rfl

/-- As long as a thread that makes an attempt is left alone, the attempt is all that
happens. -/
theorem Attempt.alone {start : Point} {before : Word} (attempt : Attempt word mode start before)
    (steady : word.Steady) (inside : thread < system.threads.length)
    (alone : Alone thread (system.replaced thread start before) final) :
    ∃ point after, Attempt word mode point after ∧
      final = system.replaced thread point after := by
  induction alone with
  | refl => exact ⟨start, before, attempt, rfl⟩
  | step _ stepped inductionHypothesis =>
      obtain ⟨point, after, reached, rfl⟩ := inductionHypothesis
      rw [System.step?_eq (System.getElem?_replaced inside)] at stepped
      obtain ⟨move, moved, rfl⟩ := Option.map_eq_some_iff.mp stepped
      obtain ⟨further, _, mutex_eq, quiet⟩ := reached.step steady moved
      exact ⟨_, _, further, System.apply_replaced mutex_eq quiet⟩
  | misfire _ misfired inductionHypothesis =>
      obtain ⟨point, after, reached, rfl⟩ := inductionHypothesis
      rw [System.misfire?_eq (System.getElem?_replaced inside)] at misfired
      obtain ⟨next, moved, rfl⟩ := Option.map_eq_some_iff.mp misfired
      refine ⟨next, after, reached.misfire moved, ?_⟩
      rw [System.setPoint, System.replaced, List.set_set, System.replaced]

/-- An attempt that is left alone comes through. -/
theorem Attempt.finishes (attempt : Attempt word mode point after) (steady : word.Steady)
    (inside : thread < system.threads.length) :
    ∃ final, Alone thread (system.replaced thread point after) final ∧
      (final.point thread).Through mode := by
  induction left : point.remaining using Nat.strong_induction_on generalizing point after with
  | _ _ inductionHypothesis =>
      have there := @System.getElem?_replaced system point after thread inside
      rcases attempt.goes_on system.core.mutex with through | ⟨move, moved⟩
      · refine ⟨_, .refl, ?_⟩
        rwa [System.point_of_getElem? there]
      · obtain ⟨further, fewer, mutex_eq, quiet⟩ := attempt.step steady moved
        obtain ⟨final, rest, through⟩ := inductionHypothesis _ (left ▸ fewer) further rfl
        have stepped : (system.replaced thread point after).step? thread =
            some (system.replaced thread move.point move.core.word) := by
          rw [System.step?_eq there, ← System.apply_replaced mutex_eq quiet]
          exact Option.map_eq_some_iff.mpr ⟨move, moved, rfl⟩
        exact ⟨final, (Alone.step .refl stepped).trans rest, through⟩

/-! ## What a settled word says -/

/-- Whether a settled system lets a thread in that asks for a guard. -/
def System.Welcomes (system : System) : Mode → Prop
  | .shared => (∀ writer, (system.point writer).stake? ≠ some (.guard .exclusive)) ∧
      ∀ sleeper mode, system.point sleeper ≠ .waiting mode .parked
  | .exclusive => ∀ holder mode, (system.point holder).stake? ≠ some (.guard mode)

/-- A thread that is settled pursues a mode only when it is parked. -/
theorem Point.Settled.parked (settled : point.Settled) (pursued : point.pursues? = some mode) :
    point = .waiting mode .parked := by
  unfold Point.Settled at settled
  split at settled
  · cases pursued
  · cases pursued
  · cases pursued
    rfl
  · exact settled.elim

/-- What holds of every system that threads come to. -/
structure Lawful (system : System) : Prop where
  exclusion : Exclusion system
  parking : Parking system
  upheld : Upheld system

theorem Reachable.lawful (few : n < 2 ^ 29) (reachable : Reachable n system) : Lawful system :=
  ⟨(reachable.exclusion few).1, reachable.parking few, reachable.upheld few⟩

/-- All threads are settled. -/
def System.Settled (system : System) : Prop :=
  ∀ thread, (system.point thread).Settled

namespace System.Settled

/-- In a settled system nobody is about to leave again: the holders are the guards. -/
theorem holders_eq (settled : system.Settled) (lawful : Lawful system) :
    system.core.word.holders = system.guards := by
  have none := System.stakes_eq_zero_iff.mpr fun thread => (settled thread).still.1
  rw [lawful.exclusion.counts.holders_eq, none, System.guards, Nat.add_zero]

/-- In a settled system a parked thread is waited for, and there is someone to wake it. -/
theorem waiting_of_parked (settled : system.Settled) (lawful : Lawful system) {sleeper : Nat}
    (parked : system.point sleeper = .waiting mode .parked) :
    system.core.word.waiting = true ∧ 0 < system.core.word.holders := by
  have sleeps : (system.station sleeper).sleeps = true := by
    rw [System.station, parked]
    rfl
  rcases lawful.parking.hears sleeps with held | ⟨_, waker, clears⟩ | ⟨waker, owes⟩
  · exact held
  · exact absurd clears (settled waker).still.2.1
  · exact absurd ((settled waker).still.2.2.symm.trans owes) Bool.false_ne_true

theorem parked_of_waiting (settled : system.Settled) (lawful : Lawful system)
    (waits : system.core.word.waiting = true) :
    ∃ sleeper mode, system.point sleeper = .waiting mode .parked := by
  rcases lawful.upheld.waiting waits with ⟨waker, clears⟩ | ⟨thread, pursues⟩
  · exact absurd clears (settled waker).still.2.1
  · obtain ⟨mode, pursued⟩ := Option.ne_none_iff_exists'.mp pursues
    exact ⟨thread, mode, (settled thread).parked pursued⟩

theorem parked_of_queued (settled : system.Settled) (lawful : Lawful system)
    (queued : system.core.word.queued = true) :
    ∃ sleeper, system.point sleeper = .waiting .exclusive .parked := by
  obtain ⟨thread, pursued⟩ := lawful.upheld.queued queued
  exact ⟨thread, (settled thread).parked pursued⟩

/-- A settled word that is closed to readers has holders. -/
theorem holders_pos_of_closed (settled : system.Settled) (lawful : Lawful system)
    (closed : system.core.word.closed = true) : 0 < system.core.word.holders := by
  rw [Word.closed_eq, Bool.or_eq_true, Bool.or_eq_true] at closed
  rcases closed with (owned | waits) | queued
  · have writer := lawful.exclusion.counts.owned_eq.symm.trans owned
    rw [decide_eq_true_iff] at writer
    rw [lawful.exclusion.counts.holders_eq]
    omega
  · obtain ⟨_, _, parked⟩ := settled.parked_of_waiting lawful waits
    exact (settled.waiting_of_parked lawful parked).2
  · obtain ⟨_, parked⟩ := settled.parked_of_queued lawful queued
    exact (settled.waiting_of_parked lawful parked).2

/-- A settled word without holders is free of flags. -/
theorem word_eq_zero (settled : system.Settled) (lawful : Lawful system)
    (unheld : system.core.word.holders = 0) : system.core.word = 0 := by
  have closed : system.core.word.closed = false := by
    by_contra closed
    have held := settled.holders_pos_of_closed lawful (Bool.eq_true_of_not_eq_false closed)
    omega
  rw [Word.closed_eq, Bool.or_eq_false_iff, Bool.or_eq_false_iff] at closed
  obtain ⟨⟨unowned, unwaited⟩, unqueued⟩ := closed
  apply Word.snapshot_injective
  have free : (0 : Word).snapshot = ⟨0, false, false, false⟩ := by decide
  rw [Word.snapshot, free, unheld, unowned, unwaited, unqueued]

/-- A settled word lets readers in when no writer is inside and nobody is parked. -/
theorem closed_eq_false_iff (settled : system.Settled) (lawful : Lawful system) :
    system.core.word.closed = false ↔ system.Welcomes .shared := by
  rw [Word.closed_eq, Bool.or_eq_false_iff, Bool.or_eq_false_iff, lawful.exclusion.counts.owned_eq,
    decide_eq_false_iff_not, System.exists_stake_iff, not_exists]
  constructor
  · rintro ⟨⟨unowned, unwaited⟩, _⟩
    refine ⟨unowned, fun sleeper mode parked => ?_⟩
    rw [(settled.waiting_of_parked lawful parked).1] at unwaited
    cases unwaited
  · rintro ⟨unowned, awake⟩
    refine ⟨⟨unowned, ?_⟩, ?_⟩
    · by_contra waits
      obtain ⟨sleeper, mode, parked⟩ :=
        settled.parked_of_waiting lawful (Bool.eq_true_of_not_eq_false waits)
      exact awake sleeper mode parked
    · by_contra queued
      obtain ⟨sleeper, parked⟩ :=
        settled.parked_of_queued lawful (Bool.eq_true_of_not_eq_false queued)
      exact awake sleeper .exclusive parked

/-- A settled word lets writers in when there is no guard. -/
theorem held_eq_false_iff (settled : system.Settled) (lawful : Lawful system) :
    system.core.word.held = false ↔ system.Welcomes .exclusive := by
  rw [Word.held_eq, Bool.or_eq_false_iff, decide_eq_false_iff_not, settled.holders_eq lawful,
    Nat.pos_iff_ne_zero, not_not, System.guards_eq_zero_iff, System.Welcomes]
  refine and_iff_right_of_imp fun none => ?_
  rw [lawful.exclusion.counts.owned_eq, decide_eq_false_iff_not, System.exists_stake_iff,
    not_exists]
  exact fun holder => none holder .exclusive

theorem blocks_eq_false_iff (settled : system.Settled) (lawful : Lawful system) :
    system.core.word.blocks mode = false ↔ system.Welcomes mode := by
  cases mode with
  | shared => exact settled.closed_eq_false_iff lawful
  | exclusive => exact settled.held_eq_false_iff lawful

end System.Settled

/-- The start of an attempt by a thread that stands outside. -/
theorem exists_attempt (there : system.threads[thread]? = some .outside) (mode : Mode) :
    ∃ point, system.start? thread (.acquire mode .once) =
      some (system.replaced thread point system.core.word) ∧
        Attempt system.core.word mode point system.core.word := by
  cases mode with
  | shared =>
      refine ⟨_, ?_, .joining⟩
      rw [System.start?, there]
      rfl
  | exclusive =>
      refine ⟨_, ?_, .looking⟩
      rw [System.start?, there]
      rfl

/-- In every reachable system that is settled, of fewer threads than the word can count, the
word counts the guards, its owned flag tells whether a writer has one, its waiting flag
whether a thread is parked, and then it has holders; and the queued flag is set only for a
parked writer.  So without guards the word is zero.  An attempt by a thread that is left alone
comes through: it gets a shared guard when there is no writer's guard and nobody is parked,
and an exclusive one when there is no guard; and when it is refused, everything is as it
was. -/
theorem settled_of_reachable (few : n < 2 ^ 29) (reachable : Reachable n system)
    (settled : system.Settled) :
    system.core.word.holders = system.guards ∧
      (system.core.word.owned = true ↔
        ∃ writer, (system.point writer).stake? = some (.guard .exclusive)) ∧
      (system.core.word.waiting = true ↔
        ∃ sleeper mode, system.point sleeper = .waiting mode .parked) ∧
      (system.core.word.waiting = true → 0 < system.core.word.holders) ∧
      (system.core.word.queued = true →
        ∃ sleeper, system.point sleeper = .waiting .exclusive .parked) ∧
      (system.guards = 0 → system.core.word = 0) ∧
      ∀ thread mode, system.threads[thread]? = some .outside →
        ∃ begun, system.start? thread (.acquire mode .once) = some begun ∧
          ∀ middle, Alone thread begun middle →
            (∃ final, Alone thread middle final ∧ (final.point thread).Through mode) ∧
            ((middle.point thread).Through mode →
              (middle.point thread = .holding mode ↔ system.Welcomes mode) ∧
              (middle.point thread ≠ .holding mode → middle = system)) := by
  have lawful := reachable.lawful few
  have length := (reachable.exclusion few).2
  have holders_eq := settled.holders_eq lawful
  refine ⟨holders_eq, ?_, ⟨settled.parked_of_waiting lawful, ?_⟩, ?_,
    settled.parked_of_queued lawful, ?_, ?_⟩
  · rw [lawful.exclusion.counts.owned_eq, decide_eq_true_iff, System.exists_stake_iff]
  · rintro ⟨sleeper, mode, parked⟩
    exact (settled.waiting_of_parked lawful parked).1
  · intro waits
    obtain ⟨sleeper, mode, parked⟩ := settled.parked_of_waiting lawful waits
    exact (settled.waiting_of_parked lawful parked).2
  · intro unguarded
    exact settled.word_eq_zero lawful (holders_eq.trans unguarded)
  · intro thread mode there
    have inside := (List.getElem?_eq_some_iff.mp there).1
    have steady : system.core.word.Steady :=
      ⟨settled.holders_pos_of_closed lawful,
        (lawful.exclusion.bears (length ▸ few) there).room rfl⟩
    have welcomes := @settled.blocks_eq_false_iff system mode lawful
    obtain ⟨start, started, attempt⟩ := exists_attempt there mode
    refine ⟨_, started, fun middle alone => ?_⟩
    obtain ⟨point, after, reached, rfl⟩ := attempt.alone steady inside alone
    have stands := System.point_of_getElem? (@System.getElem?_replaced system point after _ inside)
    refine ⟨reached.finishes steady inside, ?_⟩
    rw [stands]
    intro through
    rcases reached.outcome through with ⟨rfl, opened⟩ | ⟨rfl, blocked, rfl⟩
    · exact ⟨iff_of_true rfl (welcomes.mp opened), absurd rfl⟩
    · refine ⟨iff_of_false (by rintro ⟨⟩) fun welcome => ?_, fun _ => ?_⟩
      · exact absurd ((welcomes.mpr welcome).symm.trans blocked) Bool.false_ne_true
      · exact System.replaced_self there

set_option maxRecDepth 100000 in
/-- A reader inside and a parked writer, and an attempt by a third thread. -/
theorem settled_of_reachable_pair :
    ∃ system, Reachable 3 system ∧
      system.threads = [.holding .shared, .waiting .exclusive .parked, .outside] ∧
        system.Settled ∧ system.core.word.holders = system.guards ∧
          (system.core.word.waiting = true ↔
            ∃ sleeper mode, system.point sleeper = .waiting mode .parked) ∧
          ∃ begun, system.start? 2 (.acquire .shared .once) = some begun ∧
            ∀ middle, Alone 2 begun middle → (middle.point 2).Through .shared →
              (middle.point 2 = .holding .shared ↔ system.Welcomes .shared) ∧
                (middle.point 2 ≠ .holding .shared → middle = system) := by
  have reachable := (@Reachable.initial 3).perform 0 (.acquire .shared .untilHeld)
    |>.perform 1 (.acquire .exclusive .untilHeld)
  have threads_eq : (((System.initial 3).perform 0 (.acquire .shared .untilHeld)).perform 1
      (.acquire .exclusive .untilHeld)).threads =
        [.holding .shared, .waiting .exclusive .parked, .outside] := by
    decide +kernel
  generalize ((System.initial 3).perform 0 (.acquire .shared .untilHeld)).perform 1
    (.acquire .exclusive .untilHeld) = system at reachable threads_eq
  have settled : system.Settled := by
    intro thread
    rw [System.point, threads_eq]
    rcases thread with _ | _ | _ | _ <;> trivial
  obtain ⟨holders, _, waiting, _, _, _, attempts⟩ :=
    settled_of_reachable (by decide) reachable settled
  obtain ⟨begun, started, ends⟩ := attempts 2 .shared (by rw [threads_eq]; rfl)
  exact ⟨system, reachable, threads_eq, settled, holders, waiting, begun, started,
    fun middle alone => (ends middle alone).2⟩

end SlabTree.Lock
