import SlabTree.Proofs.Lock.Passage

/-!
# No lost wake-ups

A parked thread relies on others.  The waiting flag is still set, or someone has
cleared it and is on the way to notify; and a word that shows the flag has holders, or
someone is about to clear it.  Every passage from station to station keeps this up, and
so no thread is left parked by a lock that nobody uses any more.
-/

namespace SlabTree.Lock

variable {system : System} {point : Point} {core later : Core} {move : Move}
  {thread n : Nat} {source target : Station} {notifies : Bool}

/-! ## What no thread is left without -/

/-- The stations of all threads once one of them has passed on. -/
def Station.passed (stations : Nat → Station) (thread : Nat) (target : Station) (notifies : Bool)
    (other : Nat) : Station :=
  let moved := if other = thread then target else stations other
  if notifies then moved.woken else moved

variable {stations : Nat → Station} {kind : Station → Bool} {other : Nat}

theorem Station.passed_self : Station.passed stations thread target false thread = target :=
  if_pos rfl

/-- What a thread is afterwards it was before, unless it is the one that passed on. -/
theorem Station.kind_of_passed (here : stations thread = source)
    (woken : ∀ station, kind station.woken = true → kind station = true)
    (moved : kind target = true → kind source = true)
    (later : kind (Station.passed stations thread target notifies other) = true) :
    kind (stations other) = true := by
  have unwoken : kind (if other = thread then target else stations other) = true := by
    cases notifies with
    | false => exact later
    | true => exact woken _ later
  by_cases same : other = thread
  · rw [if_pos same] at unwoken
    rw [same, here]
    exact moved unwoken
  · rwa [if_neg same] at unwoken

/-- What some thread was before some thread is afterwards, unless it was the one that
passed on. -/
theorem Station.exists_passed (here : stations thread = source)
    (woken : ∀ station, kind station = true → kind station.woken = true)
    (another : kind source = false) (before : ∃ other, kind (stations other) = true) :
    ∃ other, kind (Station.passed stations thread target notifies other) = true := by
  obtain ⟨other, is⟩ := before
  have apart : other ≠ thread := by
    rintro rfl
    rw [here, another] at is
    cases is
  refine ⟨other, ?_⟩
  unfold Station.passed
  rw [if_neg apart]
  cases notifies with
  | false => exact is
  | true => exact woken _ is

/-- While a thread sleeps, the word shows that someone waits, or someone has cleared
the flag and is on the way to notify. -/
theorem Passage.remembered (passage : Passage core source target later notifies)
    (here : stations thread = source)
    (alone : ∀ other, source.locks = true → (stations other).locks = true → other = thread)
    (remembered : ∀ sleeper, (stations sleeper).sleeps = true →
      core.word.waiting = true ∨ ∃ waker, (stations waker).owes = true) (sleeper : Nat)
    (sleeps : (Station.passed stations thread target notifies sleeper).sleeps = true) :
    later.word.waiting = true ∨
      ∃ waker, (Station.passed stations thread target notifies waker).owes = true := by
  have slept : (target.sleeps = true → source.sleeps = true) →
      (stations sleeper).sleeps = true := by
    intro moved
    exact Station.kind_of_passed here (by rintro (_ | _) <;> simp [Station.woken, Station.sleeps])
      moved sleeps
  have owed : source.owes = false → (∃ waker, (stations waker).owes = true) →
      ∃ waker, (Station.passed stations thread target notifies waker).owes = true := by
    intro another
    exact Station.exists_passed here (by rintro (_ | _) <;> simp [Station.woken, Station.owes])
      another
  -- Most passages leave the flag set, and whoever owes a notification goes on owing it.
  have kept : (target.sleeps = true → source.sleeps = true) → source.owes = false →
      (core.word.waiting = true → later.word.waiting = true) → later.word.waiting = true ∨
        ∃ waker, (Station.passed stations thread target notifies waker).owes = true := by
    intro moved another flagged
    exact (remembered sleeper (slept moved)).imp flagged (owed another)
  cases passage with
  | roam _ keeps _ => exact kept id rfl keeps
  | takeLast _ _ _ stillWaits _ => exact Or.inl stillWaits
  | clear _ _ => exact Or.inr ⟨thread, by rw [Station.passed_self]; rfl⟩
  | summon _ => exact Or.inr ⟨thread, by rw [Station.passed_self]; rfl⟩
  | notify =>
      -- Whoever still sleeps is about to park, but the mutex is with the notifier.
      by_cases same : sleeper = thread
      · subst same
        have awake : (Station.passed stations sleeper .inside true sleeper).sleeps = false := by
          rw [Station.passed, if_pos rfl, if_pos rfl]
          rfl
        rw [awake] at sleeps
        cases sleeps
      · have locks : (stations sleeper).locks = true := by
          unfold Station.passed at sleeps
          rw [if_neg same, if_pos rfl] at sleeps
          revert sleeps
          cases stations sleeper <;> simp [Station.woken, Station.sleeps, Station.locks]
        exact absurd (alone sleeper rfl locks) same
  | enter _ => exact kept (by rintro ⟨⟩) rfl id
  | stay => exact kept id rfl id
  | settle waits => exact Or.inl waits
  | leave => exact kept id rfl id
  | park => exact kept (fun _ => rfl) rfl id

/-- While the word goes on showing that someone waits, whoever is about to clear the flag
still is. -/
theorem Passage.clearing (passage : Passage core source target later notifies)
    (here : stations thread = source) (waits : later.word.waiting = true)
    (before : ∃ waker, stations waker = .clearing) :
    ∃ waker, Station.passed stations thread target notifies waker = .clearing := by
  have another : source ≠ .clearing := by
    rintro rfl
    cases passage with
    | clear _ gone => exact absurd (gone.symm.trans waits) Bool.false_ne_true
  have still := @Station.exists_passed thread source target notifies stations
    (· == Station.clearing) here (by rintro (_ | _) <;> simp [Station.woken])
    (by simpa using another) (by simpa using before)
  simpa using still

/-- While the word shows that someone waits, it has holders, or someone is about to
clear the flag. -/
theorem Passage.awaited (passage : Passage core source target later notifies)
    (here : stations thread = source)
    (awaited : core.word.waiting = true →
      0 < core.word.holders ∨ ∃ waker, stations waker = .clearing)
    (waits : later.word.waiting = true) :
    0 < later.word.holders ∨
      ∃ waker, Station.passed stations thread target notifies waker = .clearing := by
  have still := passage.clearing here waits
  have kept : later.word = core.word → 0 < later.word.holders ∨
      ∃ waker, Station.passed stations thread target notifies waker = .clearing := by
    intro same
    rw [same] at waits ⊢
    exact (awaited waits).imp id still
  cases passage with
  | roam _ _ held =>
      rcases held waits with some | ⟨waited, none⟩
      · exact Or.inl some
      · exact Or.inr (still ((awaited waited).resolve_left (by omega)))
  | takeLast _ _ _ _ _ => exact Or.inr ⟨thread, Station.passed_self⟩
  | clear _ gone => exact absurd (gone.symm.trans waits) Bool.false_ne_true
  | summon _ | enter _ | notify | stay | settle _ | leave | park => exact kept rfl

/-- Passing to where a thread has the mutex takes it, and passing on from there gives it
back. -/
theorem Passage.mutex_eq (passage : Passage core source target later notifies)
    (taken : source.locks = true → core.mutex = true) :
    later.mutex.toNat + source.locks.toNat = core.mutex.toNat + target.locks.toNat := by
  cases passage with
  | roam same _ _ => rw [same]
  | takeLast same _ _ _ _ =>
      rw [same]
      rfl
  | clear same _ =>
      rw [same]
      rfl
  | summon free | enter free =>
      rw [free]
      rfl
  | notify | stay | settle _ => rfl
  | leave | park =>
      rw [taken rfl]
      rfl

/-! ## What holds of all threads -/

/-- No thread that sleeps is left without a wake-up to come. -/
structure Parking (system : System) : Prop where
  deliberate : ∀ point ∈ system.threads, point.Deliberate
  locked : system.tally (·.station.locks) = system.core.mutex.toNat
  remembered : ∀ sleeper, (system.station sleeper).sleeps = true →
    system.core.word.waiting = true ∨ ∃ waker, (system.station waker).owes = true
  awaited : system.core.word.waiting = true →
    0 < system.core.word.holders ∨ ∃ waker, system.station waker = .clearing

theorem parking_initial (n : Nat) : Parking (System.initial n) := by
  have outside : ∀ thread, (System.initial n).station thread = .away := by
    intro thread
    simp only [System.station, System.point, System.initial, List.getElem?_replicate]
    split <;> rfl
  constructor
  · intro point member
    rw [List.eq_of_mem_replicate member]
    trivial
  · apply List.countP_eq_zero.mpr
    intro point member
    rw [List.eq_of_mem_replicate member]
    exact Bool.false_ne_true
  · intro sleeper sleeps
    rw [outside] at sleeps
    cases sleeps
  · have free : (0 : Word).waiting = false := by decide
    intro waits
    exact absurd (free.symm.trans waits) Bool.false_ne_true

/-- What the word owes to each thread, it has. -/
theorem Exclusion.bears (exclusion : Exclusion system) (few : system.threads.length < 2 ^ 29)
    (there : system.threads[thread]? = some point) : system.core.word.Bears point := by
  obtain ⟨holders_eq, owned_eq, _⟩ := exclusion.counts
  constructor
  · intro nothing
    have fewer := System.stakes_lt there nothing
    rw [System.guards] at fewer
    omega
  · intro something
    obtain ⟨stake, has⟩ := Option.ne_none_iff_exists'.mp something
    have positive := System.stakes_pos there has
    rcases stake with ⟨_ | _⟩ | _ <;> omega
  · intro owned
    rw [owned_eq, decide_eq_true_iff] at owned
    omega

/-- After a move, all stations are what they were but that of the thread that moved. -/
theorem System.station_apply (move : Move) (there : system.threads[thread]? = some point) :
    (system.apply thread move).station =
      Station.passed system.station thread move.point.station move.notifies := by
  funext other
  rw [System.station, System.point_apply move there, Station.passed, System.station]
  cases move.notifies <;> by_cases same : other = thread <;>
    simp [same, station_woken]

theorem System.point_of_getElem? (there : system.threads[thread]? = some point) :
    system.point thread = point := by
  rw [System.point, there, Option.getD_some]

/-- One thread at most has the mutex. -/
theorem Parking.alone {other : Nat} (parking : Parking system)
    (has : (system.station thread).locks = true)
    (alsoHas : (system.station other).locks = true) : other = thread := by
  have there : ∀ thread, (system.station thread).locks = true →
      system.threads[thread]? = some (system.point thread) := by
    intro thread has
    apply System.getElem?_of_point rfl
    intro outside
    rw [System.station, outside] at has
    cases has
  have one : system.tally (·.station.locks) ≤ 1 := by
    rw [parking.locked]
    exact Bool.toNat_le system.core.mutex
  refine System.eq_of_tally_le_one one ?_ rfl (there thread has) has (there other alsoHas) alsoHas
  intro point
  rw [station_woken]
  cases point.station <;> rfl

/-- Each move of a thread leaves no one without a wake-up to come. -/
theorem Parking.apply (parking : Parking system) (bears : system.core.word.Bears point)
    (there : system.threads[thread]? = some point) (moves : point.Moves system.core move) :
    Parking (system.apply thread move) := by
  have here : system.station thread = point.station := by
    rw [System.station, System.point_of_getElem? there]
  obtain ⟨passage, deliberate⟩ :=
    passes_of_moves (parking.deliberate point (List.mem_of_getElem? there)) bears moves
  have stations := System.station_apply move there
  constructor
  · exact System.forall_apply Point.Deliberate (fun _ => deliberate_woken) parking.deliberate
      deliberate
  · have woken : ∀ point : Point, point.woken.station.locks = point.station.locks := by
      intro point
      rw [station_woken]
      cases point.station <;> rfl
    have changed := system.tally_apply (·.station.locks) move woken there
    have taken : point.station.locks = true → system.core.mutex = true := by
      intro locks
      have positive := @System.tally_pos _ _ _ (·.station.locks) there locks
      rw [parking.locked] at positive
      by_contra free
      rw [Bool.eq_false_of_not_eq_true free] at positive
      exact Nat.lt_irrefl 0 positive
    have weighed : ∀ has : Bool, (if has = true then 1 else 0) = has.toNat := by decide
    have exchanged := passage.mutex_eq taken
    rw [parking.locked, weighed, weighed, ← exchanged] at changed
    exact Nat.add_right_cancel changed
  · intro sleeper
    rw [stations]
    exact passage.remembered here (fun other locks => parking.alone (here ▸ locks))
      parking.remembered sleeper
  · rw [stations]
    exact passage.awaited here parking.awaited

theorem Reachable.parking (few : n < 2 ^ 29) (reachable : Reachable n system) :
    Parking system := by
  induction reachable with
  | initial => exact parking_initial n
  | step before next parking =>
      obtain ⟨thread, point, move, there, moves, rfl⟩ := next.moves
      obtain ⟨exclusion, length⟩ := before.exclusion few
      exact parking.apply (exclusion.bears (length ▸ few) there) there moves

/-! ## What parked threads rely on -/

/-- The thread is outside of all code of the lock, with a guard or without, or parked. -/
def Point.Settled : Point → Prop
  | .outside | .holding _ | .waiting _ .parked => True
  | _ => False

/-- A thread comes to clear the flag by taking the last hold away while someone waits. -/
theorem Passage.took_last (passage : Passage core source .clearing later notifies) :
    core.word.waiting = true ∧ core.word.holders = 1 ∧ later.word.holders = 0 := by
  cases passage with
  | takeLast _ waits last _ emptied => exact ⟨waits, last, emptied⟩

theorem Parking.took_last (parking : Parking system) (bears : system.core.word.Bears point)
    (there : system.threads[thread]? = some point) (moves : point.Moves system.core move)
    {waker : Nat} {why : Leave}
    (clears : (system.apply thread move).point waker = .waking .clear why) :
    system.point waker = .waking .clear why ∨
      system.core.word.waiting = true ∧ system.core.word.holders = 1 ∧
        move.core.word.holders = 0 := by
  have unwoken : ∀ point : Point, point.woken = .waking .clear why →
      point = .waking .clear why := by
    intro point woken
    unfold Point.woken at woken
    split at woken
    · cases woken
    · exact woken
  rw [System.point_apply move there] at clears
  have stands : (if waker = thread then move.point else system.point waker) =
      .waking .clear why := by
    split at clears
    · exact unwoken _ clears
    · exact clears
  by_cases same : waker = thread
  · rw [if_pos same] at stands
    obtain ⟨passage, _⟩ :=
      passes_of_moves (parking.deliberate point (List.mem_of_getElem? there)) bears moves
    rw [stands] at passage
    exact Or.inr passage.took_last
  · rw [if_neg same] at stands
    exact Or.inl stands

/-- A thread that is settled is no reader about to leave again, and wakes no one. -/
theorem Point.Settled.still (settled : point.Settled) :
    point.stake? ≠ some .turnedAway ∧ point.station ≠ .clearing ∧
      point.station.owes = false := by
  unfold Point.Settled at settled
  split at settled
  · exact ⟨by simp [Point.stake?], by simp [Point.station], rfl⟩
  · exact ⟨by simp [Point.stake?], by simp [Point.station], rfl⟩
  · exact ⟨by simp [Point.stake?], by simp [Point.station], rfl⟩
  · exact settled.elim

theorem Point.clears_of_station (clears : point.station = .clearing) :
    ∃ why, point = .waking .clear why := by
  unfold Point.station at clears
  split at clears <;> cases clears
  exact ⟨_, rfl⟩

theorem Point.notifies_of_station (owes : point.station.owes = true) :
    ∃ why, point = .waking .lock why ∨ point = .waking .notify why := by
  unfold Point.station at owes
  split at owes <;> cases owes
  · exact ⟨_, Or.inl rfl⟩
  · exact ⟨_, Or.inr rfl⟩

/-- A parked thread is not forgotten: the word shows that someone waits and has holders,
or it shows so and someone has still to clear the flag, or someone cleared it and has
still to notify. -/
theorem Parking.hears (parking : Parking system) {sleeper : Nat}
    (sleeps : (system.station sleeper).sleeps = true) :
    (system.core.word.waiting = true ∧ 0 < system.core.word.holders) ∨
      (system.core.word.waiting = true ∧ ∃ waker, system.station waker = .clearing) ∨
        ∃ waker, (system.station waker).owes = true := by
  rcases parking.remembered sleeper sleeps with waits | owes
  · rcases parking.awaited waits with held | clears
    · exact Or.inl ⟨waits, held⟩
    · exact Or.inr (Or.inl ⟨waits, clears⟩)
  · exact Or.inr (Or.inr owes)

/-- In every reachable system with a parked thread, the waiting flag is set and someone
is inside, or the flag is set and a thread has still to clear it, or a thread cleared it
and has still to notify.  A thread comes to clear the flag by taking the last hold away.
So it never happens that a thread is parked while no guard is live and all others are
settled. -/
theorem wakeup_of_reachable (few : n < 2 ^ 29) (reachable : Reachable n system) :
    (∀ sleeper mode, system.point sleeper = .waiting mode .parked →
        (system.core.word.waiting = true ∧ 0 < system.core.word.holders) ∨
        (system.core.word.waiting = true ∧ ∃ waker why, system.point waker = .waking .clear why) ∨
        ∃ waker why, system.point waker = .waking .lock why ∨
          system.point waker = .waking .notify why) ∧
      (∀ after waker why, Step system after → after.point waker = .waking .clear why →
        system.point waker = .waking .clear why ∨
          system.core.word.waiting = true ∧ system.core.word.holders = 1 ∧
            after.core.word.holders = 0) ∧
      ∀ sleeper mode, system.point sleeper = .waiting mode .parked →
        ¬((∀ other mode, (system.point other).stake? ≠ some (.guard mode)) ∧
          ∀ other, other ≠ sleeper → (system.point other).Settled) := by
  obtain ⟨exclusion, length⟩ := reachable.exclusion few
  have parking := reachable.parking few
  have sleeps : ∀ {sleeper mode}, system.point sleeper = .waiting mode .parked →
      (system.station sleeper).sleeps = true := by
    intro sleeper mode parked
    rw [System.station, parked]
    rfl
  refine ⟨?_, ?_, ?_⟩
  · intro sleeper mode parked
    refine (parking.hears (sleeps parked)).imp_right (Or.imp ?_ ?_)
    · rintro ⟨waits, waker, clears⟩
      exact ⟨waits, waker, Point.clears_of_station clears⟩
    · rintro ⟨waker, owes⟩
      exact ⟨waker, Point.notifies_of_station owes⟩
  · intro after waker why next clears
    obtain ⟨thread, point, move, there, moves, rfl⟩ := next.moves
    exact parking.took_last (exclusion.bears (length ▸ few) there) there moves clears
  · rintro sleeper mode parked ⟨unguarded, settled⟩
    have still : ∀ other, (system.point other).stake? ≠ some .turnedAway ∧
        system.station other ≠ .clearing ∧ (system.station other).owes = false := by
      intro other
      by_cases same : other = sleeper
      · rw [System.station, same, parked]
        exact Point.Settled.still trivial
      · exact (settled other same).still
    rcases parking.hears (sleeps parked) with ⟨_, held⟩ | ⟨_, waker, clears⟩ | ⟨waker, owes⟩
    · have noGuard := System.guards_eq_zero_iff.mpr unguarded
      have noneTurned := System.stakes_eq_zero_iff.mpr fun other => (still other).1
      rw [System.guards] at noGuard
      rw [exclusion.counts.holders_eq, noGuard, noneTurned] at held
      exact Nat.lt_irrefl 0 held
    · exact (still waker).2.1 clears
    · rw [(still waker).2.2] at owes
      cases owes

set_option maxRecDepth 100000 in
/-- A reader inside, and a writer that has parked. -/
theorem wakeup_of_reachable_pair :
    ∃ system, Reachable 2 system ∧ system.point 0 = .holding .shared ∧
      system.point 1 = .waiting .exclusive .parked ∧
        ((system.core.word.waiting = true ∧ 0 < system.core.word.holders) ∨
          (system.core.word.waiting = true ∧
            ∃ waker why, system.point waker = .waking .clear why) ∨
          ∃ waker why, system.point waker = .waking .lock why ∨
            system.point waker = .waking .notify why) ∧
          ¬((∀ other mode, (system.point other).stake? ≠ some (.guard mode)) ∧
            ∀ other, other ≠ 1 → (system.point other).Settled) := by
  have reachable := (@Reachable.initial 2).perform 0 (.acquire .shared .untilHeld)
    |>.perform 1 (.acquire .exclusive .untilHeld)
  have parked : (((System.initial 2).perform 0 (.acquire .shared .untilHeld)).perform 1
      (.acquire .exclusive .untilHeld)).point 1 = .waiting .exclusive .parked := by
    decide +kernel
  obtain ⟨hears, _, rests⟩ := wakeup_of_reachable (by decide) reachable
  exact ⟨_, reachable, by decide +kernel, parked, hears 1 _ parked, rests 1 _ parked⟩

end SlabTree.Lock
