import SlabTree.Proofs.Lock.Exclusion

/-!
# From station to station

Whoever finds the waiting flag set under the mutex parks, and whoever takes the last
hold away while the flag is set clears it, takes the mutex and notifies.  How far a
thread has come in this is its station.  Few moves lead from one station to another,
and each of them does one thing to the word or to the mutex.
-/

namespace SlabTree.Lock

/-- How far a thread has come in parking, or in waking those who are parked. -/
inductive Station
  /-- It does neither. -/
  | away
  /-- It took the last hold away and has still to clear the waiting flag. -/
  | clearing
  /-- It cleared the flag and has still to take the mutex. -/
  | summoning
  /-- It has the mutex and has still to notify. -/
  | notifying
  /-- It has the mutex for nothing but a look, or to give it back. -/
  | inside
  /-- It has the mutex and is about to park. -/
  | settling
  | parked
  deriving DecidableEq

namespace Station

/-- Whether a thread there has the mutex. -/
def locks : Station → Bool
  | .notifying | .inside | .settling => true
  | .away | .clearing | .summoning | .parked => false

/-- Whether a thread there waits to be notified, or is about to. -/
def sleeps : Station → Bool
  | .settling | .parked => true
  | .away | .clearing | .summoning | .notifying | .inside => false

/-- Whether a thread there has cleared the flag and has still to notify. -/
def owes : Station → Bool
  | .summoning | .notifying => true
  | .away | .clearing | .inside | .settling | .parked => false

/-- Where a thread is once everyone who is parked has been woken. -/
def woken : Station → Station
  | .parked => .away
  | station => station

end Station

/-- How far a thread has come. -/
def Point.station : Point → Station
  | .waking .clear _ => .clearing
  | .waking .lock _ => .summoning
  | .waking .notify _ => .notifying
  | .waking .unlock _ | .waiting _ .check | .waiting _ .unlock => .inside
  | .waiting _ .park => .settling
  | .waiting _ .parked => .parked
  | _ => .away

/-- How far a thread of a system has come. -/
def System.station (system : System) (thread : Nat) : Station :=
  (system.point thread).station

/-- A thread about to set the waiting flag has seen that someone is inside, and only
writers announce themselves. -/
def Point.Deliberate : Point → Prop
  | .waiting _ (.flag seen) => seen.held = true
  | .waiting mode .announce | .waiting mode (.reannounce _) => mode = .exclusive
  | _ => True

/-- The thread neither parks nor wakes. -/
def Point.Away (point : Point) : Prop :=
  point.station = .away ∧ point.Deliberate

variable {point : Point} {core : Core} {move : Move}

/-! ## Where threads go -/

theorem station_woken (point : Point) : point.woken.station = point.station.woken := by
  unfold Point.woken
  split
  · rfl
  · rename_i apart
    unfold Station.woken
    split
    · rename_i parked
      unfold Point.station at parked
      split at parked <;> cases parked
      exact absurd rfl (apart _)
    · rfl

theorem deliberate_woken (deliberate : point.Deliberate) : point.woken.Deliberate := by
  unfold Point.woken
  split
  · trivial
  · exact deliberate

theorem away_afterLeaving (why : Leave) : (Point.afterLeaving why).Away := by
  unfold Point.afterLeaving
  split <;> exact ⟨rfl, trivial⟩

theorem away_retry (mode : Mode) : (Point.retry mode).Away := by
  cases mode <;> exact ⟨rfl, trivial⟩

theorem away_claimOrGiveUp (patience : Patience) (seen : Word) :
    (Point.claimOrGiveUp patience seen).Away := by
  unfold Point.claimOrGiveUp
  split
  · cases patience
    · exact ⟨rfl, trivial⟩
    · exact ⟨rfl, rfl⟩
  · exact ⟨rfl, trivial⟩

theorem away_spinOn (mode : Mode) (left : Nat) : (Point.spinOn mode left).Away := by
  cases left <;> exact ⟨rfl, trivial⟩

theorem away_parkOrRetry (mode : Mode) (seen : Word) : (Point.parkOrRetry mode seen).Away := by
  unfold Point.parkOrRetry
  split
  · exact away_retry mode
  split
  · exact ⟨rfl, trivial⟩
  split
  · exact away_retry mode
  · rename_i held
    exact ⟨rfl, by simpa [Point.Deliberate] using held⟩

theorem away_spinOrRetry (mode : Mode) (left : Nat) (seen : Word) :
    (Point.spinOrRetry mode left seen).Away := by
  unfold Point.spinOrRetry
  split
  · exact away_retry mode
  split
  · rename_i announces
    exact ⟨rfl, announces.1⟩
  · exact away_spinOn mode left

/-! ## From station to station -/

/-- What a move does to the station of its thread, to the word and to the mutex. -/
inductive Passage (core : Core) : Station → Station → Core → Bool → Prop
  /-- A word that newly shows the waiting flag or newly is without holders is either
  without the flag or has holders. -/
  | roam {later : Core} (mutex_eq : later.mutex = core.mutex)
      (keeps : core.word.waiting = true → later.word.waiting = true)
      (awaited : later.word.waiting = true → 0 < later.word.holders ∨
        core.word.waiting = true ∧ core.word.holders = 0) :
      Passage core .away .away later false
  | takeLast {later : Core} (mutex_eq : later.mutex = core.mutex) (waits : core.word.waiting = true)
      (last : core.word.holders = 1) (stillWaits : later.word.waiting = true)
      (emptied : later.word.holders = 0) : Passage core .away .clearing later false
  | clear {later : Core} (mutex_eq : later.mutex = core.mutex)
      (cleared : later.word.waiting = false) :
      Passage core .clearing .summoning later false
  | summon (free : core.mutex = false) :
      Passage core .summoning .notifying { core with mutex := true } false
  | notify : Passage core .notifying .inside core true
  | enter (free : core.mutex = false) :
      Passage core .away .inside { core with mutex := true } false
  | stay : Passage core .inside .inside core false
  | settle (waits : core.word.waiting = true) : Passage core .inside .settling core false
  | leave : Passage core .inside .away { core with mutex := false } false
  | park : Passage core .settling .parked { core with mutex := false } false

/-- The move passes from the station of its thread to the next, and leads to a
deliberate point. -/
def Point.Passes (point : Point) (core : Core) (move : Move) : Prop :=
  Passage core point.station move.point.station move.core move.notifies ∧ move.point.Deliberate

/-- What the word owes to a thread that stands at a point: room to join, or the hold
that the thread has. -/
structure Word.Bears (word : Word) (point : Point) : Prop where
  room : point.stake? = none → word.holders + 1 < 2 ^ 29
  used : point.stake? ≠ none → 0 < word.holders
  owned : word.owned = true → 0 < word.holders

theorem Word.Bears.of_held {word : Word} (bears : word.Bears point) (held : word.held = true) :
    0 < word.holders := by
  rw [held_eq, Bool.or_eq_true, decide_eq_true_iff] at held
  exact held.elim bears.owned id

/-- A thread that stays away, and a word whose waiting flag and holders stay. -/
theorem passes_away {after : Core} {next : Point} (here : point.station = .away)
    (away : next.Away) (mutex_eq : after.mutex = core.mutex)
    (waiting_eq : after.word.waiting = core.word.waiting)
    (holders_eq : after.word.holders = core.word.holders) :
    point.Passes core ⟨next, after, false⟩ := by
  refine ⟨?_, away.2⟩
  rw [here, away.1]
  refine .roam mutex_eq (fun waits => waiting_eq.trans waits) ?_
  intro waits
  rw [waiting_eq] at waits
  rw [holders_eq]
  rcases Nat.eq_zero_or_pos core.word.holders with none | some
  · exact Or.inr ⟨waits, none⟩
  · exact Or.inl some

/-- A thread that stays away, and a word with holders whose waiting flag stays. -/
theorem passes_held {after : Word} {next : Point} (here : point.station = .away)
    (away : next.Away) (keeps : core.word.waiting = true → after.waiting = true)
    (held : after.waiting = true → 0 < after.holders) :
    point.Passes core ⟨next, { core with word := after }, false⟩ := by
  refine ⟨?_, away.2⟩
  rw [here, away.1]
  exact .roam rfl keeps fun waits => Or.inl (held waits)

/-- Whoever gives a hold up wakes those who wait if it was the last. -/
theorem passes_release {before after : Word} {why : Leave} (here : point.station = .away)
    (used : 0 < core.word.holders) (same : core.word = before)
    (waiting_eq : after.waiting = before.waiting)
    (holders_eq : after.holders = before.holders - 1) :
    point.Passes core
      ⟨Point.afterRelease before why, { core with word := after }, false⟩ := by
  subst same
  unfold Point.afterRelease
  rw [Word.lastAwaited_eq]
  cases waits : core.word.waiting with
  | false =>
      rw [Bool.false_and, if_neg Bool.false_ne_true]
      rw [waits] at waiting_eq
      apply passes_held here (away_afterLeaving why)
      · intro flagged
        rw [waits] at flagged
        cases flagged
      · intro flagged
        rw [waiting_eq] at flagged
        cases flagged
  | true =>
      rw [Bool.true_and]
      rw [waits] at waiting_eq
      by_cases last : core.word.holders = 1
      · rw [if_pos (decide_eq_true last)]
        refine ⟨?_, trivial⟩
        rw [here]
        exact .takeLast rfl waits last waiting_eq (by rw [holders_eq, last])
      · rw [if_neg (by simpa using last)]
        apply passes_held here (away_afterLeaving why)
        · exact fun _ => waiting_eq
        · intro _
          omega

theorem passes_start {call : Call} {next : Point} (started : point.start? call = some next) :
    point.Passes core ⟨next, core, false⟩ := by
  unfold Point.start? at started
  split at started <;> cases started <;> exact passes_away rfl ⟨rfl, trivial⟩ rfl rfl rfl

theorem passes_misfire {next : Point} (misfired : point.misfire? core = some next) :
    point.Passes core ⟨next, core, false⟩ := by
  unfold Point.misfire? at misfired
  split at misfired <;> cases misfired
  · exact passes_away rfl (away_claimOrGiveUp _ _) rfl rfl rfl
  · exact passes_away rfl ⟨rfl, trivial⟩ rfl rfl rfl
  · exact passes_away rfl (away_parkOrRetry _ _) rfl rfl rfl

theorem passes_step_waking {stage : Waking} {why : Leave}
    (stepped : (Point.waking stage why).step? core = some move) :
    (Point.waking stage why).Passes core move := by
  cases stage with
  | clear =>
      cases stepped
      have shows := Word.snapshot_clearWaiting core.word
      exact ⟨.clear rfl (congrArg Snapshot.waiting shows), trivial⟩
  | lock =>
      simp only [Point.step?] at stepped
      split at stepped <;> cases stepped
      rename_i free
      exact ⟨.summon (Bool.eq_false_of_not_eq_true free), trivial⟩
  | notify =>
      cases stepped
      exact ⟨.notify, trivial⟩
  | unlock =>
      cases stepped
      obtain ⟨away, deliberate⟩ := away_afterLeaving why
      refine ⟨?_, deliberate⟩
      simp only [away]
      exact .leave

theorem passes_step_waiting {mode : Mode} {stage : Waiting}
    (deliberate : (Point.waiting mode stage).Deliberate)
    (bears : core.word.Bears (.waiting mode stage))
    (stepped : (Point.waiting mode stage).step? core = some move) :
    (Point.waiting mode stage).Passes core move := by
  cases stage with
  | announce =>
      cases stepped
      have shows := Word.snapshot_setQueued core.word
      exact passes_away rfl ⟨rfl, trivial⟩ rfl (congrArg Snapshot.waiting shows)
        (congrArg Snapshot.holders shows)
  | spin left =>
      cases stepped
      exact passes_away rfl (away_spinOrRetry mode left core.word) rfl rfl rfl
  | reannounce left =>
      cases stepped
      have shows := Word.snapshot_setQueued core.word
      exact passes_away rfl (away_spinOn mode left) rfl (congrArg Snapshot.waiting shows)
        (congrArg Snapshot.holders shows)
  | weigh =>
      cases stepped
      exact passes_away rfl (away_parkOrRetry mode core.word) rfl rfl rfl
  | flag seen =>
      simp only [Point.step?] at stepped
      split at stepped <;> cases stepped
      · rename_i same
        subst same
        have shows := Word.snapshot_setWaiting core.word
        have holders_eq : core.word.setWaiting.holders = core.word.holders :=
          congrArg Snapshot.holders shows
        exact passes_held rfl ⟨rfl, trivial⟩ (fun _ => congrArg Snapshot.waiting shows)
          fun _ => holders_eq ▸ bears.of_held deliberate
      · exact passes_away rfl (away_parkOrRetry mode core.word) rfl rfl rfl
  | lock =>
      simp only [Point.step?] at stepped
      split at stepped <;> cases stepped
      rename_i free
      exact ⟨.enter (Bool.eq_false_of_not_eq_true free), trivial⟩
  | check =>
      cases stepped
      cases waits : core.word.waiting with
      | true => exact ⟨.settle waits, trivial⟩
      | false => exact ⟨.stay, trivial⟩
  | park =>
      cases stepped
      exact ⟨.park, trivial⟩
  | parked => cases stepped
  | relock =>
      simp only [Point.step?] at stepped
      split at stepped <;> cases stepped
      rename_i free
      exact ⟨.enter (Bool.eq_false_of_not_eq_true free), trivial⟩
  | unlock =>
      cases stepped
      obtain ⟨away, deliberate⟩ := away_retry mode
      refine ⟨?_, deliberate⟩
      simp only [away]
      exact .leave

theorem passes_step (deliberate : point.Deliberate) (bears : core.word.Bears point)
    (stepped : point.step? core = some move) : point.Passes core move := by
  cases point with
  | outside => cases stepped
  | holding mode => cases stepped
  | joining patience =>
      cases stepped
      have shows := Word.snapshot_join (bears.room rfl)
      have holders_eq : core.word.join.holders = core.word.holders + 1 :=
        congrArg Snapshot.holders shows
      apply passes_held rfl
      · split <;> exact ⟨rfl, trivial⟩
      · exact fun waits => (congrArg Snapshot.waiting shows).trans waits
      · intro _
        omega
  | leaving why =>
      cases stepped
      have used : 0 < core.word.holders := bears.used (by cases why <;> simp [Point.stake?])
      have shows := Word.snapshot_leave used
      exact passes_release rfl used rfl (congrArg Snapshot.waiting shows)
        (congrArg Snapshot.holders shows)
  | looking patience =>
      cases stepped
      exact passes_away rfl (away_claimOrGiveUp patience core.word) rfl rfl rfl
  | claiming patience seen =>
      simp only [Point.step?] at stepped
      split at stepped <;> cases stepped
      · rename_i same
        subst same
        have shows := Word.snapshot_claim core.word
        have holders_eq : core.word.claim.holders = 1 := congrArg Snapshot.holders shows
        have away : (Point.holding .exclusive).Away := ⟨rfl, trivial⟩
        apply passes_held rfl away
        · exact fun waits => (congrArg Snapshot.waiting shows).trans waits
        · intro _
          omega
      · exact passes_away rfl (away_claimOrGiveUp patience core.word) rfl rfl rfl
  | unlocking =>
      cases stepped
      exact passes_away rfl ⟨rfl, trivial⟩ rfl rfl rfl
  | unclaiming seen =>
      simp only [Point.step?] at stepped
      split at stepped <;> cases stepped
      · rename_i same
        have used : 0 < core.word.holders := bears.used (by simp [Point.stake?])
        have shows := @Word.snapshot_unclaim seen (same ▸ used)
        exact passes_release rfl used same (congrArg Snapshot.waiting shows)
          (congrArg Snapshot.holders shows)
      · exact passes_away rfl ⟨rfl, trivial⟩ rfl rfl rfl
  | waking stage why => exact passes_step_waking stepped
  | waiting mode stage => exact passes_step_waiting deliberate bears stepped

theorem passes_of_moves (deliberate : point.Deliberate) (bears : core.word.Bears point)
    (moves : point.Moves core move) : point.Passes core move := by
  cases moves with
  | start started => exact passes_start started
  | step stepped => exact passes_step deliberate bears stepped
  | misfire misfired => exact passes_misfire misfired

end SlabTree.Lock
