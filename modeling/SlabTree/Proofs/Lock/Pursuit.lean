import SlabTree.Proofs.Lock.Parking

/-!
# Who keeps others out

A thread that waits until it gets in pursues a mode from its first step until it holds.
No flag that keeps others out is left behind by threads that are gone: while the
waiting flag is set some thread pursues a mode, unless the flag is about to be cleared,
and while the queued flag is set some thread pursues the exclusive one.
-/

namespace SlabTree.Lock

/-- The mode that a thread of some patience is bound to end up with. -/
def Patience.pursues? (mode : Mode) : Patience → Option Mode
  | .once => none
  | .untilHeld => some mode

/-- The mode that a thread pursues after giving a hold up. -/
def Leave.pursues? : Leave → Option Mode
  | .done => none
  | .turnedAway patience => patience.pursues? .shared

/-- The mode that a thread pursues. -/
def Point.pursues? : Point → Option Mode
  | .joining patience => patience.pursues? .shared
  | .looking patience | .claiming patience _ => patience.pursues? .exclusive
  | .leaving why | .waking _ why => why.pursues?
  | .waiting mode _ => some mode
  | .outside | .holding _ | .unlocking | .unclaiming _ => none

variable {system : System} {point next : Point} {core : Core} {move : Move}
  {word after : Word} {thread n : Nat}

/-! ## Where pursuits lead -/

@[simp]
theorem pursues?_woken (point : Point) : point.woken.pursues? = point.pursues? := by
  unfold Point.woken
  split <;> rfl

@[simp]
theorem pursues?_afterLeaving (why : Leave) : (Point.afterLeaving why).pursues? = why.pursues? := by
  unfold Point.afterLeaving
  split <;> rfl

@[simp]
theorem pursues?_afterRelease (before : Word) (why : Leave) :
    (Point.afterRelease before why).pursues? = why.pursues? := by
  unfold Point.afterRelease
  split
  · rfl
  · exact pursues?_afterLeaving why

@[simp]
theorem pursues?_retry (mode : Mode) : (Point.retry mode).pursues? = some mode := by
  cases mode <;> rfl

@[simp]
theorem pursues?_claimOrGiveUp (patience : Patience) (seen : Word) :
    (Point.claimOrGiveUp patience seen).pursues? = patience.pursues? .exclusive := by
  unfold Point.claimOrGiveUp
  split
  · cases patience <;> rfl
  · rfl

@[simp]
theorem pursues?_spinOn (mode : Mode) (left : Nat) :
    (Point.spinOn mode left).pursues? = some mode := by
  cases left <;> rfl

@[simp]
theorem pursues?_parkOrRetry (mode : Mode) (seen : Word) :
    (Point.parkOrRetry mode seen).pursues? = some mode := by
  unfold Point.parkOrRetry
  repeat' split
  all_goals first | exact pursues?_retry mode | rfl

@[simp]
theorem pursues?_spinOrRetry (mode : Mode) (left : Nat) (seen : Word) :
    (Point.spinOrRetry mode left seen).pursues? = some mode := by
  unfold Point.spinOrRetry
  repeat' split
  · exact pursues?_retry mode
  · rfl
  · exact pursues?_spinOn mode left

/-- What a move does to the flags of the word, given what its thread pursued and what it
pursues then: whoever sets a flag pursues a mode, and whoever stops got in. -/
structure Strives (word after : Word) (before next : Option Mode) : Prop where
  waits : after.waiting = true → word.waiting = true ∨ next ≠ none
  queues : after.queued = true → word.queued = true ∨ next = some .exclusive
  goes_on : ∀ mode, before = some mode →
    next = some mode ∨ word.closed = false ∨ word.held = false ∧ after.queued = false

/-- A move that sets no flag and goes on pursuing what there was to pursue. -/
theorem strives_on {before next : Option Mode} {holders : Nat} {owned waiting queued : Bool}
    (shows : after.snapshot = ⟨holders, owned, waiting, queued⟩)
    (waits : waiting = true → word.waiting = true) (queues : queued = true → word.queued = true)
    (goes_on : ∀ mode, before = some mode → next = some mode) :
    Strives word after before next where
  waits := fun flagged => Or.inl (waits ((congrArg Snapshot.waiting shows).symm.trans flagged))
  queues := fun flagged =>
    Or.inl (queues ((congrArg Snapshot.writerQueued shows).symm.trans flagged))
  goes_on := fun mode pursued => Or.inl (goes_on mode pursued)

/-- A move that sets no flag and leads inside. -/
theorem strives_in {before : Option Mode} {holders : Nat} {owned waiting queued : Bool}
    (shows : after.snapshot = ⟨holders, owned, waiting, queued⟩)
    (waits : waiting = true → word.waiting = true) (queues : queued = true → word.queued = true)
    (enters : word.closed = false ∨ word.held = false ∧ queued = false) :
    Strives word after before none where
  waits := fun flagged => Or.inl (waits ((congrArg Snapshot.waiting shows).symm.trans flagged))
  queues := fun flagged =>
    Or.inl (queues ((congrArg Snapshot.writerQueued shows).symm.trans flagged))
  goes_on := fun _ _ => Or.inr (enters.imp_right fun ⟨free, unqueued⟩ =>
    ⟨free, (congrArg Snapshot.writerQueued shows).trans unqueued⟩)

theorem strives_same {before next : Option Mode}
    (goes_on : ∀ mode, before = some mode → next = some mode) :
    Strives word word before next :=
  strives_on rfl id id goes_on

theorem strives_start {call : Call} (started : point.start? call = some next) :
    Strives word word point.pursues? next.pursues? := by
  apply strives_same
  unfold Point.start? at started
  split at started <;> cases started <;> exact fun _ pursued => nomatch pursued

theorem strives_misfire (misfired : point.misfire? core = some next) :
    Strives core.word core.word point.pursues? next.pursues? := by
  apply strives_same
  unfold Point.misfire? at misfired
  split at misfired <;> cases misfired
  · rw [pursues?_claimOrGiveUp]
    exact fun _ => id
  · exact fun _ => id
  · rw [pursues?_parkOrRetry]
    exact fun _ => id

theorem strives_step_waking {stage : Waking} {why : Leave}
    (stepped : (Point.waking stage why).step? core = some move) :
    Strives core.word move.core.word (Point.waking stage why).pursues? move.point.pursues? := by
  cases stage with
  | clear =>
      cases stepped
      refine strives_on (Word.snapshot_clearWaiting core.word) ?_ id fun _ => id
      rintro ⟨⟩
  | lock =>
      simp only [Point.step?] at stepped
      split at stepped <;> cases stepped
      exact strives_same fun _ => id
  | notify =>
      cases stepped
      exact strives_same fun _ => id
  | unlock =>
      cases stepped
      rw [pursues?_afterLeaving]
      exact strives_same fun _ => id

theorem strives_step_waiting {mode : Mode} {stage : Waiting}
    (deliberate : (Point.waiting mode stage).Deliberate)
    (stepped : (Point.waiting mode stage).step? core = some move) :
    Strives core.word move.core.word (some mode) move.point.pursues? := by
  have queued : ∀ next, next = some mode → mode = .exclusive →
      Strives core.word core.word.setQueued (some mode) next := by
    rintro next rfl rfl
    have shows := Word.snapshot_setQueued core.word
    refine ⟨fun flagged => Or.inl ?_, fun _ => Or.inr rfl, fun _ => Or.inl⟩
    exact (congrArg Snapshot.waiting shows).symm.trans flagged
  cases stage with
  | announce =>
      cases stepped
      exact queued _ rfl deliberate
  | spin left =>
      cases stepped
      exact strives_same fun _ pursued => pursued ▸ pursues?_spinOrRetry mode left core.word
  | reannounce left =>
      cases stepped
      exact queued _ (pursues?_spinOn mode left) deliberate
  | weigh =>
      cases stepped
      exact strives_same fun _ pursued => pursued ▸ pursues?_parkOrRetry mode core.word
  | flag seen =>
      simp only [Point.step?] at stepped
      split at stepped <;> cases stepped
      · rename_i same
        subst same
        have shows := Word.snapshot_setWaiting core.word
        refine ⟨fun _ => Or.inr (by simp [Point.pursues?]), fun flagged => Or.inl ?_,
          fun _ => Or.inl⟩
        exact (congrArg Snapshot.writerQueued shows).symm.trans flagged
      · exact strives_same fun _ pursued => pursued ▸ pursues?_parkOrRetry mode core.word
  | lock =>
      simp only [Point.step?] at stepped
      split at stepped <;> cases stepped
      exact strives_same fun _ => id
  | check =>
      cases stepped
      exact strives_same fun _ => id
  | park =>
      cases stepped
      exact strives_same fun _ => id
  | parked => cases stepped
  | relock =>
      simp only [Point.step?] at stepped
      split at stepped <;> cases stepped
      exact strives_same fun _ => id
  | unlock =>
      cases stepped
      exact strives_same fun _ pursued => pursued ▸ pursues?_retry mode

theorem strives_step (careful : point.Careful) (deliberate : point.Deliberate)
    (bears : core.word.Bears point) (stepped : point.step? core = some move) :
    Strives core.word move.core.word point.pursues? move.point.pursues? := by
  cases point with
  | outside => cases stepped
  | holding mode => cases stepped
  | joining patience =>
      cases stepped
      have shows := Word.snapshot_join (bears.room rfl)
      cases closed : core.word.closed with
      | true => exact strives_on shows id id fun _ => id
      | false => exact strives_in shows id id (Or.inl closed)
  | leaving why =>
      cases stepped
      have used : 0 < core.word.holders := bears.used (by cases why <;> simp [Point.stake?])
      rw [pursues?_afterRelease]
      exact strives_on (Word.snapshot_leave used) id id fun _ => id
  | looking patience =>
      cases stepped
      rw [pursues?_claimOrGiveUp]
      exact strives_same fun _ => id
  | claiming patience seen =>
      simp only [Point.step?] at stepped
      split at stepped <;> cases stepped
      · rename_i same
        subst same
        refine strives_in (Word.snapshot_claim core.word) id ?_ (Or.inr ⟨careful, rfl⟩)
        exact fun flagged => absurd flagged Bool.false_ne_true
      · rw [pursues?_claimOrGiveUp]
        exact strives_same fun _ => id
  | unlocking =>
      cases stepped
      exact strives_same fun _ => id
  | unclaiming seen =>
      simp only [Point.step?] at stepped
      split at stepped <;> cases stepped
      · rename_i same
        have used : 0 < core.word.holders := bears.used (by simp [Point.stake?])
        subst same
        rw [pursues?_afterRelease]
        exact strives_on (Word.snapshot_unclaim used) id id fun _ => id
      · exact strives_same fun _ => id
  | waking stage why => exact strives_step_waking stepped
  | waiting mode stage => exact strives_step_waiting deliberate stepped

theorem strives_of_moves (careful : point.Careful) (deliberate : point.Deliberate)
    (bears : core.word.Bears point) (moves : point.Moves core move) :
    Strives core.word move.core.word point.pursues? move.point.pursues? := by
  cases moves with
  | start started => exact strives_start started
  | step stepped => exact strives_step careful deliberate bears stepped
  | misfire misfired => exact strives_misfire misfired

/-! ## What the flags stand for -/

/-- While the waiting flag is set, someone is about to clear it or pursues a mode, and
while the queued flag is set, someone pursues the exclusive mode. -/
structure Upheld (system : System) : Prop where
  waiting : system.core.word.waiting = true → (∃ waker, system.station waker = .clearing) ∨
    ∃ thread, (system.point thread).pursues? ≠ none
  queued : system.core.word.queued = true →
    ∃ thread, (system.point thread).pursues? = some .exclusive

theorem upheld_initial (n : Nat) : Upheld (System.initial n) := by
  have unwaited : (0 : Word).waiting = false := by decide
  have unqueued : (0 : Word).queued = false := by decide
  constructor
  · exact fun flagged => absurd (unwaited.symm.trans flagged) Bool.false_ne_true
  · exact fun flagged => absurd (unqueued.symm.trans flagged) Bool.false_ne_true

theorem System.pursues?_apply (move : Move) (there : system.threads[thread]? = some point)
    (other : Nat) : ((system.apply thread move).point other).pursues? =
      if other = thread then move.point.pursues? else (system.point other).pursues? := by
  rw [point_apply move there]
  split <;> split <;> simp

/-- A pursuit of some thread goes on after a move, or it was the one of the thread that
moved. -/
theorem System.goes_on (move : Move) (there : system.threads[thread]? = some point)
    {other : Nat} {mode : Mode} (pursued : (system.point other).pursues? = some mode) :
    (∃ other, ((system.apply thread move).point other).pursues? = some mode) ∨
      point.pursues? = some mode := by
  by_cases same : other = thread
  · rw [same, point_of_getElem? there] at pursued
    exact Or.inr pursued
  · refine Or.inl ⟨other, ?_⟩
    rw [pursues?_apply move there, if_neg same]
    exact pursued

/-- Each move of a thread leaves no flag behind for which nobody stands. -/
theorem Upheld.apply (upheld : Upheld system) (parking : Parking system)
    (exclusion : Exclusion system) (few : system.threads.length < 2 ^ 29)
    (there : system.threads[thread]? = some point) (moves : point.Moves system.core move) :
    Upheld (system.apply thread move) := by
  have member := List.mem_of_getElem? there
  have bears := exclusion.bears few there
  have deliberate := parking.deliberate point member
  obtain ⟨passage, _⟩ := passes_of_moves deliberate bears moves
  obtain ⟨waits, queues, goes_on⟩ :=
    strives_of_moves (exclusion.careful point member) deliberate bears moves
  have here : system.station thread = point.station := by
    rw [System.station, System.point_of_getElem? there]
  have moved : ((system.apply thread move).point thread).pursues? = move.point.pursues? := by
    rw [System.pursues?_apply move there, if_pos rfl]
  constructor
  · intro flagged
    rw [System.station_apply move there]
    have still := passage.clearing here flagged
    rcases waits flagged with before | pursues
    · rcases upheld.waiting before with clears | ⟨other, pursues⟩
      · exact Or.inl (still clears)
      obtain ⟨mode, pursued⟩ := Option.ne_none_iff_exists'.mp pursues
      rcases System.goes_on move there pursued with ⟨other, on⟩ | mine
      · exact Or.inr ⟨other, by rw [on]; simp⟩
      rcases goes_on mode mine with on | opened | ⟨free, _⟩
      · exact Or.inr ⟨thread, by rw [moved, on]; simp⟩
      · rw [Word.closed_eq, before] at opened
        simp at opened
      · -- A writer gets in while the flag is set: then someone is about to clear it.
        rw [Word.held_eq, Bool.or_eq_false_iff, decide_eq_false_iff_not] at free
        exact Or.inl (still ((parking.awaited before).resolve_left free.2))
    · exact Or.inr ⟨thread, by rwa [moved]⟩
  · intro flagged
    rcases queues flagged with before | pursues
    · obtain ⟨other, pursued⟩ := upheld.queued before
      rcases System.goes_on move there pursued with on | mine
      · exact on
      rcases goes_on .exclusive mine with on | opened | ⟨_, unqueued⟩
      · exact ⟨thread, moved.trans on⟩
      · rw [Word.closed_eq, before] at opened
        simp at opened
      · exact absurd (unqueued.symm.trans flagged) Bool.false_ne_true
    · exact ⟨thread, moved.trans pursues⟩

theorem Reachable.upheld (few : n < 2 ^ 29) (reachable : Reachable n system) :
    Upheld system := by
  induction reachable with
  | initial => exact upheld_initial n
  | step before next upheld =>
      obtain ⟨thread, point, move, there, moves, rfl⟩ := next.moves
      obtain ⟨exclusion, length⟩ := before.exclusion few
      exact upheld.apply (before.parking few) exclusion (length ▸ few) there moves

end SlabTree.Lock
