import Mathlib.Data.List.Count
import SlabTree.Proofs.Lock.Steps
import SlabTree.Proofs.Lock.Word

/-!
# Mutual exclusion

A thread has a stake in the number of holders while it has a guard, and while it is a
reader that was turned away but has not left again.  In every reachable system the
word counts the stakes, its owned flag tells whether a writer has a guard, and a
writer's guard is the only one.
-/

namespace SlabTree.Lock

/-- What a thread counts for among the holders. -/
inductive Stake
  | guard (mode : Mode)
  | turnedAway
  deriving DecidableEq, Repr

/-- What a thread counts for: a guard from the step that acquires it to the one that
gives it up, a reader that is turned away from joining to leaving. -/
def Point.stake? : Point → Option Stake
  | .holding mode => some (.guard mode)
  | .leaving .done => some (.guard .shared)
  | .leaving (.turnedAway _) => some .turnedAway
  | .unlocking | .unclaiming _ => some (.guard .exclusive)
  | .outside | .joining _ | .looking _ | .claiming _ _ | .waking _ _ | .waiting _ _ => none

/-- The number of threads with a stake of a kind. -/
def System.stakes (system : System) (stake : Stake) : Nat :=
  system.tally fun point => point.stake? = some stake

/-- The number of guards that are live. -/
def System.guards (system : System) : Nat :=
  system.stakes (.guard .shared) + system.stakes (.guard .exclusive)

/-- A writer about to claim a word has seen that nobody is inside. -/
def Point.Careful : Point → Prop
  | .claiming _ seen => seen.held = false
  | _ => True

/-- The thread has nothing at stake. -/
def Point.Idle (point : Point) : Prop :=
  point.stake? = none ∧ point.Careful

variable {system : System} {point next : Point} {core : Core} {move : Move} {word after : Word}
  {thread n : Nat}

/-! ## Where threads go -/

theorem stake?_woken (point : Point) : point.woken.stake? = point.stake? := by
  unfold Point.woken
  split <;> rfl

theorem careful_woken (careful : point.Careful) : point.woken.Careful := by
  unfold Point.woken
  split
  · trivial
  · exact careful

theorem idle_afterLeaving (why : Leave) : (Point.afterLeaving why).Idle := by
  unfold Point.afterLeaving
  split <;> exact ⟨rfl, trivial⟩

theorem idle_afterRelease (before : Word) (why : Leave) :
    (Point.afterRelease before why).Idle := by
  unfold Point.afterRelease
  split
  · exact ⟨rfl, trivial⟩
  · exact idle_afterLeaving why

theorem idle_retry (mode : Mode) : (Point.retry mode).Idle := by
  cases mode <;> exact ⟨rfl, trivial⟩

theorem idle_claimOrGiveUp (patience : Patience) (seen : Word) :
    (Point.claimOrGiveUp patience seen).Idle := by
  unfold Point.claimOrGiveUp
  split
  · cases patience <;> exact ⟨rfl, trivial⟩
  · rename_i free
    exact ⟨rfl, Bool.eq_false_of_not_eq_true free⟩

theorem idle_spinOn (mode : Mode) (left : Nat) : (Point.spinOn mode left).Idle := by
  cases left <;> exact ⟨rfl, trivial⟩

theorem idle_parkOrRetry (mode : Mode) (seen : Word) : (Point.parkOrRetry mode seen).Idle := by
  unfold Point.parkOrRetry
  repeat' split
  · exact idle_retry mode
  · exact ⟨rfl, trivial⟩
  · exact idle_retry mode
  · exact ⟨rfl, trivial⟩

theorem idle_spinOrRetry (mode : Mode) (left : Nat) (seen : Word) :
    (Point.spinOrRetry mode left seen).Idle := by
  unfold Point.spinOrRetry
  repeat' split
  · exact idle_retry mode
  · exact ⟨rfl, trivial⟩
  · exact idle_spinOn mode left

/-! ## What a move does -/

/-- How a move changes the word and what the thread has at stake. -/
inductive Effect (word : Word) : Option Stake → Word → Option Stake → Prop
  | none {stake : Option Stake} {after : Word} (holders_eq : after.holders = word.holders)
      (owned_eq : after.owned = word.owned) : Effect word stake after stake
  | join (opened : word.closed = false) : Effect word none word.join (some (.guard .shared))
  | turnAway : Effect word none word.join (some .turnedAway)
  | leave : Effect word (some (.guard .shared)) word.leave none
  | turnBack : Effect word (some .turnedAway) word.leave none
  | claim (free : word.held = false) : Effect word none word.claim (some (.guard .exclusive))
  | unclaim : Effect word (some (.guard .exclusive)) word.unclaim none

/-- The move has an effect, and leads to a careful point. -/
def Point.Tracks (point : Point) (word after : Word) (next : Point) : Prop :=
  Effect word point.stake? after next.stake? ∧ next.Careful

theorem tracks_same (same : next.stake? = point.stake?) (careful : next.Careful) :
    point.Tracks word word next := by
  refine ⟨?_, careful⟩
  rw [same]
  exact .none rfl rfl

theorem tracks_idle (nothing : point.stake? = none) (idle : next.Idle) :
    point.Tracks word word next :=
  tracks_same (idle.1.trans nothing.symm) idle.2

/-- Flags other than the owned one do not count. -/
theorem tracks_flags {waiting queued : Bool} (nothing : point.stake? = none) (idle : next.Idle)
    (shows : after.snapshot = ⟨word.holders, word.owned, waiting, queued⟩) :
    point.Tracks word after next := by
  refine ⟨?_, idle.2⟩
  rw [nothing, idle.1]
  exact .none (congrArg Snapshot.holders shows) (congrArg Snapshot.writer shows)

theorem tracks_start {call : Call} (started : point.start? call = some next) :
    point.Tracks core.word core.word next := by
  unfold Point.start? at started
  split at started <;> cases started <;> exact tracks_same rfl trivial

theorem tracks_misfire (misfired : point.misfire? core = some next) :
    point.Tracks core.word core.word next := by
  unfold Point.misfire? at misfired
  split at misfired <;> cases misfired
  · exact tracks_idle rfl (idle_claimOrGiveUp _ _)
  · exact tracks_same rfl trivial
  · exact tracks_idle rfl (idle_parkOrRetry _ _)

theorem tracks_step_waking {stage : Waking} {why : Leave}
    (stepped : (Point.waking stage why).step? core = some move) :
    (Point.waking stage why).Tracks core.word move.core.word move.point := by
  cases stage with
  | clear =>
      cases stepped
      exact tracks_flags rfl ⟨rfl, trivial⟩ (Word.snapshot_clearWaiting core.word)
  | lock =>
      simp only [Point.step?] at stepped
      split at stepped <;> cases stepped
      exact tracks_idle rfl ⟨rfl, trivial⟩
  | notify =>
      cases stepped
      exact tracks_idle rfl ⟨rfl, trivial⟩
  | unlock =>
      cases stepped
      exact tracks_idle rfl (idle_afterLeaving why)

theorem tracks_step_waiting {mode : Mode} {stage : Waiting}
    (stepped : (Point.waiting mode stage).step? core = some move) :
    (Point.waiting mode stage).Tracks core.word move.core.word move.point := by
  cases stage with
  | announce =>
      cases stepped
      exact tracks_flags rfl ⟨rfl, trivial⟩ (Word.snapshot_setQueued core.word)
  | spin left =>
      cases stepped
      exact tracks_idle rfl (idle_spinOrRetry mode left core.word)
  | reannounce left =>
      cases stepped
      exact tracks_flags rfl (idle_spinOn mode left) (Word.snapshot_setQueued core.word)
  | weigh =>
      cases stepped
      exact tracks_idle rfl (idle_parkOrRetry mode core.word)
  | flag seen =>
      simp only [Point.step?] at stepped
      split at stepped <;> cases stepped
      · rename_i same
        rw [same]
        exact tracks_flags rfl ⟨rfl, trivial⟩ (Word.snapshot_setWaiting seen)
      · exact tracks_idle rfl (idle_parkOrRetry mode core.word)
  | lock =>
      simp only [Point.step?] at stepped
      split at stepped <;> cases stepped
      exact tracks_idle rfl ⟨rfl, trivial⟩
  | check =>
      cases stepped
      exact tracks_idle rfl ⟨rfl, trivial⟩
  | park =>
      cases stepped
      exact tracks_idle rfl ⟨rfl, trivial⟩
  | parked => cases stepped
  | relock =>
      simp only [Point.step?] at stepped
      split at stepped <;> cases stepped
      exact tracks_idle rfl ⟨rfl, trivial⟩
  | unlock =>
      cases stepped
      exact tracks_idle rfl (idle_retry mode)

theorem tracks_step (careful : point.Careful) (stepped : point.step? core = some move) :
    point.Tracks core.word move.core.word move.point := by
  cases point with
  | outside => cases stepped
  | holding mode => cases stepped
  | joining patience =>
      cases stepped
      cases closed : core.word.closed with
      | false => exact ⟨.join closed, trivial⟩
      | true => exact ⟨.turnAway, trivial⟩
  | leaving why =>
      cases stepped
      obtain ⟨nothing, idle⟩ := idle_afterRelease core.word why
      refine ⟨?_, idle⟩
      simp only [nothing]
      cases why with
      | done => exact .leave
      | turnedAway patience => exact .turnBack
  | looking patience =>
      cases stepped
      exact tracks_idle rfl (idle_claimOrGiveUp patience core.word)
  | claiming patience seen =>
      simp only [Point.step?] at stepped
      split at stepped <;> cases stepped
      · rename_i same
        rw [same]
        exact ⟨.claim careful, trivial⟩
      · exact tracks_idle rfl (idle_claimOrGiveUp patience core.word)
  | unlocking =>
      cases stepped
      exact tracks_same rfl trivial
  | unclaiming seen =>
      simp only [Point.step?] at stepped
      split at stepped <;> cases stepped
      · rename_i same
        obtain ⟨nothing, idle⟩ := idle_afterRelease seen .done
        refine ⟨?_, idle⟩
        simp only [nothing, same]
        exact .unclaim
      · exact tracks_same rfl trivial
  | waking stage why => exact tracks_step_waking stepped
  | waiting mode stage => exact tracks_step_waiting stepped

theorem tracks_of_moves (careful : point.Careful) (moves : point.Moves core move) :
    point.Tracks core.word move.core.word move.point := by
  cases moves with
  | start started => exact tracks_start started
  | step stepped => exact tracks_step careful stepped
  | misfire misfired => exact tracks_misfire misfired

/-! ## What the word says about all threads -/

/-- The word counts so many readers, writers and readers turned away, and a writer is
alone. -/
structure Word.Counts (word : Word) (readers writers turned : Nat) : Prop where
  holders_eq : word.holders = readers + writers + turned
  owned_eq : word.owned = decide (0 < writers)
  alone : writers = 0 ∨ readers + writers = 1

/-- The word counts the stakes of all threads. -/
structure Exclusion (system : System) : Prop where
  careful : ∀ point ∈ system.threads, point.Careful
  counts : system.core.word.Counts (system.stakes (.guard .shared))
    (system.stakes (.guard .exclusive)) (system.stakes .turnedAway)

/-- How often a thread with this at stake counts for a stake. -/
def Stake.weight (stake : Stake) (has : Option Stake) : Nat :=
  if has = some stake then 1 else 0

/-- What a word counts, it shows. -/
theorem Word.Counts.of_snapshot {holders r w t : Nat} {owned waiting queued : Bool}
    (shows : word.snapshot = ⟨holders, owned, waiting, queued⟩) (total : holders = r + w + t)
    (writer : owned = decide (0 < w)) (alone : w = 0 ∨ r + w = 1) : word.Counts r w t :=
  ⟨(congrArg Snapshot.holders shows).trans total, (congrArg Snapshot.writer shows).trans writer,
    alone⟩

/-- Whatever a move does, the word counts what is at stake afterwards. -/
theorem Word.Counts.moved {stake other : Option Stake} {r w t r' w' t' : Nat}
    (counts : word.Counts r w t) (effect : Effect word stake after other)
    (room : stake = none → r + w + t + 1 < 2 ^ 29)
    (readers : r' + Stake.weight (.guard .shared) stake = r + Stake.weight (.guard .shared) other)
    (writers : w' + Stake.weight (.guard .exclusive) stake =
      w + Stake.weight (.guard .exclusive) other)
    (turned : t' + Stake.weight .turnedAway stake = t + Stake.weight .turnedAway other) :
    after.Counts r' w' t' := by
  obtain ⟨holders_eq, owned_eq, alone⟩ := counts
  cases effect with
  | none holdersSame ownedSame =>
      rw [Nat.add_right_cancel readers, Nat.add_right_cancel writers, Nat.add_right_cancel turned]
      exact ⟨holdersSame.trans holders_eq, ownedSame.trans owned_eq, alone⟩
  | join opened =>
      change r' = r + 1 at readers
      change w' = w at writers
      change t' = t at turned
      rw [closed_eq, Bool.or_eq_false_iff, Bool.or_eq_false_iff, owned_eq] at opened
      have noWriter : ¬0 < w := of_decide_eq_false opened.1.1
      have shows := snapshot_join (holders_eq ▸ room rfl)
      subst writers
      exact .of_snapshot shows (by omega) owned_eq (by omega)
  | turnAway =>
      change r' = r at readers
      change w' = w at writers
      change t' = t + 1 at turned
      have shows := snapshot_join (holders_eq ▸ room rfl)
      subst readers writers
      exact .of_snapshot shows (by omega) owned_eq alone
  | leave =>
      change r' + 1 = r at readers
      change w' = w at writers
      change t' = t at turned
      have shows := @snapshot_leave word (by omega)
      subst writers
      exact .of_snapshot shows (by omega) owned_eq (by omega)
  | turnBack =>
      change r' = r at readers
      change w' = w at writers
      change t' + 1 = t at turned
      have shows := @snapshot_leave word (by omega)
      subst readers writers
      exact .of_snapshot shows (by omega) owned_eq alone
  | claim free =>
      change r' = r at readers
      change w' = w + 1 at writers
      change t' = t at turned
      rw [held_eq, Bool.or_eq_false_iff] at free
      have nobody : ¬0 < word.holders := of_decide_eq_false free.2
      have entered : 0 < w' := by omega
      exact .of_snapshot (snapshot_claim word) (by omega) (decide_eq_true entered).symm (by omega)
  | unclaim =>
      change r' = r at readers
      change w' + 1 = w at writers
      change t' = t at turned
      have shows := @snapshot_unclaim word (by omega)
      have left : ¬0 < w' := by omega
      exact .of_snapshot shows (by omega) (decide_eq_false left).symm (by omega)

namespace System

/-- What the moving thread counts for goes, and what it counts for afterwards comes. -/
theorem stakes_apply (move : Move) (there : system.threads[thread]? = some point)
    (stake : Stake) :
    (system.apply thread move).stakes stake + stake.weight point.stake? =
      system.stakes stake + stake.weight move.point.stake? := by
  have woken : ∀ point : Point, decide (point.woken.stake? = some stake) =
      decide (point.stake? = some stake) := by
    intro point
    rw [stake?_woken]
  have changed := system.tally_apply (fun point => point.stake? = some stake) move woken there
  simp only [decide_eq_true_eq] at changed
  exact changed

theorem stakes_pos {stake : Stake} (there : system.threads[thread]? = some point)
    (has : point.stake? = some stake) : 0 < system.stakes stake :=
  tally_pos there (decide_eq_true has)

/-- All stakes are those of different threads. -/
theorem stakes_total (system : System) :
    system.guards + system.stakes .turnedAway = system.tally (·.stake?.isSome) := by
  have weighed : ∀ (point : Point) (stake : Stake),
      (if decide (point.stake? = some stake) = true then 1 else 0) = stake.weight point.stake? := by
    intro point stake
    simp only [decide_eq_true_eq]
    rfl
  simp only [guards, stakes, tally]
  induction system.threads with
  | nil => rfl
  | cons point rest inductionHypothesis =>
      simp only [List.countP_cons, ← inductionHypothesis, weighed]
      rcases point.stake? with _ | ⟨_ | _⟩ | _
      · rfl
      · change _ + 1 + (_ + 0) + (_ + 0) = _ + 1
        omega
      · change _ + 0 + (_ + 1) + (_ + 0) = _ + 1
        omega
      · change _ + 0 + (_ + 0) + (_ + 1) = _ + 1
        omega

/-- While a thread has nothing at stake, there are fewer stakes than threads. -/
theorem stakes_lt (there : system.threads[thread]? = some point)
    (nothing : point.stake? = none) :
    system.guards + system.stakes .turnedAway < system.threads.length := by
  rw [stakes_total]
  apply List.countP_lt_length_iff.mpr
  exact ⟨point, List.mem_of_getElem? there, by rw [nothing]; rfl⟩

end System

theorem exclusion_initial (n : Nat) : Exclusion (System.initial n) := by
  have nothing : ∀ stake, (System.initial n).stakes stake = 0 := by
    intro stake
    apply List.countP_eq_zero.mpr
    intro point member
    rw [List.eq_of_mem_replicate member]
    simp [Point.stake?]
  have free : (0 : Word).snapshot = ⟨0, false, false, false⟩ := by decide
  constructor
  · intro point member
    rw [List.eq_of_mem_replicate member]
    trivial
  · rw [nothing, nothing, nothing]
    exact .of_snapshot free rfl rfl (Or.inl rfl)

/-- Each move of a thread keeps the count right and a writer alone. -/
theorem Exclusion.apply (exclusion : Exclusion system) (few : system.threads.length < 2 ^ 29)
    (there : system.threads[thread]? = some point) (moves : point.Moves system.core move) :
    Exclusion (system.apply thread move) := by
  obtain ⟨effect, nextCareful⟩ :=
    tracks_of_moves (exclusion.careful point (List.mem_of_getElem? there)) moves
  constructor
  · exact System.forall_apply Point.Careful (fun _ => careful_woken) exclusion.careful nextCareful
  · apply exclusion.counts.moved effect
    · intro nothing
      exact Nat.lt_of_le_of_lt (System.stakes_lt there nothing) few
    · exact System.stakes_apply move there _
    · exact System.stakes_apply move there _
    · exact System.stakes_apply move there _

theorem Reachable.exclusion (few : n < 2 ^ 29) (reachable : Reachable n system) :
    Exclusion system ∧ system.threads.length = n := by
  apply reachable.induct
  · exact ⟨exclusion_initial n, List.length_replicate⟩
  · rintro system thread point move ⟨exclusion, length⟩ there moves
    exact ⟨exclusion.apply (length ▸ few) there moves, (System.length_apply move).trans length⟩

/-! ## What holds of each thread -/

namespace System

/-- Only threads that exist stand anywhere but outside. -/
theorem getElem?_of_point (stands : system.point thread = point) (inside : point ≠ .outside) :
    system.threads[thread]? = some point := by
  unfold System.point at stands
  cases there : system.threads[thread]? with
  | none =>
      rw [there] at stands
      exact absurd stands.symm inside
  | some found =>
      rw [there] at stands
      exact congrArg some stands

theorem getElem?_of_stake {stake : Stake} (has : (system.point thread).stake? = some stake) :
    system.threads[thread]? = some (system.point thread) := by
  apply getElem?_of_point rfl
  intro outside
  rw [outside] at has
  cases has

theorem exists_stake_iff {stake : Stake} :
    0 < system.stakes stake ↔ ∃ thread, (system.point thread).stake? = some stake := by
  constructor
  · intro positive
    obtain ⟨point, member, has⟩ := List.countP_pos_iff.mp positive
    obtain ⟨thread, there⟩ := List.mem_iff_getElem?.mp member
    refine ⟨thread, ?_⟩
    rw [System.point, there]
    exact of_decide_eq_true has
  · rintro ⟨thread, has⟩
    exact stakes_pos (getElem?_of_stake has) has

theorem stakes_eq_zero_iff {stake : Stake} :
    system.stakes stake = 0 ↔ ∀ thread, (system.point thread).stake? ≠ some stake := by
  rw [← not_exists, ← exists_stake_iff, Nat.pos_iff_ne_zero, not_not]

theorem guards_eq_zero_iff :
    system.guards = 0 ↔ ∀ thread mode, (system.point thread).stake? ≠ some (.guard mode) := by
  rw [guards, Nat.add_eq_zero_iff, stakes_eq_zero_iff, stakes_eq_zero_iff]
  constructor
  · rintro ⟨noReader, noWriter⟩ thread mode
    cases mode with
    | shared => exact noReader thread
    | exclusive => exact noWriter thread
  · exact fun none => ⟨fun thread => none thread .shared, fun thread => none thread .exclusive⟩

end System

theorem Exclusion.alone {writer other : Nat} {mode : Mode} (exclusion : Exclusion system)
    (writes : (system.point writer).stake? = some (.guard .exclusive))
    (holds : (system.point other).stake? = some (.guard mode)) : other = writer := by
  by_contra apart
  have thereWriter := System.getElem?_of_stake writes
  have thereOther := System.getElem?_of_stake holds
  -- Without the writer, the other guard is still there.
  have writers := system.stakes_apply ⟨.outside, system.core, false⟩ thereWriter (.guard .exclusive)
  have readers := system.stakes_apply ⟨.outside, system.core, false⟩ thereWriter (.guard .shared)
  have still : (system.apply writer ⟨.outside, system.core, false⟩).threads[other]? =
      some (system.point other) := by
    refine (List.getElem?_set_ne (Ne.symm apart)).trans thereOther
  have positive := System.stakes_pos still holds
  rw [writes] at writers readers
  have alone := exclusion.counts.alone
  cases mode with
  | shared =>
      change _ + 1 = _ + 0 at writers
      change _ + 0 = _ + 0 at readers
      omega
  | exclusive =>
      change _ + 1 = _ + 0 at writers
      omega

/-- In every reachable system of fewer than 2 ^ 29 threads, the guard of a writer is the
only one, the owned flag is set while there is one, and the word counts the guards and
the readers that were turned away and have not left yet.  So whoever joins finds room,
whoever leaves finds a hold to take away, and neither changes a flag; and whenever the
guard of a writer is given up, the hold and the owned flag are what goes. -/
theorem exclusion_of_reachable (few : n < 2 ^ 29) (reachable : Reachable n system) :
    (∀ writer other mode, (system.point writer).stake? = some (.guard .exclusive) →
        (system.point other).stake? = some (.guard mode) → other = writer) ∧
      (system.core.word.owned = true ↔
        ∃ writer, (system.point writer).stake? = some (.guard .exclusive)) ∧
      system.core.word.holders = system.guards + system.stakes .turnedAway ∧
      (∀ thread patience, system.point thread = .joining patience →
        system.core.word.holders + 1 < 2 ^ 29 ∧ system.core.word.join.snapshot =
          { system.core.word.snapshot with holders := system.core.word.holders + 1 }) ∧
      (∀ thread why, system.point thread = .leaving why →
        0 < system.core.word.holders ∧ system.core.word.leave.snapshot =
          { system.core.word.snapshot with holders := system.core.word.holders - 1 }) ∧
      ∀ writer, (system.point writer).stake? = some (.guard .exclusive) →
        0 < system.core.word.holders ∧ system.core.word.unclaim.snapshot =
          { system.core.word.snapshot with
            holders := system.core.word.holders - 1, writer := false } := by
  obtain ⟨exclusion, length⟩ := reachable.exclusion few
  obtain ⟨holders_eq, owned_eq, _⟩ := exclusion.counts
  have owned_iff : system.core.word.owned = true ↔
      ∃ writer, (system.point writer).stake? = some (.guard .exclusive) := by
    rw [owned_eq, decide_eq_true_iff, System.exists_stake_iff]
  have used : ∀ thread stake, (system.point thread).stake? = some stake →
      0 < system.core.word.holders := by
    intro thread stake has
    have positive := System.exists_stake_iff.mpr ⟨thread, has⟩
    rcases stake with ⟨_ | _⟩ | _ <;> omega
  refine ⟨fun _ _ _ => exclusion.alone, owned_iff, holders_eq, ?_, ?_, ?_⟩
  · intro thread patience joins
    have there := System.getElem?_of_point joins (by simp)
    have room : system.core.word.holders + 1 < 2 ^ 29 := by
      have fewer := System.stakes_lt there rfl
      rw [System.guards] at fewer
      omega
    exact ⟨room, Word.snapshot_join room⟩
  · intro thread why leaves
    have has : ∃ stake, (system.point thread).stake? = some stake := by
      rw [leaves]
      cases why <;> exact ⟨_, rfl⟩
    obtain ⟨stake, has⟩ := has
    exact ⟨used thread stake has, Word.snapshot_leave (used thread stake has)⟩
  · intro writer writes
    exact ⟨used writer _ writes, Word.snapshot_unclaim (used writer _ writes)⟩

/-- A writer inside, and a reader about to leave again. -/
theorem exclusion_of_reachable_pair :
    ∃ system, Reachable 2 system ∧
      system.threads = [.holding .exclusive, .leaving (.turnedAway .once)] ∧
        (∀ other mode, (system.point other).stake? = some (.guard mode) → other = 0) ∧
          system.core.word.owned = true ∧
            system.core.word.holders = system.guards + system.stakes .turnedAway := by
  have arrived : Reachable 2
      ⟨⟨0x80000001, false⟩, [.holding .exclusive, .outside]⟩ := by
    have free : Reachable 2 (System.initial 2) := .initial
    have looks : Reachable 2 ⟨⟨0, false⟩, [.looking .once, .outside]⟩ :=
      .step free (@Step.start _ 0 (.acquire .exclusive .once) _ rfl)
    have claims : Reachable 2 ⟨⟨0, false⟩, [.claiming .once 0, .outside]⟩ :=
      .step looks (@Step.step _ 0 _ rfl)
    exact .step claims (@Step.step _ 0 _ rfl)
  have joins : Reachable 2 ⟨⟨0x80000001, false⟩, [.holding .exclusive, .joining .once]⟩ :=
    .step arrived (@Step.start _ 1 (.acquire .shared .once) _ rfl)
  have turned : Reachable 2
      ⟨⟨0x80000002, false⟩, [.holding .exclusive, .leaving (.turnedAway .once)]⟩ :=
    .step joins (@Step.step _ 1 _ rfl)
  obtain ⟨alone, owned, holders, _⟩ := exclusion_of_reachable (by decide) turned
  exact ⟨_, turned, rfl, fun other mode => alone 0 other mode rfl, owned.mpr ⟨0, rfl⟩, holders⟩

end SlabTree.Lock
