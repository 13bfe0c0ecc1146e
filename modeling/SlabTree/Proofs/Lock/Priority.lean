import Mathlib.Logic.Relation
import SlabTree.Proofs.Lock.Pursuit

/-!
# How long a waiting writer keeps readers out

A writer that has to wait sets the queued flag, and while the flag is set no reader comes in.
The flag stays until a writer comes in, but not until the one that set it does: all waiting
writers share the flag, and the first of them to come in clears it.  A writer that was
overtaken sets it again when it next looks at the word, and until then readers can come in.
-/

namespace SlabTree.Lock

variable {system after announced last : System} {point : Point} {core : Core} {move : Move}
  {word wordAfter : Word} {stake : Option Stake} {thread n : Nat}

/-! ## What takes the flag away -/

theorem queued_of_step_waking {stage : Waking} {why : Leave}
    (stepped : (Point.waking stage why).step? core = some move)
    (queued : core.word.queued = true) : move.core.word.queued = true := by
  cases stage with
  | clear =>
      cases stepped
      have shows := Word.snapshot_clearWaiting core.word
      exact (congrArg Snapshot.writerQueued shows).trans queued
  | lock =>
      simp only [Point.step?] at stepped
      split at stepped <;> cases stepped
      exact queued
  | notify | unlock =>
      cases stepped
      exact queued

theorem queued_of_step_waiting {mode : Mode} {stage : Waiting}
    (stepped : (Point.waiting mode stage).step? core = some move)
    (queued : core.word.queued = true) : move.core.word.queued = true := by
  cases stage with
  | announce | reannounce left =>
      cases stepped
      exact congrArg Snapshot.writerQueued (Word.snapshot_setQueued core.word)
  | flag seen =>
      simp only [Point.step?] at stepped
      split at stepped <;> cases stepped
      · rename_i same
        have shows := Word.snapshot_setWaiting seen
        exact (congrArg Snapshot.writerQueued shows).trans (same ▸ queued)
      · exact queued
  | lock | relock =>
      simp only [Point.step?] at stepped
      split at stepped <;> cases stepped
      exact queued
  | spin left | weigh | check | park | unlock =>
      cases stepped
      exact queued
  | parked => cases stepped

/-- Nothing but a writer coming in takes the queued flag away. -/
theorem queued_of_moves (bears : core.word.Bears point) (moves : point.Moves core move)
    (queued : core.word.queued = true) :
    move.core.word.queued = true ∨
      point.stake? = none ∧ move.point.stake? = some (.guard .exclusive) := by
  cases moves with
  | start _ => exact Or.inl queued
  | misfire _ => exact Or.inl queued
  | step stepped =>
      cases point with
      | outside | holding mode => cases stepped
      | joining patience =>
          cases stepped
          have shows := Word.snapshot_join (bears.room rfl)
          exact Or.inl ((congrArg Snapshot.writerQueued shows).trans queued)
      | leaving why =>
          cases stepped
          have used : 0 < core.word.holders := bears.used (by cases why <;> simp [Point.stake?])
          have shows := Word.snapshot_leave used
          exact Or.inl ((congrArg Snapshot.writerQueued shows).trans queued)
      | looking patience | unlocking =>
          cases stepped
          exact Or.inl queued
      | claiming patience seen =>
          simp only [Point.step?] at stepped
          split at stepped <;> cases stepped
          · exact Or.inr ⟨rfl, rfl⟩
          · exact Or.inl queued
      | unclaiming seen =>
          simp only [Point.step?] at stepped
          split at stepped <;> cases stepped
          · rename_i same
            have used : 0 < core.word.holders := bears.used (by simp [Point.stake?])
            rw [same] at used queued
            have shows := Word.snapshot_unclaim used
            exact Or.inl ((congrArg Snapshot.writerQueued shows).trans queued)
          · exact Or.inl queued
      | waking stage why => exact Or.inl (queued_of_step_waking stepped queued)
      | waiting mode stage => exact Or.inl (queued_of_step_waiting stepped queued)

/-- While the flag is set, whoever has a reader's guard had it before. -/
theorem Effect.had_guard (effect : Effect word stake wordAfter (some (.guard .shared)))
    (queued : word.queued = true) : stake = some (.guard .shared) := by
  cases effect with
  | none => rfl
  | join opened =>
      rw [Word.closed_eq, queued] at opened
      simp at opened

/-! ## Runs on which no writer comes in -/

/-- Whoever has a writer's guard afterwards had it before. -/
def NoWriterEnters (before after : System) : Prop :=
  ∀ writer, (after.point writer).stake? = some (.guard .exclusive) →
    (before.point writer).stake? = some (.guard .exclusive)

/-- The queued flag is set, and whoever has a reader's guard had it at the start. -/
structure KeptOut (start system : System) : Prop where
  queued : system.core.word.queued = true
  readers : ∀ reader, (system.point reader).stake? = some (.guard .shared) →
    (start.point reader).stake? = some (.guard .shared)

theorem System.stake?_apply (move : Move) (there : system.threads[thread]? = some point)
    (other : Nat) : ((system.apply thread move).point other).stake? =
      if other = thread then move.point.stake? else (system.point other).stake? := by
  rw [point_apply move there]
  split <;> split <;> simp only [stake?_woken]

/-- While readers are kept out, a step that lets no writer in lets no reader in. -/
theorem KeptOut.step {start : System} (kept : KeptOut start system) (few : n < 2 ^ 29)
    (reachable : Reachable n system) (next : Step system after)
    (nobody : NoWriterEnters system after) : KeptOut start after := by
  obtain ⟨thread, point, move, there, moves, rfl⟩ := next.moves
  obtain ⟨exclusion, length⟩ := reachable.exclusion few
  have bears := exclusion.bears (length ▸ few) there
  have here : system.point thread = point := System.point_of_getElem? there
  obtain ⟨effect, _⟩ :=
    tracks_of_moves (exclusion.careful point (List.mem_of_getElem? there)) moves
  constructor
  · rcases queued_of_moves bears moves kept.queued with still | ⟨nothing, enters⟩
    · exact still
    · have had := nobody thread (by rw [System.stake?_apply move there, if_pos rfl, enters])
      rw [here, nothing] at had
      cases had
  · intro reader has
    apply kept.readers
    rw [System.stake?_apply move there] at has
    by_cases mover : reader = thread
    · rw [if_pos mover] at has
      rw [has] at effect
      rw [mover, here]
      exact effect.had_guard kept.queued
    · rwa [if_neg mover] at has

/-! ## Priority of writers -/

/-- In every reachable system of fewer than 2 ^ 29 threads, once a waiting writer has set the
queued flag, it stays set and no reader comes in until some writer comes in. -/
theorem readers_kept_out (few : n < 2 ^ 29) (reachable : Reachable n system) {writer : Nat}
    {stage : Waiting} (waits : system.point writer = .waiting .exclusive stage)
    (announces : stage = .announce ∨ ∃ left, stage = .reannounce left)
    (stepped : system.step? writer = some announced)
    (steps : Relation.ReflTransGen
      (fun before after => Step before after ∧ NoWriterEnters before after) announced last) :
    last.core.word.queued = true ∧
      ∀ reader, (last.point reader).stake? = some (.guard .shared) →
        (announced.point reader).stake? = some (.guard .shared) := by
  have there := System.getElem?_of_point waits (by simp)
  have flagged : announced.core.word.queued = true := by
    have shows := Word.snapshot_setQueued system.core.word
    rw [System.step?, there] at stepped
    rcases announces with rfl | ⟨left, rfl⟩
    all_goals
      cases stepped
      exact congrArg Snapshot.writerQueued shows
  suffices goal : Reachable n last ∧ KeptOut announced last from ⟨goal.2.queued, goal.2.readers⟩
  induction steps with
  | refl => exact ⟨.step reachable (.step stepped), flagged, fun _ => id⟩
  | tail _ next inductionHypothesis =>
      obtain ⟨reached, kept⟩ := inductionHypothesis
      exact ⟨.step reached next.1, kept.step few reached next.1 next.2⟩

/-- A writer announces itself behind a reader, and a second reader comes too late. -/
theorem readers_kept_out_late :
    ∃ system announced last, Reachable 3 system ∧
      system.point 1 = .waiting .exclusive .announce ∧ system.step? 1 = some announced ∧
      Relation.ReflTransGen
        (fun before after => Step before after ∧ NoWriterEnters before after) announced last ∧
      last.point 2 = .leaving (.turnedAway .once) ∧ last.core.word.queued = true := by
  have joins : Reachable 3 ⟨⟨0, false⟩, [.joining .untilHeld, .outside, .outside]⟩ :=
    .step .initial (@Step.start _ 0 (.acquire .shared .untilHeld) _ rfl)
  have reads : Reachable 3 ⟨⟨1, false⟩, [.holding .shared, .outside, .outside]⟩ :=
    .step joins (@Step.step _ 0 _ rfl)
  have looks : Reachable 3 ⟨⟨1, false⟩, [.holding .shared, .looking .untilHeld, .outside]⟩ :=
    .step reads (@Step.start _ 1 (.acquire .exclusive .untilHeld) _ rfl)
  have waits : Reachable 3
      ⟨⟨1, false⟩, [.holding .shared, .waiting .exclusive .announce, .outside]⟩ :=
    .step looks (@Step.step _ 1 _ rfl)
  have nobody : ∀ before last : System,
      last.threads.all (·.stake? ≠ some (.guard .exclusive)) = true →
      NoWriterEnters before last := by
    intro before last none writer writes
    have member := List.mem_of_getElem? (System.getElem?_of_stake writes)
    exact absurd writes (of_decide_eq_true (List.all_eq_true.mp none _ member))
  have steps : Relation.ReflTransGen
      (fun before after => Step before after ∧ NoWriterEnters before after)
      ⟨⟨0x20000001, false⟩, [.holding .shared, .spinning .exclusive, .outside]⟩
      ⟨⟨0x20000002, false⟩,
        [.holding .shared, .spinning .exclusive, .leaving (.turnedAway .once)]⟩ := by
    apply Relation.ReflTransGen.tail (.single _) _
    · exact ⟨⟨0x20000001, false⟩, [.holding .shared, .spinning .exclusive, .joining .once]⟩
    · exact ⟨@Step.start _ 2 (.acquire .shared .once) _ rfl, nobody _ _ (by decide)⟩
    · exact ⟨@Step.step _ 2 _ rfl, nobody _ _ (by decide)⟩
  obtain ⟨queued, _⟩ := @readers_kept_out _ _ _ 3 (by decide) waits 1 .announce rfl (Or.inl rfl)
    rfl steps
  exact ⟨_, _, _, waits, rfl, rfl, steps, rfl, queued⟩

/-- Steps all through which a thread waits to get in exclusively. -/
def StillWaits (writer : Nat) : System → System → Prop :=
  Relation.ReflTransGen fun before after =>
    Step before after ∧ (after.point writer).pursues? = some .exclusive

/-- A writer that has announced itself keeps out all readers that start later, until it gets in
itself. -/
def WriterPriority : Prop :=
  ∀ (n : Nat) (system announced before started last : System) (writer reader : Nat)
    (patience : Patience),
    n < 2 ^ 29 → Reachable n system → system.point writer = .waiting .exclusive .announce →
    system.step? writer = some announced → StillWaits writer announced before →
    before.start? reader (.acquire .shared patience) = some started →
    StillWaits writer started last → last.point reader ≠ .holding .shared

/-- A second writer that comes and goes takes the flag of the first with it: of two writers
that wait behind a reader, one gets in, clears the flag for both, and leaves; before the other
one looks again, a new reader comes in. -/
theorem not_writerPriority : ¬ WriterPriority := by
  intro priority
  -- A reader is inside, and two writers wait behind it.
  have joins : Reachable 4 ⟨⟨0, false⟩, [.joining .untilHeld, .outside, .outside, .outside]⟩ :=
    .step .initial (@Step.start _ 0 (.acquire .shared .untilHeld) _ rfl)
  have reads : Reachable 4 ⟨⟨1, false⟩, [.holding .shared, .outside, .outside, .outside]⟩ :=
    .step joins (@Step.step _ 0 _ rfl)
  have firstLooks : Reachable 4
      ⟨⟨1, false⟩, [.holding .shared, .looking .untilHeld, .outside, .outside]⟩ :=
    .step reads (@Step.start _ 1 (.acquire .exclusive .untilHeld) _ rfl)
  have firstWaits : Reachable 4
      ⟨⟨1, false⟩, [.holding .shared, .waiting .exclusive .announce, .outside, .outside]⟩ :=
    .step firstLooks (@Step.step _ 1 _ rfl)
  have firstSpins : Reachable 4
      ⟨⟨0x20000001, false⟩, [.holding .shared, .spinning .exclusive, .outside, .outside]⟩ :=
    .step firstWaits (@Step.step _ 1 _ rfl)
  have secondLooks : Reachable 4
      ⟨⟨0x20000001, false⟩,
        [.holding .shared, .spinning .exclusive, .looking .untilHeld, .outside]⟩ :=
    .step firstSpins (@Step.start _ 2 (.acquire .exclusive .untilHeld) _ rfl)
  have secondWaits : Reachable 4
      ⟨⟨0x20000001, false⟩,
        [.holding .shared, .spinning .exclusive, .waiting .exclusive .announce, .outside]⟩ :=
    .step secondLooks (@Step.step _ 2 _ rfl)
  -- The second one has announced itself.  The reader leaves, and the first writer comes in.
  have claimed : StillWaits 2
      ⟨⟨0x20000001, false⟩,
        [.holding .shared, .spinning .exclusive, .spinning .exclusive, .outside]⟩
      ⟨⟨0x80000001, false⟩, [.outside, .holding .exclusive, .spinning .exclusive, .outside]⟩ :=
    .head ⟨@Step.start _ 0 .release _ rfl, rfl⟩ <|
    .head ⟨@Step.step _ 0 _ rfl, rfl⟩ <|
    .head ⟨@Step.step _ 1 _ rfl, rfl⟩ <|
    .head ⟨@Step.step _ 1 _ rfl, rfl⟩ <|
    .single ⟨@Step.step _ 1 _ rfl, rfl⟩
  -- It leaves, and the word is as if nobody waited.
  have left : StillWaits 2
      ⟨⟨0x80000001, false⟩, [.outside, .holding .exclusive, .spinning .exclusive, .outside]⟩
      ⟨⟨0, false⟩, [.outside, .outside, .spinning .exclusive, .outside]⟩ :=
    .head ⟨@Step.start _ 1 .release _ rfl, rfl⟩ <|
    .head ⟨@Step.step _ 1 _ rfl, rfl⟩ <|
    .single ⟨@Step.step _ 1 _ rfl, rfl⟩
  have enters : StillWaits 2
      ⟨⟨0, false⟩, [.outside, .outside, .spinning .exclusive, .joining .once]⟩
      ⟨⟨1, false⟩, [.outside, .outside, .spinning .exclusive, .holding .shared]⟩ :=
    .single ⟨@Step.step _ 3 _ rfl, rfl⟩
  exact priority 4 _ _ _ _ _ 2 3 .once (by decide) secondWaits rfl rfl (claimed.trans left) rfl
    enters rfl

end SlabTree.Lock
