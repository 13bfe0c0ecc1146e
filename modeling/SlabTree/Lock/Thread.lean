import SlabTree.Lock.Word

/-!
# Threads at a lock

What a thread does at a lock, one step at a time.  A step is one access to the
word, one operation on the mutex that guards parking, or one wait or wake-up;
between two steps of a thread any other thread may run.

A reader joins first and looks afterwards: if it was not welcome it leaves again.
A writer claims the word when nobody is inside.  Whoever does not get in spins
for a while, sets the waiting flag, and parks.  Whoever takes the last hold away
while the waiting flag is set clears it and wakes all who are parked.
-/

namespace SlabTree.Lock

/-- Whether a thread goes on trying. -/
inductive Patience
  /-- It tries once. -/
  | once
  /-- It waits until it gets in. -/
  | untilHeld
  deriving DecidableEq, Repr

/-- Why a hold is given up. -/
inductive Leave
  /-- The thread is done with the lock. -/
  | done
  /-- A reader was not welcome. -/
  | turnedAway (patience : Patience)
  deriving DecidableEq, Repr

/-- The steps of waking those who are parked. -/
inductive Waking
  | clear
  | lock
  | notify
  | unlock
  deriving DecidableEq, Repr

/-- The steps of waiting. -/
inductive Waiting
  /-- About to set the queued flag. -/
  | announce
  /-- About to look at the word, with `left` more looks to come. -/
  | spin (left : Nat)
  /-- About to set the queued flag again, with `left` more looks to come. -/
  | reannounce (left : Nat)
  /-- About to look whether to set the waiting flag. -/
  | weigh
  /-- About to set the waiting flag in the word as seen. -/
  | flag (seen : Word)
  /-- About to take the parking mutex. -/
  | lock
  /-- Holding the mutex, about to look whether the waiting flag is still set. -/
  | check
  /-- Holding the mutex, about to park. -/
  | park
  | parked
  /-- Woken, about to take the mutex again. -/
  | relock
  /-- Holding the mutex, about to give it back and try again. -/
  | unlock
  deriving DecidableEq, Repr

/-- Where a thread stands. -/
inductive Point
  /-- Holds nothing and wants nothing. -/
  | outside
  | holding (mode : Mode)
  /-- About to add itself to the holders. -/
  | joining (patience : Patience)
  /-- About to take itself off the holders. -/
  | leaving (why : Leave)
  /-- About to look whether the word can be claimed. -/
  | looking (patience : Patience)
  /-- About to claim the word as seen. -/
  | claiming (patience : Patience) (seen : Word)
  /-- A writer about to look at the word, to leave. -/
  | unlocking
  /-- A writer about to leave the word as seen. -/
  | unclaiming (seen : Word)
  /-- About to wake those who are parked, after giving up a hold. -/
  | waking (stage : Waking) (why : Leave)
  /-- Waiting to get in. -/
  | waiting (mode : Mode) (stage : Waiting)
  deriving DecidableEq, Repr

/-- What a thread may ask of a lock. -/
inductive Call
  | acquire (mode : Mode) (patience : Patience)
  | release
  deriving DecidableEq, Repr

/-- What the threads share: the word, and whether the parking mutex is taken. -/
structure Core where
  word : Word
  mutex : Bool
  deriving DecidableEq, Repr

/-- A step of a thread. -/
structure Move where
  point : Point
  core : Core
  /-- Whether everyone who is parked is woken. -/
  notifies : Bool := false

/-- How often a waiting thread looks at the word before it parks. -/
def spinLimit : Nat := 64

namespace Point

/-- The first step of a call; none where a thread cannot make it. -/
def start? : Point → Call → Option Point
  | .outside, .acquire .shared patience => some (.joining patience)
  | .outside, .acquire .exclusive patience => some (.looking patience)
  | .holding .shared, .release => some (.leaving .done)
  | .holding .exclusive, .release => some .unlocking
  | _, _ => none

/-- Back to trying to get in. -/
def retry : Mode → Point
  | .shared => .joining .untilHeld
  | .exclusive => .looking .untilHeld

/-- The first look of a thread that waits. -/
def spinning (mode : Mode) : Point :=
  .waiting mode (.spin (spinLimit - 1))

/-- After giving up a hold. -/
def afterLeaving : Leave → Point
  | .done | .turnedAway .once => .outside
  | .turnedAway .untilHeld => spinning .shared

/-- After taking a hold away that made the word `before` what it now is. -/
def afterRelease (before : Word) (why : Leave) : Point :=
  if before.lastAwaited then .waking .clear why else afterLeaving why

/-- A writer that does not get in. -/
def refused : Patience → Point
  | .once => .outside
  | .untilHeld => .waiting .exclusive .announce

/-- A writer that has seen the word. -/
def claimOrGiveUp (patience : Patience) (seen : Word) : Point :=
  if seen.held then refused patience else .claiming patience seen

/-- A waiting thread with `left` more looks to come. -/
def spinOn (mode : Mode) : Nat → Point
  | 0 => .waiting mode .weigh
  | left + 1 => .waiting mode (.spin left)

/-- A waiting thread that has spun for long enough and has seen the word.  Only
a word that has holders may carry the waiting flag, so that the release that
empties it clears the flag. -/
def parkOrRetry (mode : Mode) (seen : Word) : Point :=
  if !seen.blocks mode then
    retry mode
  else if seen.waiting then
    .waiting mode .lock
  else if !seen.held then
    retry mode
  else
    .waiting mode (.flag seen)

/-- A waiting thread that has looked at the word while spinning. -/
def spinOrRetry (mode : Mode) (left : Nat) (seen : Word) : Point :=
  if !seen.blocks mode then
    retry mode
  else if mode = .exclusive ∧ !seen.queued then
    .waiting mode (.reannounce left)
  else
    spinOn mode left

/-- The next step of a thread by itself; none where it needs a call, a wake-up
or the mutex to go on. -/
def step? (point : Point) (core : Core) : Option Move :=
  match point with
  | .outside | .holding _ | .waiting _ .parked => none
  | .joining patience =>
      let next := if core.word.closed then .leaving (.turnedAway patience) else .holding .shared
      some { point := next, core := { core with word := core.word.join } }
  | .leaving why =>
      some
        { point := afterRelease core.word why
          core := { core with word := core.word.leave } }
  | .looking patience => some { point := claimOrGiveUp patience core.word, core := core }
  | .claiming patience seen =>
      if core.word = seen then
        some { point := .holding .exclusive, core := { core with word := seen.claim } }
      else
        some { point := claimOrGiveUp patience core.word, core := core }
  | .unlocking => some { point := .unclaiming core.word, core := core }
  | .unclaiming seen =>
      if core.word = seen then
        some { point := afterRelease seen .done, core := { core with word := seen.unclaim } }
      else
        some { point := .unclaiming core.word, core := core }
  | .waking .clear why =>
      some
        { point := .waking .lock why
          core := { core with word := core.word.clearWaiting } }
  | .waking .lock why =>
      if core.mutex then
        none
      else
        some { point := .waking .notify why, core := { core with mutex := true } }
  | .waking .notify why => some { point := .waking .unlock why, core := core, notifies := true }
  | .waking .unlock why =>
      some { point := afterLeaving why, core := { core with mutex := false } }
  | .waiting mode .announce =>
      some { point := spinning mode, core := { core with word := core.word.setQueued } }
  | .waiting mode (.spin left) =>
      some { point := spinOrRetry mode left core.word, core := core }
  | .waiting mode (.reannounce left) =>
      some { point := spinOn mode left, core := { core with word := core.word.setQueued } }
  | .waiting mode .weigh => some { point := parkOrRetry mode core.word, core := core }
  | .waiting mode (.flag seen) =>
      if core.word = seen then
        some { point := .waiting mode .lock, core := { core with word := seen.setWaiting } }
      else
        some { point := parkOrRetry mode core.word, core := core }
  | .waiting mode .lock =>
      if core.mutex then
        none
      else
        some { point := .waiting mode .check, core := { core with mutex := true } }
  | .waiting mode .check =>
      some
        { point := .waiting mode (if core.word.waiting then .park else .unlock)
          core := core }
  | .waiting mode .park =>
      some { point := .waiting mode .parked, core := { core with mutex := false } }
  | .waiting mode .relock =>
      if core.mutex then
        none
      else
        some { point := .waiting mode .unlock, core := { core with mutex := true } }
  | .waiting mode .unlock =>
      some { point := retry mode, core := { core with mutex := false } }

/-- Where a thread stands after an exchange that failed although the word was as
seen, which an exchange is free to do. -/
def misfire? (point : Point) (core : Core) : Option Point :=
  match point with
  | .claiming patience _ => some (claimOrGiveUp patience core.word)
  | .unclaiming _ => some (.unclaiming core.word)
  | .waiting mode (.flag _) => some (parkOrRetry mode core.word)
  | _ => none

/-- Where a thread stands once everyone who is parked has been woken. -/
def woken : Point → Point
  | .waiting mode .parked => .waiting mode .relock
  | point => point

/-- Whether a thread waits for exclusive access. -/
def wantsExclusive : Point → Bool
  | .looking .untilHeld | .claiming .untilHeld _ | .waiting .exclusive _ => true
  | _ => false

end Point

end SlabTree.Lock
