/-!
# The word of a lock

A reader/writer lock is one 32-bit word: the number of holders in its low 29
bits, and above them a flag for a writer held back by others, a flag for waiting
threads, and a flag for a writer inside.
-/

namespace SlabTree.Lock

/-- The state of a lock. -/
abbrev Word := UInt32

/-- Set while a writer is inside. -/
def ownedFlag : Word := 0x80000000

/-- Set while threads are parked or about to park. -/
def waitingFlag : Word := 0x40000000

/-- Set by a writer that has to wait, to keep new readers out. -/
def queuedFlag : Word := 0x20000000

/-- The bits that count the holders. -/
def countMask : Word := 0x1fffffff

/-- The two ways to hold a lock. -/
inductive Mode
  | shared
  | exclusive
  deriving DecidableEq, Repr

namespace Word

/-- The number of holders. -/
def holders (word : Word) : Nat :=
  (word &&& countMask).toNat

/-- Whether a writer is inside. -/
def owned (word : Word) : Bool :=
  word &&& ownedFlag != 0

/-- Whether threads are parked or about to park. -/
def waiting (word : Word) : Bool :=
  word &&& waitingFlag != 0

/-- Whether a waiting writer keeps new readers out. -/
def queued (word : Word) : Bool :=
  word &&& queuedFlag != 0

/-- Whether anyone is inside. -/
def held (word : Word) : Bool :=
  word &&& (ownedFlag ||| countMask) != 0

/-- Whether a reader has to stay out. -/
def closed (word : Word) : Bool :=
  word &&& (ownedFlag ||| waitingFlag ||| queuedFlag) != 0

/-- Whether a thread that wants to hold the lock has to wait. -/
def blocks (word : Word) : Mode → Bool
  | .shared => word.closed
  | .exclusive => word.held

/-- Whether the release of a hold has to wake those who wait: it was the last
hold, and someone waits. -/
def lastAwaited (word : Word) : Bool :=
  word.waiting && word &&& countMask == 1

/-- The word with a reader more. -/
def join (word : Word) : Word :=
  word + 1

/-- The word with a reader less. -/
def leave (word : Word) : Word :=
  word - 1

/-- The word once a writer has come in: the waiting flag stays, for the wake-up
already under way, and the queued flag goes. -/
def claim (word : Word) : Word :=
  (word &&& waitingFlag) ||| ownedFlag ||| 1

/-- The word once the writer has left. -/
def unclaim (word : Word) : Word :=
  (word &&& ~~~ownedFlag) - 1

/-- The word with the queued flag set. -/
def setQueued (word : Word) : Word :=
  word ||| queuedFlag

/-- The word with the waiting flag set. -/
def setWaiting (word : Word) : Word :=
  word ||| waitingFlag

/-- The word with the waiting flag cleared. -/
def clearWaiting (word : Word) : Word :=
  word &&& ~~~waitingFlag

end Word

/-- What a lock shows of its word. -/
structure Snapshot where
  holders : Nat
  writer : Bool
  waiting : Bool
  writerQueued : Bool
  deriving DecidableEq, Repr

/-- The word taken apart. -/
def Word.snapshot (word : Word) : Snapshot where
  holders := word.holders
  writer := word.owned
  waiting := word.waiting
  writerQueued := word.queued

/-- A lock on one line. -/
def Snapshot.describe (s : Snapshot) : String :=
  s!"AtomicRwLock \x7b state: LockSnapshot \x7b holders: {s.holders}, writer: {s.writer}, " ++
    s!"waiting: {s.waiting}, writer_queued: {s.writerQueued} \x7d \x7d"

end SlabTree.Lock
