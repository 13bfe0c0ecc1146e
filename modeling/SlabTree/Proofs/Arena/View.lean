import SlabTree.Proofs.Arena.Ledger
import SlabTree.Proofs.Session

/-!
# Arenas as live slots

Users of an arena see the bytes of its live slots and the numbers of its ledger.
In this view a write changes the bytes written and nothing else, taking a slot
adds one with zeros, and giving one back removes the last.  What a page contains
when it is handed out never shows, since every live byte was written after its
page was committed.
-/

namespace SlabTree

/-! ## Bytes of a region -/

namespace Region

variable {region : Region}

/-- Committing a page leaves the committed bytes alone. -/
theorem byte_commitPage (region : Region) {i : Nat} (committed : i < region.committed) :
    region.commitPage.byte i = region.byte i := by
  have inside : i / region.host.pageSize < region.pages.size := by
    rw [Nat.div_lt_iff_lt_mul region.host.pageSize_pos]
    exact committed
  simp only [byte, commitPage, Array.getElem?_push_lt inside, Array.getElem?_eq_getElem inside]

/-- Releasing a page leaves the bytes of the pages before it alone. -/
theorem byte_releasePage (region : Region) {i : Nat}
    (kept : i < (region.committedPages - 1) * region.host.pageSize) :
    region.releasePage.byte i = region.byte i := by
  have inside : i / region.host.pageSize < region.pages.size - 1 := by
    rw [Nat.div_lt_iff_lt_mul region.host.pageSize_pos]
    exact kept
  simp only [byte, releasePage, Array.getElem?_pop, inside, if_true]

@[simp]
theorem byte_refused (region : Region) (i : Nat) : region.refused.byte i = region.byte i :=
  rfl

@[simp]
theorem committedPages_commitPage :
    region.commitPage.committedPages = region.committedPages + 1 := by
  simp [commitPage, committedPages]

@[simp]
theorem committedPages_releasePage :
    region.releasePage.committedPages = region.committedPages - 1 := by
  simp [releasePage, committedPages]

@[simp]
theorem asked_poke (offset : Nat) (data : Bytes) :
    (region.poke offset data).asked = region.asked := by
  induction data generalizing region offset with
  | nil => rfl
  | cons value rest inductionHypothesis => simp [poke, inductionHypothesis, setByte]

@[simp]
theorem size_poke (offset : Nat) (data : Bytes) : (region.poke offset data).size = region.size := by
  induction data generalizing region offset with
  | nil => rfl
  | cons value rest inductionHypothesis => simp [poke, inductionHypothesis, setByte]

end Region

namespace Arena

/-! ## The view -/

/-- The bytes of the live slots and the numbers of the ledger. -/
@[ext]
structure View where
  /-- Byte `i` of a slot; zero where there is none. -/
  bytes : Slot → Nat → UInt8
  ledger : Ledger

/-- What users see of an arena. -/
def view (arena : Arena) : View where
  bytes slot i :=
    if slot < arena.live ∧ i < arena.elementSize then
      arena.region.byte (arena.offset slot + i)
    else 0
  ledger := arena.ledger

namespace View

/-- Bytes `start` to `stop` of a slot. -/
def slice (view : View) (slot : Slot) (start stop : Nat) : Bytes :=
  (List.range (stop - start)).map fun i => view.bytes slot (start + i)

/-- The view after `data` was written over the bytes of a slot from `start` on. -/
def write (view : View) (slot : Slot) (start : Nat) (data : Bytes) : View :=
  { view with
    bytes := fun other i =>
      if other = slot ∧ start ≤ i then (data[i - start]?).getD (view.bytes other i)
      else view.bytes other i }

/-- The view after one slot was copied over another from `start` to `stop`. -/
def copy (view : View) (source target : Slot) (start stop : Nat) : View :=
  { view with
    bytes := fun slot i =>
      if slot = target ∧ start ≤ i ∧ i < stop then view.bytes source i else view.bytes slot i }

/-- The view after the host was asked for the pages of one slot more. -/
def commit (view : View) : View :=
  { view with ledger := view.ledger.commit }

/-- The view after a slot was handed out. -/
def allocate (view : View) : View :=
  { view with ledger := view.ledger.allocate }

/-- The view after the last slot was freed. -/
def free (view : View) : View where
  bytes slot i := if slot = view.ledger.live - 1 then 0 else view.bytes slot i
  ledger := view.ledger.free

@[simp]
theorem length_slice (view : View) (slot : Slot) (start stop : Nat) :
    (view.slice slot start stop).length = stop - start := by
  simp [slice]

/-- A slice depends on the bytes in it alone. -/
theorem slice_congr {first second : View} {here there : Slot} {start stop : Nat}
    (same : ∀ i, start ≤ i → i < stop → first.bytes here i = second.bytes there i) :
    first.slice here start stop = second.slice there start stop := by
  apply List.map_congr_left
  intro i inRange
  have bound := List.mem_range.mp inRange
  exact same (start + i) (Nat.le_add_right start i) (by omega)

/-- A range that was written reads back as what was written. -/
theorem slice_write_self (view : View) (slot : Slot) (start : Nat) (data : Bytes) :
    (view.write slot start data).slice slot start (start + data.length) = data := by
  apply List.ext_getElem
  · simp
  · intro i inSlice inData
    simp [slice, write, List.getElem?_eq_getElem inData]

/-- Other slots, and ranges apart from the one written, read as before. -/
theorem slice_write_of_apart {view : View} {slot other : Slot} {start first last : Nat}
    {data : Bytes}
    (apart : other ≠ slot ∨ last ≤ start ∨ start + data.length ≤ first) :
    (view.write slot start data).slice other first last = view.slice other first last := by
  apply slice_congr
  intro i low high
  simp only [write]
  split
  next inside =>
    rw [List.getElem?_eq_none, Option.getD_none]
    rcases apart with different | before | behind
    · exact absurd inside.1 different
    · omega
    · omega
  · rfl

end View

/-! ## Reading -/

variable {arena : Arena}

/-- Places up to the end of the region are words. -/
theorem fitted_of_le_size (sound : arena.ledger.Sound) {place : Nat}
    (inside : place ≤ arena.region.size) : Words.fitted place = .ok place :=
  Words.fitted_eq_ok (Nat.lt_of_le_of_lt inside sound.size_lt)

/-- The bytes of a live slot may be touched. -/
theorem touchable (sound : arena.ledger.Sound) {slot start length : Nat} (live : slot < arena.live)
    (inside : start + length ≤ arena.elementSize) :
    Words.fitted (arena.offset slot) = .ok (arena.offset slot) ∧
      Words.fitted (arena.offset slot + start) = .ok (arena.offset slot + start) ∧
      arena.region.check (arena.offset slot + start) length = .ok () := by
  have committed : arena.offset slot + arena.elementSize ≤ arena.region.committed :=
    sound.slot_committed live
  have reserved : arena.region.committed ≤ arena.region.size := sound.committed_le
  refine ⟨fitted_of_le_size sound (by omega), fitted_of_le_size sound (by omega), ?_⟩
  simp only [Region.check, Region.checkInside, Bind.bind, Except.bind]
  rw [if_neg (by omega), if_neg (by omega)]

theorem locate_eq_ok (sound : arena.ledger.Sound) {slot : Slot} (live : slot < arena.live) :
    arena.locate slot = .ok (arena.offset slot) := by
  obtain ⟨fits, _, allowed⟩ := touchable sound live (Nat.le_of_eq (Nat.zero_add _))
  rw [Nat.add_zero] at allowed
  simp only [locate, checkLive, live, if_true, fits, allowed, Bind.bind, Except.bind]

theorem check_eq_ok (sound : arena.ledger.Sound) {slot start stop : Nat}
    (live : slot < arena.live) (ordered : start ≤ stop) (inside : stop ≤ arena.elementSize) :
    arena.check slot start stop = .ok (arena.offset slot + start) := by
  simp only [check, locate_eq_ok sound live, ordered, inside, and_self, if_true, Bind.bind,
    Except.bind]

theorem span_eq_ok (sound : arena.ledger.Sound) {slot start length : Nat}
    (live : slot < arena.live) (inside : start + length ≤ arena.elementSize) :
    arena.span slot start length = .ok (arena.offset slot + start) := by
  obtain ⟨base, place, allowed⟩ := touchable sound live inside
  simp only [span, base, place, allowed, Bind.bind, Except.bind]

/-- The bytes of a live slot in the region are those seen. -/
theorem peek_eq_slice {slot start stop : Nat} (live : slot < arena.live)
    (inside : stop ≤ arena.elementSize) :
    arena.region.peek (arena.offset slot + start) (stop - start) =
      arena.view.slice slot start stop := by
  apply List.map_congr_left
  intro i inRange
  have bound := List.mem_range.mp inRange
  simp only [view]
  rw [if_pos ⟨live, by omega⟩, Nat.add_assoc]

/-- The bytes of a live slot can be read, and they are those seen. -/
theorem read_eq_ok (sound : arena.ledger.Sound) {slot start stop : Nat}
    (live : slot < arena.live) (ordered : start ≤ stop) (inside : stop ≤ arena.elementSize) :
    arena.read slot start stop = .ok (arena.view.slice slot start stop) := by
  simp only [read, check_eq_ok sound live ordered inside, Bind.bind, Except.bind,
    peek_eq_slice live inside]

theorem checkLive_dead {slot : Slot} (dead : arena.live ≤ slot) :
    arena.checkLive slot = .error (.notLive slot arena.live) :=
  if_neg (Nat.not_lt_of_le dead)

theorem check_dead {slot start stop : Nat} (dead : arena.live ≤ slot) :
    arena.check slot start stop = .error (.notLive slot arena.live) := by
  simp only [check, locate, checkLive_dead dead, Bind.bind, Except.bind]

/-- Only live slots are read. -/
theorem live_of_read {slot start stop : Nat} {bytes : Bytes}
    (answered : arena.read slot start stop = .ok bytes) : slot < arena.live := by
  by_cases live : slot < arena.live
  · exact live
  · simp only [read, check_dead (Nat.le_of_not_lt live), Bind.bind, Except.bind] at answered
    cases answered

/-! ## Writing -/

/-- The arena with `data` written over the bytes of a slot from `start` on. -/
def overwrite (arena : Arena) (slot : Slot) (start : Nat) (data : Bytes) : Arena :=
  arena.mapRegion (·.poke (arena.offset slot + start) data)

@[simp]
theorem ledger_overwrite (slot start : Nat) (data : Bytes) :
    (arena.overwrite slot start data).ledger = arena.ledger := by
  simp [overwrite, mapRegion, ledger]

/-- The slot that a byte belongs to. -/
theorem offset_add_div (slot : Slot) {i : Nat} (inside : i < arena.elementSize) :
    (arena.offset slot + i) / arena.elementSize = slot := by
  have positive : 0 < arena.elementSize := Nat.zero_lt_of_lt inside
  rw [offset, Nat.mul_comm, Nat.mul_add_div positive, Nat.div_eq_of_lt inside, Nat.add_zero]

/-- Distinct slots do not share a byte. -/
theorem offset_add_ne {slot other : Slot} {i j : Nat} (different : other ≠ slot)
    (inSlot : i < arena.elementSize) (inOther : j < arena.elementSize) :
    arena.offset other + j ≠ arena.offset slot + i := by
  intro same
  apply different
  rw [← offset_add_div other inOther, same, offset_add_div slot inSlot]

/-- A write changes the bytes written in its slot and no byte of another. -/
theorem byte_poke_slot (sound : arena.ledger.Sound) {slot other : Slot} {start i : Nat}
    {data : Bytes} (live : slot < arena.live) (fits : start + data.length ≤ arena.elementSize)
    (inside : i < arena.elementSize) :
    (arena.region.poke (arena.offset slot + start) data).byte (arena.offset other + i) =
      if other = slot ∧ start ≤ i then
        (data[i - start]?).getD (arena.region.byte (arena.offset other + i))
      else arena.region.byte (arena.offset other + i) := by
  have committed : arena.offset slot + arena.elementSize ≤ arena.region.committed :=
    sound.slot_committed live
  rw [Region.byte_poke (show arena.offset slot + start + data.length ≤ _ by omega)]
  by_cases same : other = slot
  · subst same
    by_cases low : start ≤ i
    · have place : arena.offset other + i - (arena.offset other + start) = i - start := by omega
      rw [if_pos (by omega), if_pos ⟨rfl, low⟩, place]
    · have outside : ¬ (other = other ∧ start ≤ i) := fun both => low both.2
      rw [if_neg (by omega), if_neg outside]
  · have outside : ¬ (other = slot ∧ start ≤ i) := fun both => same both.1
    rw [if_neg outside]
    split
    next behind =>
      rw [List.getElem?_eq_none, Option.getD_none]
      apply Nat.le_of_not_lt
      intro short
      have place : arena.offset other + i =
          arena.offset slot + (arena.offset other + i - arena.offset slot) := by omega
      exact offset_add_ne same (by omega) inside place
    · rfl

theorem view_overwrite (sound : arena.ledger.Sound) {slot : Slot} {start : Nat} {data : Bytes}
    (live : slot < arena.live) (fits : start + data.length ≤ arena.elementSize) :
    (arena.overwrite slot start data).view = arena.view.write slot start data := by
  have bytes : (arena.overwrite slot start data).view.bytes =
      (arena.view.write slot start data).bytes := by
    funext other i
    change (if other < arena.live ∧ i < arena.elementSize then
        (arena.region.poke (arena.offset slot + start) data).byte (arena.offset other + i)
      else 0) = _
    simp only [View.write, view]
    by_cases there : other < arena.live ∧ i < arena.elementSize
    · simp only [there, and_self, if_true]
      exact byte_poke_slot sound live fits there.2
    · simp only [there, if_false]
      split
      next here =>
        have dead : ¬ i < arena.elementSize := fun bound => there ⟨here.1 ▸ live, bound⟩
        rw [List.getElem?_eq_none (show data.length ≤ i - start by omega), Option.getD_none]
      · rfl
  have numbers : (arena.overwrite slot start data).ledger = arena.ledger :=
    ledger_overwrite slot start data
  exact View.ext bytes numbers

/-- Writing to a live slot is carried out. -/
theorem write_run (sound : arena.ledger.Sound) {slot start : Nat} {data : Bytes}
    (live : slot < arena.live) (inside : start + data.length ≤ arena.elementSize)
    (journal : Journal) :
    write slot start data ⟨arena, journal⟩ = .ok () ⟨arena.overwrite slot start data, journal⟩ := by
  have checked := check_eq_ok sound live (Nat.le_add_right start data.length) inside
  simp [write, Action.read, Action.update, Bind.bind, EStateM.bind, checked, overwrite]

variable {seen : View}

theorem yields_write (sound : seen.ledger.Sound) {slot start : Nat} {data : Bytes}
    (live : slot < seen.ledger.live) (inside : start + data.length ≤ seen.ledger.elementSize) :
    Action.Yields view (write slot start data) seen () (seen.write slot start data) {} := by
  rintro arena journal rfl
  exact ⟨_, by rw [write_run sound live inside, Journal.append_empty],
    view_overwrite sound live inside⟩

end Arena

end SlabTree
