import SlabTree.Proofs.Arena.Requests

/-!
# Arenas as stacks of byte strings

An arena behaves like a stack: taking a slot pushes zeros, freeing one pops, and writes and
copies change a range of one byte string of the stack in place.  The byte strings are ranges
of the flat region, at places that depend on the number of the slot alone.

Newly committed pages contain anything, so a byte that was on a released page and is read
again later could be anything too.  That the two models still agree says that no byte of a
live slot was ever on such a page.  A stack is never refused memory, so the host is one that
backs the pages that it is asked for; whether it takes pages back makes no difference.
-/

namespace SlabTree

/-! ## Writing over a range -/

namespace Bytes

/-- The bytes with `data` written over them from `start` on; as they were where `data` does
not fit. -/
def splice (bytes : Bytes) (start : Nat) (data : Bytes) : Bytes :=
  (bytes.overwrite? start data).getD bytes

variable {bytes data : Bytes} {start : Nat}

@[simp]
theorem length_splice : (bytes.splice start data).length = bytes.length := by
  unfold splice
  cases written : bytes.overwrite? start data with
  | none => rfl
  | some result => exact length_overwrite? written

/-- A splice that fits replaces the bytes in its range and no others. -/
theorem getElem?_splice (fits : start + data.length ≤ bytes.length) (i : Nat) :
    (bytes.splice start data)[i]? =
      if start ≤ i ∧ i < start + data.length then data[i - start]? else bytes[i]? := by
  have front : (bytes.take start).length = start := by
    rw [List.length_take]
    omega
  rw [splice, overwrite?, if_pos fits, Option.getD_some]
  by_cases before : i < start
  · rw [if_neg (by omega), List.append_assoc, List.getElem?_append_left (by omega),
      List.getElem?_take_of_lt before]
  · by_cases inside : i < start + data.length
    · rw [if_pos ⟨Nat.le_of_not_lt before, inside⟩, List.getElem?_append_left (by simp; omega),
        List.getElem?_append_right (by omega), front]
    · rw [if_neg (fun both => inside both.2), List.getElem?_append_right (by simp; omega),
        List.length_append, front, List.getElem?_drop]
      congr 1
      omega

end Bytes

namespace Arena

/-! ## Stacks -/

/-- A stack of byte strings of one size, with room for a number of them.  The top is at the
end. -/
structure Stack (elementSize capacity : Nat) where
  slots : List Bytes
  sized : ∀ bytes ∈ slots, bytes.length = elementSize
  bounded : slots.length ≤ capacity

namespace Stack

variable {elementSize capacity : Nat}

/-- The stack without byte strings. -/
def empty (elementSize capacity : Nat) : Stack elementSize capacity where
  slots := []
  sized := by simp
  bounded := Nat.zero_le capacity

/-- The stack with zeros on top. -/
def push (stack : Stack elementSize capacity) (room : stack.slots.length < capacity) :
    Stack elementSize capacity where
  slots := stack.slots ++ [List.replicate elementSize 0]
  sized := by
    intro bytes mem
    rcases List.mem_append.mp mem with old | new
    · exact stack.sized bytes old
    · rw [List.mem_singleton.mp new, List.length_replicate]
  bounded := by
    rw [List.length_append, List.length_singleton]
    exact room

/-- The stack without its top. -/
def pop (stack : Stack elementSize capacity) : Stack elementSize capacity where
  slots := stack.slots.dropLast
  sized bytes mem := stack.sized bytes (List.dropLast_subset _ mem)
  bounded := by
    rw [List.length_dropLast]
    exact Nat.le_trans (Nat.sub_le _ 1) stack.bounded

/-- The stack with `data` written over the bytes of a slot from `start` on. -/
def write (stack : Stack elementSize capacity) (slot : Slot) (start : Nat) (data : Bytes) :
    Stack elementSize capacity where
  slots := stack.slots.modify slot (·.splice start data)
  sized := by
    intro bytes mem
    obtain ⟨i, there⟩ := List.getElem?_of_mem mem
    rw [List.getElem?_modify] at there
    obtain ⟨old, found, rfl⟩ := Option.map_eq_some_iff.mp there
    have oldSize := stack.sized old (List.mem_of_getElem? found)
    split
    · rw [Bytes.length_splice, oldSize]
    · exact oldSize
  bounded := by
    rw [List.length_modify]
    exact stack.bounded

/-- Bytes `start` to `stop` of a slot. -/
def read (stack : Stack elementSize capacity) (slot : Slot) (start stop : Nat) : Bytes :=
  (((stack.slots[slot]?).getD []).drop start).take (stop - start)

/-- The stack with bytes `start` to `stop` of one slot copied over those of another. -/
def copy (stack : Stack elementSize capacity) (source target : Slot) (start stop : Nat) :
    Stack elementSize capacity :=
  stack.write target start (stack.read source start stop)

/-- What a request comes back with, and the stack that it leaves. -/
def carryOut (stack : Stack elementSize capacity) : Request → Reply × Stack elementSize capacity
  | .allocate =>
      if room : stack.slots.length < capacity then
        (.allocated (.ok stack.slots.length), stack.push room)
      else (.allocated (.error .arenaFull), stack)
  | .free =>
      if stack.slots = [] then (.freed (.error .arenaEmpty), stack)
      else (.freed (.ok ()), stack.pop)
  | .read slot start stop => (.bytes (stack.read slot start stop), stack)
  | .write slot start data => (.done, stack.write slot start data)
  | .copySlot source target => (.done, stack.copy source target 0 elementSize)
  | .copyRange source target start stop => (.done, stack.copy source target start stop)

/-- Makes one request after the other, up to the first that faults. -/
def run (stack : Stack elementSize capacity) :
    List Request → Except Fault (List Reply) × Stack elementSize capacity
  | [] => (.ok [], stack)
  | request :: rest =>
      match request.fault? stack.slots.length elementSize with
      | some fault => (.error fault, stack)
      | none =>
          let (reply, next) := stack.carryOut request
          let (result, last) := next.run rest
          (result.map (reply :: ·), last)

end Stack

/-! ## The byte strings of a view -/

namespace View

variable {seen : View}

/-- The bytes of the live slots, in order. -/
def contents (seen : View) : List Bytes :=
  (List.range seen.ledger.live).map fun slot => seen.slice slot 0 seen.ledger.elementSize

@[simp]
theorem length_contents : seen.contents.length = seen.ledger.live := by
  simp [contents]

theorem getElem?_contents {slot : Slot} (live : slot < seen.ledger.live) :
    seen.contents[slot]? = some (seen.slice slot 0 seen.ledger.elementSize) := by
  simp [contents, List.getElem?_range live]

theorem getElem?_slice {slot : Slot} {start stop i : Nat} (inside : i < stop - start) :
    (seen.slice slot start stop)[i]? = some (seen.bytes slot (start + i)) := by
  simp [slice, List.getElem?_range inside]

/-- A range of the bytes of a slot. -/
theorem take_drop_slice {slot : Slot} {start stop size : Nat} (inside : stop ≤ size) :
    ((seen.slice slot 0 size).drop start).take (stop - start) = seen.slice slot start stop := by
  apply List.ext_getElem?
  intro i
  by_cases short : i < stop - start
  · rw [List.getElem?_take_of_lt short, List.getElem?_drop, getElem?_slice (by omega),
      getElem?_slice short, Nat.zero_add]
  · rw [List.getElem?_take_eq_none (Nat.le_of_not_lt short),
      List.getElem?_eq_none (by simpa using short)]

/-- A write splices the bytes of its slot. -/
theorem slice_write {slot : Slot} {start size : Nat} {data : Bytes}
    (fits : start + data.length ≤ size) :
    (seen.write slot start data).slice slot 0 size =
      (seen.slice slot 0 size).splice start data := by
  apply List.ext_getElem?
  intro i
  rw [Bytes.getElem?_splice (by simpa using fits)]
  by_cases short : i < size
  · rw [getElem?_slice (by omega), getElem?_slice (by omega), Nat.zero_add]
    simp only [write, true_and]
    by_cases low : start ≤ i
    · by_cases high : i < start + data.length
      · have inData : i - start < data.length := by omega
        rw [if_pos low, if_pos ⟨low, high⟩, List.getElem?_eq_getElem inData, Option.getD_some]
      · rw [if_pos low, if_neg (fun both => high both.2), List.getElem?_eq_none (by omega),
          Option.getD_none]
    · rw [if_neg low, if_neg (fun both => low both.1)]
  · rw [if_neg (by omega), List.getElem?_eq_none (by simpa using short),
      List.getElem?_eq_none (by simpa using short)]

theorem contents_write {slot : Slot} {start : Nat} {data : Bytes}
    (fits : start + data.length ≤ seen.ledger.elementSize) :
    (seen.write slot start data).contents = seen.contents.modify slot (·.splice start data) := by
  apply List.ext_getElem?
  intro other
  rw [List.getElem?_modify]
  by_cases live : other < seen.ledger.live
  · have liveAfter : other < (seen.write slot start data).ledger.live := live
    rw [getElem?_contents live, getElem?_contents liveAfter, Option.map_eq_map, Option.map_some]
    congr 1
    by_cases same : slot = other
    · subst same
      rw [if_pos rfl]
      exact slice_write fits
    · rw [if_neg same]
      exact slice_write_of_apart (Or.inl (Ne.symm same))
  · have dead : seen.ledger.live ≤ other := Nat.le_of_not_lt live
    have deadAfter : (seen.write slot start data).contents.length ≤ other := by
      rw [length_contents]
      exact dead
    rw [List.getElem?_eq_none deadAfter, List.getElem?_eq_none (by simpa using dead)]
    rfl

/-- A slot whose bytes were never written shows zeros once it is handed out. -/
theorem contents_allocate (blank : ∀ i, seen.bytes seen.ledger.live i = 0) :
    seen.allocate.contents = seen.contents ++ [List.replicate seen.ledger.elementSize 0] := by
  have zeros : seen.slice seen.ledger.live 0 seen.ledger.elementSize =
      List.replicate seen.ledger.elementSize 0 := by
    simp [slice, blank, List.map_const']
  change (List.range (seen.ledger.live + 1)).map
    (fun slot => seen.slice slot 0 seen.ledger.elementSize) = _
  rw [List.range_succ, List.map_append, List.map_singleton, zeros]
  rfl

theorem contents_free (used : seen.ledger.live ≠ 0) :
    seen.free.contents = seen.contents.dropLast := by
  obtain ⟨n, top⟩ := Nat.exists_eq_succ_of_ne_zero used
  have kept : ∀ slot ∈ List.range n, seen.free.slice slot 0 seen.ledger.elementSize =
      seen.slice slot 0 seen.ledger.elementSize := by
    intro slot inRange
    have below := List.mem_range.mp inRange
    apply slice_congr
    intro i _ _
    have other : slot ≠ seen.ledger.live - 1 := by omega
    exact if_neg other
  have shrunk : seen.ledger.live - 1 = n := by omega
  change (List.range (seen.ledger.live - 1)).map
    (fun slot => seen.free.slice slot 0 seen.ledger.elementSize) = _
  rw [shrunk, List.map_congr_left kept, contents, top, List.range_succ, List.map_append,
    List.map_singleton, List.dropLast_concat]

end View

/-! ## The stack that a view holds -/

variable {elementSize capacity : Nat} {seen later : View} {stack : Stack elementSize capacity}
  {request : Request} {reply : Reply} {log : Journal}

/-- The live slots of the view are those of the stack, and nothing else was written. -/
structure Holds (seen : View) (stack : Stack elementSize capacity) : Prop where
  sound : seen.ledger.Sound
  elementSize_eq : seen.ledger.elementSize = elementSize
  capacity_eq : seen.ledger.capacity = capacity
  slots_eq : stack.slots = seen.contents
  blank : ∀ slot, seen.ledger.live ≤ slot → ∀ i, seen.bytes slot i = 0

namespace Holds

theorem length_slots (holds : Holds seen stack) : stack.slots.length = seen.ledger.live := by
  rw [holds.slots_eq, View.length_contents]

theorem read_eq (holds : Holds seen stack) {slot : Slot} {start stop : Nat}
    (live : slot < seen.ledger.live) (inside : stop ≤ seen.ledger.elementSize) :
    stack.read slot start stop = seen.slice slot start stop := by
  rw [Stack.read, holds.slots_eq, View.getElem?_contents live, Option.getD_some,
    View.take_drop_slice inside]

theorem push (holds : Holds seen stack) (room : stack.slots.length < capacity)
    (granted : seen.ledger.commitRefusal? = none) : Holds seen.allocate (stack.push room) where
  sound := by
    refine holds.sound.allocate ?_ granted
    rw [holds.capacity_eq, ← holds.length_slots]
    exact room
  elementSize_eq := holds.elementSize_eq
  capacity_eq := holds.capacity_eq
  slots_eq := by
    rw [View.contents_allocate (holds.blank _ (Nat.le_refl _)), ← holds.slots_eq,
      holds.elementSize_eq]
    rfl
  blank slot dead i := holds.blank slot (Nat.le_of_succ_le dead) i

theorem pop (holds : Holds seen stack) (used : seen.ledger.live ≠ 0) :
    Holds seen.free stack.pop where
  sound := holds.sound.free
  elementSize_eq := holds.elementSize_eq
  capacity_eq := holds.capacity_eq
  slots_eq := by
    rw [View.contents_free used, ← holds.slots_eq]
    rfl
  blank := by
    intro slot dead i
    have behind : seen.ledger.live - 1 ≤ slot := dead
    by_cases top : slot = seen.ledger.live - 1
    · exact if_pos top
    · exact (if_neg top).trans (holds.blank slot (by omega) i)

theorem write (holds : Holds seen stack) {slot : Slot} {start : Nat} {data : Bytes}
    (live : slot < seen.ledger.live) (inside : start + data.length ≤ seen.ledger.elementSize) :
    Holds (seen.write slot start data) (stack.write slot start data) where
  sound := holds.sound
  elementSize_eq := holds.elementSize_eq
  capacity_eq := holds.capacity_eq
  slots_eq := by
    rw [View.contents_write inside, ← holds.slots_eq]
    rfl
  blank := by
    intro other dead i
    have behind : seen.ledger.live ≤ other := dead
    have elsewhere : ¬(other = slot ∧ start ≤ i) := fun here =>
      Nat.lt_irrefl slot (Nat.lt_of_lt_of_le live (here.1 ▸ behind))
    exact (if_neg elsewhere).trans (holds.blank other behind i)

theorem copy (holds : Holds seen stack) {source target : Slot} {start stop : Nat}
    (sourceLive : source < seen.ledger.live) (targetLive : target < seen.ledger.live)
    (ordered : start ≤ stop) (inside : stop ≤ seen.ledger.elementSize) :
    Holds (seen.copy source target start stop) (stack.copy source target start stop) := by
  rw [Stack.copy, holds.read_eq sourceLive inside, ← View.write_slice]
  apply holds.write targetLive
  rw [View.length_slice]
  omega

/-- A request that is carried out takes a stack to the stack that is held afterwards, with
the same reply. -/
theorem serves (holds : Holds seen stack) (grants : seen.ledger.host.Grants)
    (served : Serves seen request reply later log) :
    (stack.carryOut request).1 = reply ∧ Holds later (stack.carryOut request).2 := by
  have height := holds.length_slots
  cases served with
  | refused room refused =>
      rw [Ledger.commitRefusal?_eq_none grants] at refused
      cases refused
  | allocated room granted =>
      have fits : stack.slots.length < capacity := by
        rw [height, ← holds.capacity_eq]
        exact room
      rw [Stack.carryOut, dif_pos fits]
      exact ⟨by rw [height], holds.push fits granted⟩
  | full full =>
      have none : ¬ stack.slots.length < capacity := by
        rw [height, full, holds.capacity_eq]
        exact Nat.lt_irrefl capacity
      rw [Stack.carryOut, dif_neg none]
      exact ⟨rfl, holds⟩
  | freed used =>
      have some : stack.slots ≠ [] := by
        rw [← List.length_pos_iff, height]
        exact Nat.pos_of_ne_zero used
      rw [Stack.carryOut, if_neg some]
      exact ⟨rfl, holds.pop used⟩
  | empty unused =>
      have none : stack.slots = [] := by
        rw [← List.length_eq_zero_iff, height, unused]
      rw [Stack.carryOut, if_pos none]
      exact ⟨rfl, holds⟩
  | read live ordered inside => exact ⟨congrArg Reply.bytes (holds.read_eq live inside), holds⟩
  | written live inside => exact ⟨rfl, holds.write live inside⟩
  | copiedSlot sourceLive targetLive =>
      have copied := holds.copy sourceLive targetLive (Nat.zero_le _) (Nat.le_refl _)
      rw [holds.elementSize_eq] at copied ⊢
      exact ⟨rfl, copied⟩
  | copiedRange sourceLive targetLive ordered inside =>
      exact ⟨rfl, holds.copy sourceLive targetLive ordered inside⟩

/-- The same requests lead to the same replies, or the same fault, and the same stack. -/
theorem runs (holds : Holds seen stack) (grants : seen.ledger.host.Grants)
    {requests : List Request} {result : Except Fault (List Reply)}
    (ran : Runs seen requests result later log) :
    (stack.run requests).1 = result ∧ Holds later (stack.run requests).2 := by
  induction ran generalizing stack with
  | nil => exact ⟨rfl, holds⟩
  | cons served _ inductionHypothesis =>
      obtain ⟨sameReply, held⟩ := holds.serves grants served
      obtain ⟨sameResult, heldLast⟩ := inductionHypothesis held (served.host_eq ▸ grants)
      have sane := served.sane
      rw [← holds.length_slots, holds.elementSize_eq] at sane
      rw [Stack.run, sane]
      exact ⟨by simp only [sameReply, sameResult], heldLast⟩
  | fault faults =>
      rw [← holds.length_slots, holds.elementSize_eq] at faults
      rw [Stack.run, faults]
      exact ⟨rfl, holds⟩

end Holds

/-! ## Live bytes and pages -/

/-- A live byte is on a page that the live slots reach into. -/
theorem page_lt_pagesFor {pageSize live slot i : Nat} (positive : 0 < pageSize)
    (inside : slot < live) (short : i < elementSize) :
    (slot * elementSize + i) / pageSize < pagesFor pageSize elementSize live := by
  rw [Nat.div_lt_iff_lt_mul positive]
  calc
    slot * elementSize + i < slot * elementSize + elementSize := Nat.add_lt_add_left short _
    _ = (slot + 1) * elementSize := (Nat.succ_mul slot _).symm
    _ ≤ live * elementSize := Nat.mul_le_mul_right _ inside
    _ ≤ pagesFor pageSize elementSize live * pageSize := slots_le_pagesFor positive _ _

theorem not_release_mem_commitLog (first n page : Nat) :
    Event.releasePage page ∉ (commitLog first n).events := by
  induction n generalizing first with
  | zero => simp [commitLog]
  | succ n inductionHypothesis => simp [commitLog, Journal.append_eq, inductionHypothesis]

/-- Only pages behind those that stay are given back. -/
theorem le_of_mem_releaseLog {pages n page : Nat}
    (released : Event.releasePage page ∈ (releaseLog pages n).events) : pages - n ≤ page := by
  induction n generalizing pages with
  | zero => simp [releaseLog] at released
  | succ n inductionHypothesis =>
      simp only [releaseLog, Journal.append_eq, Array.mem_append, List.mem_toArray,
        List.mem_singleton, Event.releasePage.injEq] at released
      rcases released with rfl | later
      · omega
      · have bound := inductionHypothesis later
        omega

theorem not_release_mem_releaseWarning (at_ page : Nat) (refusal : Option HostError) :
    Event.releasePage page ∉ (releaseWarning at_ refusal).events := by
  cases refusal <;> simp [releaseWarning]

/-- No page that is given back has a byte of a slot that stays live. -/
theorem Serves.releases (served : Serves seen request reply later log)
    (sound : seen.ledger.Sound) {page : Nat} (released : Event.releasePage page ∈ log.events) :
    later.ledger.pages later.ledger.live ≤ page := by
  have after := (served.sound sound).pages_le
  cases served with
  | allocated room granted => exact absurd released (not_release_mem_commitLog _ _ page)
  | refused room refused => exact absurd released (not_release_mem_commitLog _ _ page)
  | freed used =>
      rcases Array.mem_append.mp released with given | kept
      · exact Nat.le_trans after (le_of_mem_releaseLog given)
      · exact absurd kept (not_release_mem_releaseWarning _ page _)
  | full | empty | read | written | copiedSlot | copiedRange => simp at released

/-! ## Arenas and stacks -/

/-- The live slots as ranges of the flat region. -/
def contents (arena : Arena) : List Bytes :=
  (List.range arena.live).map fun slot =>
    arena.region.peek (slot * arena.elementSize) arena.elementSize

theorem contents_view (arena : Arena) : arena.view.contents = arena.contents := by
  apply List.map_congr_left
  intro slot inRange
  have live : slot < arena.live := List.mem_range.mp inRange
  apply List.map_congr_left
  intro i inSlot
  have short : i < arena.elementSize := List.mem_range.mp inSlot
  simp only [view, Nat.zero_add]
  exact if_pos ⟨live, short⟩

/-- A new arena holds the empty stack. -/
theorem holds_create {preallocate : Bool} {host : Host} {made : Session Arena}
    (created : create elementSize capacity preallocate host = .ok made) :
    Holds made.state.view (Stack.empty elementSize capacity) := by
  have fresh := made_of_create created
  refine ⟨fresh.sound, fresh.elementSize_eq, fresh.capacity_eq, ?_, ?_⟩
  · rw [contents_view, contents, fresh.live_eq]
    rfl
  · intro slot _ i
    have dead : ¬(slot < made.state.live ∧ i < made.state.elementSize) := by
      rw [fresh.live_eq]
      omega
    exact if_neg dead

/-- Arenas refine stacks of byte strings.  Whatever new pages contain, any requests lead to
the replies, or to the fault, that they lead to on a stack, and the live slots, as ranges of
the flat region, are its byte strings.  Every live byte is then on a committed page, and
whatever is requested next, the pages that it gives back have no byte of a slot that is
still live. -/
theorem stack_of_run {preallocate : Bool} {host : Host} {made : Session Arena}
    (grants : host.Grants) (created : create elementSize capacity preallocate host = .ok made)
    (requests : List Request) :
    ∃ final : Session Arena,
      serveAll requests made =
        Action.ending ((Stack.empty elementSize capacity).run requests).1 final ∧
      final.state.contents = ((Stack.empty elementSize capacity).run requests).2.slots ∧
      (∀ slot < final.state.live, ∀ i < elementSize,
        (slot * elementSize + i) / host.pageSize < final.state.region.committedPages) ∧
      ∀ request, ∃ result later log,
        serve request final = Action.ending result ⟨later, final.journal ++ log⟩ ∧
        ∀ page, Event.releasePage page ∈ log.events → ∀ slot < later.live, ∀ i < elementSize,
          (slot * elementSize + i) / host.pageSize < page := by
  have fresh := made_of_create created
  have start := holds_create created
  obtain ⟨result, seen, log, runs, ends⟩ := exists_runs start.sound requests
  obtain ⟨arena, ran, rfl⟩ := ends made.state made.journal rfl
  have granting : made.state.region.host.Grants := fresh.host_eq ▸ grants
  obtain ⟨sameResult, holds⟩ := start.runs granting runs
  have sameHost : arena.ledger.host = host :=
    (Ledger.eq_of_layout runs.layout_eq).1.trans fresh.host_eq
  have onPages : ∀ ledger : Ledger, ledger.host = host → ledger.elementSize = elementSize →
      ∀ slot < ledger.live, ∀ i < elementSize,
        (slot * elementSize + i) / host.pageSize < ledger.pages ledger.live := by
    rintro ledger rfl rfl slot live i short
    exact page_lt_pagesFor ledger.host.pageSize_pos live short
  refine ⟨⟨arena, made.journal ++ log⟩, ?_, ?_, ?_, ?_⟩
  · rw [sameResult]
    exact ran
  · rw [holds.slots_eq, contents_view]
  · intro slot live i short
    exact Nat.lt_of_lt_of_le (onPages _ sameHost holds.elementSize_eq slot live i short)
      holds.sound.pages_le
  · intro request
    cases sane : request.fault? arena.view.ledger.live arena.view.ledger.elementSize with
    | some fault =>
        obtain ⟨later, served, same⟩ :=
          ends_serve_of_fault holds.sound sane arena (made.journal ++ log) rfl
        exact ⟨_, later, {}, served, by simp⟩
    | none =>
        obtain ⟨reply, after, more, serves, yields⟩ := exists_serves holds.sound sane
        obtain ⟨later, served, rfl⟩ := yields arena (made.journal ++ log) rfl
        refine ⟨.ok reply, later, more, served, ?_⟩
        intro page released slot live i short
        have laid := Ledger.eq_of_layout serves.layout_eq
        exact Nat.lt_of_lt_of_le
          (onPages _ (laid.1.trans sameHost) (laid.2.2.1.trans holds.elementSize_eq) slot live i
            short)
          (serves.releases holds.sound released)

/-- A slot that is handed out again contains zeros, though the page under it is new and full
of nines. -/
theorem stack_of_run_reused :
    ∃ made final, create 2 1 false { Host.plain with contents := fun _ _ => 9 } = .ok made ∧
      serveAll [.allocate, .write 0 0 [7], .free, .allocate] made =
        Action.ending (.ok [.allocated (.ok 0), .done, .freed (.ok ()), .allocated (.ok 0)])
          final ∧
      final.state.contents = [[0, 0]] := by
  obtain ⟨final, ran, contents, _⟩ :=
    @stack_of_run 2 1 false { Host.plain with contents := fun _ _ => 9 } _ (fun _ => rfl) rfl
      [.allocate, .write 0 0 [7], .free, .allocate]
  exact ⟨_, final, rfl, ran, contents⟩

end Arena

end SlabTree
