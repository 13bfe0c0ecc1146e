import SlabTree.Proofs.Arena.Operations

/-!
# Requests to an arena

A request to an arena faults when it names a slot that is not live, or bytes that a slot
does not have.  Any other request is carried out, in one of the few ways that are listed
here, each with the reply, with what is seen afterwards, and with what was logged.  What is
true of all runs of an arena is read off this list.
-/

namespace SlabTree.Arena

/-- A call on an arena. -/
inductive Request
  | allocate
  | free
  | read (slot : Slot) (start stop : Nat)
  | write (slot : Slot) (start : Nat) (data : Bytes)
  | copySlot (source target : Slot)
  | copyRange (source target : Slot) (start stop : Nat)
  deriving DecidableEq, Repr

/-- What a call comes back with. -/
inductive Reply
  | allocated (answer : Except Refusal Slot)
  | freed (answer : Except Refusal Unit)
  | bytes (answer : Bytes)
  | done

/-- Makes the call that is requested. -/
def serve : Request → Action Arena Reply
  | .allocate => do pure (.allocated (← allocate))
  | .free => do pure (.freed (← free))
  | .read slot start stop => do pure (.bytes (← Action.read (·.read slot start stop)))
  | .write slot start data => do
      write slot start data
      pure .done
  | .copySlot source target => do
      copySlot source target
      pure .done
  | .copyRange source target start stop => do
      copyRange source target start stop
      pure .done

/-- Makes one call after the other. -/
def serveAll : List Request → Action Arena (List Reply)
  | [] => pure []
  | request :: rest => do
      let reply ← serve request
      let replies ← serveAll rest
      pure (reply :: replies)

/-! ## Faults -/

namespace Request

/-- The slots that a request names, in the order in which they are looked at. -/
def slots : Request → List Slot
  | .allocate | .free => []
  | .read slot _ _ | .write slot _ _ => [slot]
  | .copySlot source target | .copyRange source target _ _ => [source, target]

/-- Whether a slot of a size has the bytes that a request names. -/
def fits (elementSize : Nat) : Request → Bool
  | .allocate | .free | .copySlot _ _ => true
  | .read _ start stop | .copyRange _ _ start stop => start ≤ stop ∧ stop ≤ elementSize
  | .write _ start data => start + data.length ≤ elementSize

/-- The fault of a request for bytes that a slot does not have. -/
def overrun (elementSize : Nat) : Request → Fault
  | .copyRange _ _ start stop => .rangeExceedsElement start stop elementSize
  | _ => .outOfBounds

/-- Why a request faults while `live` slots of a size are live, if it does. -/
def fault? (live elementSize : Nat) (request : Request) : Option Fault :=
  match request.slots.find? (live ≤ ·) with
  | some slot => some (.notLive slot live)
  | none => if request.fits elementSize then none else some (request.overrun elementSize)

end Request

variable {seen later middle : View} {request : Request} {reply : Reply} {log : Journal}
  {fault : Fault} {slot source target start stop : Nat} {data : Bytes}

/-- The ways in which a request is carried out. -/
inductive Serves (seen : View) : Request → Reply → View → Journal → Prop
  | allocated (room : seen.ledger.live < seen.ledger.capacity)
      (granted : seen.ledger.commitRefusal? = none) :
      Serves seen .allocate (.allocated (.ok seen.ledger.live)) seen.allocate
        (commitLog seen.ledger.committedPages seen.ledger.newPages)
  | refused (room : seen.ledger.live < seen.ledger.capacity) {error : HostError}
      (refused : seen.ledger.commitRefusal? = some error) :
      Serves seen .allocate (.allocated (.error (.host error))) seen.commit
        (commitLog seen.ledger.committedPages seen.ledger.newPages)
  | full (full : seen.ledger.live = seen.ledger.capacity) :
      Serves seen .allocate (.allocated (.error .arenaFull)) seen {}
  | freed (used : seen.ledger.live ≠ 0) :
      Serves seen .free (.freed (.ok ())) seen.free (freeLog seen.ledger)
  | empty (unused : seen.ledger.live = 0) :
      Serves seen .free (.freed (.error .arenaEmpty)) seen {}
  | read {slot : Slot} {start stop : Nat} (live : slot < seen.ledger.live) (ordered : start ≤ stop)
      (inside : stop ≤ seen.ledger.elementSize) :
      Serves seen (.read slot start stop) (.bytes (seen.slice slot start stop)) seen {}
  | written {slot : Slot} {start : Nat} {data : Bytes} (live : slot < seen.ledger.live)
      (inside : start + data.length ≤ seen.ledger.elementSize) :
      Serves seen (.write slot start data) .done (seen.write slot start data) {}
  | copiedSlot {source target : Slot} (sourceLive : source < seen.ledger.live)
      (targetLive : target < seen.ledger.live) :
      Serves seen (.copySlot source target) .done
        (seen.copy source target 0 seen.ledger.elementSize) {}
  | copiedRange {source target : Slot} {start stop : Nat} (sourceLive : source < seen.ledger.live)
      (targetLive : target < seen.ledger.live) (ordered : start ≤ stop)
      (inside : stop ≤ seen.ledger.elementSize) :
      Serves seen (.copyRange source target start stop) .done
        (seen.copy source target start stop) {}

/-- Carrying a request out keeps the numbers in order. -/
theorem Serves.sound (serves : Serves seen request reply later log) (sound : seen.ledger.Sound) :
    later.ledger.Sound := by
  cases serves with
  | allocated room granted => exact sound.allocate room granted
  | refused room refused => exact sound.commit room
  | freed used => exact sound.free
  | full | empty | read | written | copiedSlot | copiedRange => exact sound

/-! ## Requests that fault -/

theorem Request.fault?_eq_none_iff {live elementSize : Nat} :
    request.fault? live elementSize = none ↔
      (∀ slot ∈ request.slots, slot < live) ∧ request.fits elementSize = true := by
  unfold Request.fault?
  cases found : request.slots.find? (live ≤ ·) with
  | some slot =>
      have dead : live ≤ slot := by simpa using List.find?_some found
      simp only [reduceCtorEq, false_iff, not_and]
      intro all
      exact absurd (all slot (List.mem_of_find?_eq_some found)) (Nat.not_lt_of_le dead)
  | none =>
      have alive : ∀ slot ∈ request.slots, slot < live := by simpa using found
      simpa using fun _ => alive

/-- A request that faults names a slot that is not live, the first of this kind, or else
bytes that no slot has. -/
theorem Request.fault?_eq_some {live elementSize : Nat}
    (faults : request.fault? live elementSize = some fault) :
    (∃ slot, request.slots.find? (live ≤ ·) = some slot ∧ fault = .notLive slot live) ∨
      (∀ slot ∈ request.slots, slot < live) ∧ request.fits elementSize = false ∧
        fault = request.overrun elementSize := by
  unfold Request.fault? at faults
  cases found : request.slots.find? (live ≤ ·) with
  | some slot =>
      rw [found] at faults
      exact Or.inl ⟨slot, rfl, (Option.some.inj faults).symm⟩
  | none =>
      rw [found] at faults
      have alive : ∀ slot ∈ request.slots, slot < live := by simpa using found
      cases fits : request.fits elementSize with
      | true => simp [fits] at faults
      | false =>
          simp only [fits, Bool.false_eq_true, if_false, Option.some.injEq] at faults
          exact Or.inr ⟨alive, rfl, faults.symm⟩

variable {arena : Arena}

theorem check_outside (sound : arena.ledger.Sound) (live : slot < arena.live)
    (outside : ¬(start ≤ stop ∧ stop ≤ arena.elementSize)) :
    arena.check slot start stop = .error .outOfBounds := by
  simp only [check, locate_eq_ok sound live, outside, if_false, Bind.bind, Except.bind]

/-- The fault of a check of bytes of the only slot that a request names. -/
theorem check_faults (sound : seen.ledger.Sound) (named : request.slots = [slot])
    (spans : request.fits seen.ledger.elementSize =
      decide (start ≤ stop ∧ stop ≤ seen.ledger.elementSize))
    (overruns : request.overrun seen.ledger.elementSize = .outOfBounds)
    (faults : request.fault? seen.ledger.live seen.ledger.elementSize = some fault) :
    ∀ arena : Arena, arena.view = seen → arena.check slot start stop = .error fault := by
  rintro arena rfl
  rcases Request.fault?_eq_some faults with ⟨dead, first, rfl⟩ | ⟨live, outside, rfl⟩
  · rw [named] at first
    have isDead : arena.view.ledger.live ≤ dead := by simpa using List.find?_some first
    obtain rfl : dead = slot := by simpa using List.mem_of_find?_eq_some first
    exact check_dead isDead
  · rw [overruns]
    rw [spans] at outside
    exact check_outside sound (live slot (by simp [named])) (of_decide_eq_false outside)

theorem ends_read_of_check
    (told : ∀ arena : Arena, arena.view = seen → arena.check slot start stop = .error fault) :
    Action.Ends view (Action.read (·.read slot start stop)) seen (.error fault) seen {} := by
  apply Action.ends_read
  intro arena looks
  simp only [read, told arena looks, Bind.bind, Except.bind]

theorem ends_write_of_check
    (told : ∀ arena : Arena, arena.view = seen →
      arena.check slot start (start + data.length) = .error fault) :
    Action.Ends view (write slot start data) seen (.error fault) seen {} := by
  unfold write
  apply Action.Ends.breaking
  apply Action.ends_read
  intro arena looks
  simp only [told arena looks]

/-- A copy looks at the source first, then at the target. -/
theorem ends_copyRange_dead
    (first : [source, target].find? (seen.ledger.live ≤ ·) = some slot) :
    Action.Ends view (copyRange source target start stop) seen
      (.error (.notLive slot seen.ledger.live)) seen {} := by
  have dead : ∀ {slot : Slot}, seen.ledger.live ≤ slot → ∀ arena : Arena, arena.view = seen →
      arena.checkLive slot = .error (.notLive slot seen.ledger.live) := by
    rintro slot dead arena rfl
    exact checkLive_dead dead
  unfold copyRange
  by_cases sourceDead : seen.ledger.live ≤ source
  · have named : source = slot := by simpa [sourceDead] using first
    subst named
    exact Action.Ends.breaking (Action.ends_read (dead sourceDead))
  · have sourceLive : ∀ arena : Arena, arena.view = seen → arena.checkLive source = .ok () := by
      rintro arena rfl
      exact if_pos (Nat.lt_of_not_le sourceDead)
    obtain ⟨targetDead, named⟩ : seen.ledger.live ≤ target ∧ target = slot := by
      simpa [sourceDead] using first
    subst named
    apply (Action.yields_read _ sourceLive).quietly
    exact Action.Ends.breaking (Action.ends_read (dead targetDead))

theorem ends_copyRange_outside (sourceLive : source < seen.ledger.live)
    (targetLive : target < seen.ledger.live)
    (outside : ¬(start ≤ stop ∧ stop ≤ seen.ledger.elementSize)) :
    Action.Ends view (copyRange source target start stop) seen
      (.error (.rangeExceedsElement start stop seen.ledger.elementSize)) seen {} := by
  have live : ∀ {slot : Slot}, slot < seen.ledger.live → ∀ arena : Arena, arena.view = seen →
      arena.checkLive slot = .ok () := by
    rintro slot live arena rfl
    exact if_pos live
  have size : ∀ arena : Arena, arena.view = seen → arena.elementSize = seen.ledger.elementSize := by
    rintro arena rfl
    rfl
  unfold copyRange
  apply (Action.yields_read _ (live sourceLive)).quietly
  apply (Action.yields_read _ (live targetLive)).quietly
  apply (Action.yields_view _ size).quietly
  rw [if_neg outside]
  exact Action.ends_fail _

/-- A request that faults leaves everything as it was. -/
theorem ends_serve_of_fault (sound : seen.ledger.Sound)
    (faults : request.fault? seen.ledger.live seen.ledger.elementSize = some fault) :
    Action.Ends view (serve request) seen (.error fault) seen {} := by
  have size : ∀ arena : Arena, arena.view = seen → arena.elementSize = seen.ledger.elementSize := by
    rintro arena rfl
    rfl
  have cases := Request.fault?_eq_some faults
  cases request with
  | allocate => simp [Request.slots, Request.fits] at cases
  | free => simp [Request.slots, Request.fits] at cases
  | read slot start stop =>
      apply Action.Ends.breaking
      apply ends_read_of_check
      exact check_faults sound rfl rfl rfl faults
  | write slot start data =>
      apply Action.Ends.breaking
      apply ends_write_of_check
      exact check_faults sound rfl (by simp [Request.fits]) rfl faults
  | copySlot source target =>
      rcases cases with ⟨slot, first, rfl⟩ | ⟨_, fits, _⟩
      · apply Action.Ends.breaking
        unfold copySlot
        apply (Action.yields_view _ size).quietly
        exact ends_copyRange_dead first
      · cases fits
  | copyRange source target start stop =>
      apply Action.Ends.breaking
      rcases cases with ⟨slot, first, rfl⟩ | ⟨live, fits, rfl⟩
      · exact ends_copyRange_dead first
      · apply ends_copyRange_outside
        · exact live source (by simp [Request.slots])
        · exact live target (by simp [Request.slots])
        · simpa [Request.fits] using fits

/-! ## Requests that are carried out -/

/-- A request that does not fault is carried out in one of the ways listed. -/
theorem exists_serves (sound : seen.ledger.Sound)
    (sane : request.fault? seen.ledger.live seen.ledger.elementSize = none) :
    ∃ reply later log, Serves seen request reply later log ∧
      Action.Yields view (serve request) seen reply later log := by
  obtain ⟨live, fits⟩ := Request.fault?_eq_none_iff.mp sane
  cases request with
  | allocate =>
      by_cases full : seen.ledger.live = seen.ledger.capacity
      · exact ⟨_, _, _, .full full, (yields_allocate_full full).concluding (Action.yields_pure _ _)⟩
      · have room : seen.ledger.live < seen.ledger.capacity :=
          Nat.lt_of_le_of_ne sound.live_le full
        cases told : seen.ledger.commitRefusal? with
        | none =>
            exact ⟨_, _, _, .allocated room told,
              (yields_allocate sound room told).concluding (Action.yields_pure _ _)⟩
        | some error =>
            exact ⟨_, _, _, .refused room told,
              (yields_allocate_refused sound room told).concluding (Action.yields_pure _ _)⟩
  | free =>
      by_cases unused : seen.ledger.live = 0
      · exact ⟨_, _, _, .empty unused, (yields_free_empty unused).concluding
          (Action.yields_pure _ _)⟩
      · exact ⟨_, _, _, .freed unused,
          (yields_free sound unused).concluding (Action.yields_pure _ _)⟩
  | read slot start stop =>
      have here : slot < seen.ledger.live := live slot (by simp [Request.slots])
      obtain ⟨ordered, inside⟩ : start ≤ stop ∧ stop ≤ seen.ledger.elementSize := by
        simpa [Request.fits] using fits
      refine ⟨_, _, _, .read here ordered inside, ?_⟩
      refine (Action.yields_read _ ?_).concluding (Action.yields_pure _ _)
      rintro arena rfl
      exact read_eq_ok sound here ordered inside
  | write slot start data =>
      have here : slot < seen.ledger.live := live slot (by simp [Request.slots])
      have inside : start + data.length ≤ seen.ledger.elementSize := of_decide_eq_true fits
      exact ⟨_, _, _, .written here inside, (yields_write sound here inside).answering _⟩
  | copySlot source target =>
      have from_ : source < seen.ledger.live := live source (by simp [Request.slots])
      have to_ : target < seen.ledger.live := live target (by simp [Request.slots])
      exact ⟨_, _, _, .copiedSlot from_ to_, (yields_copySlot sound from_ to_).answering _⟩
  | copyRange source target start stop =>
      have from_ : source < seen.ledger.live := live source (by simp [Request.slots])
      have to_ : target < seen.ledger.live := live target (by simp [Request.slots])
      obtain ⟨ordered, inside⟩ : start ≤ stop ∧ stop ≤ seen.ledger.elementSize := by
        simpa [Request.fits] using fits
      exact ⟨_, _, _, .copiedRange from_ to_ ordered inside,
        (yields_copyRange sound from_ to_ ordered inside).answering _⟩

/-- A request that is carried out does not fault. -/
theorem Serves.sane (serves : Serves seen request reply later log) :
    request.fault? seen.ledger.live seen.ledger.elementSize = none := by
  rw [Request.fault?_eq_none_iff]
  cases serves with
  | allocated | refused | full | freed | empty => simp [Request.slots, Request.fits]
  | read live ordered inside => simp [Request.slots, Request.fits, live, ordered, inside]
  | written live inside => simp [Request.slots, Request.fits, live, inside]
  | copiedSlot sourceLive targetLive =>
      simp [Request.slots, Request.fits, sourceLive, targetLive]
  | copiedRange sourceLive targetLive ordered inside =>
      simp [Request.slots, Request.fits, sourceLive, targetLive, ordered, inside]

/-! ## Runs -/

/-- What is seen after requests are made one after the other, up to the first that faults. -/
inductive Runs : View → List Request → Except Fault (List Reply) → View → Journal → Prop
  | nil {seen : View} : Runs seen [] (.ok []) seen {}
  | cons {seen middle later : View} {request : Request} {rest : List Request} {reply : Reply}
      {result : Except Fault (List Reply)} {log restLog : Journal}
      (serves : Serves seen request reply middle log)
      (runs : Runs middle rest result later restLog) :
      Runs seen (request :: rest) (result.map (reply :: ·)) later (log ++ restLog)
  | fault {seen : View} {request : Request} {rest : List Request} {fault : Fault}
      (faults : request.fault? seen.ledger.live seen.ledger.elementSize = some fault) :
      Runs seen (request :: rest) (.error fault) seen {}

/-- Any requests to an arena in order lead somewhere. -/
theorem exists_runs (sound : seen.ledger.Sound) (requests : List Request) :
    ∃ result later log, Runs seen requests result later log ∧
      Action.Ends view (serveAll requests) seen result later log := by
  induction requests generalizing seen with
  | nil => exact ⟨_, _, _, .nil, (Action.yields_pure [] seen).ends⟩
  | cons request rest inductionHypothesis =>
      cases sane : request.fault? seen.ledger.live seen.ledger.elementSize with
      | some fault => exact ⟨_, _, _, .fault sane, (ends_serve_of_fault sound sane).breaking⟩
      | none =>
          obtain ⟨reply, middle, log, serves, yields⟩ := exists_serves sound sane
          obtain ⟨result, later, restLog, runs, ends⟩ := inductionHypothesis (serves.sound sound)
          exact ⟨_, _, _, .cons serves runs, yields.onward (ends.mapping _)⟩

/-- Requests keep the numbers in order. -/
theorem Runs.sound {requests : List Request} {result : Except Fault (List Reply)}
    (runs : Runs seen requests result later log) (sound : seen.ledger.Sound) :
    later.ledger.Sound := by
  induction runs with
  | nil => exact sound
  | cons serves _ inductionHypothesis => exact inductionHypothesis (serves.sound sound)
  | fault => exact sound

/-- The numbers of an arena that are settled when it is made. -/
def Ledger.layout (ledger : Ledger) : Host × Nat × Nat × Nat × Bool :=
  (ledger.host, ledger.size, ledger.elementSize, ledger.capacity, ledger.preallocated)

theorem Ledger.eq_of_layout {later seen : Ledger} (same : later.layout = seen.layout) :
    later.host = seen.host ∧ later.size = seen.size ∧ later.elementSize = seen.elementSize ∧
      later.capacity = seen.capacity ∧ later.preallocated = seen.preallocated := by
  simpa only [layout, Prod.mk.injEq] using same

/-- No request changes how an arena is laid out, nor the host that it asks. -/
theorem Serves.layout_eq (serves : Serves seen request reply later log) :
    later.ledger.layout = seen.ledger.layout := by
  cases serves <;> rfl

theorem Serves.host_eq (serves : Serves seen request reply later log) :
    later.ledger.host = seen.ledger.host :=
  (Ledger.eq_of_layout serves.layout_eq).1

/-- No requests change how an arena is laid out. -/
theorem Runs.layout_eq {requests : List Request} {result : Except Fault (List Reply)}
    (runs : Runs seen requests result later log) :
    later.ledger.layout = seen.ledger.layout := by
  induction runs with
  | nil | fault => rfl
  | cons serves _ inductionHypothesis => exact inductionHypothesis.trans serves.layout_eq

end SlabTree.Arena
