import SlabTree.Proofs.Arena.View

/-!
# Operations of an arena, seen from outside

Copying, taking a slot and freeing the last one, each as a change of the view.
The pages that an operation commits or gives back are in its log, in order; so is
the page that the host does not take back.  A page that the host does not commit
is told in the answer.
-/

namespace SlabTree.Arena

variable {arena : Arena} {seen : View}

/-! ## Copying -/

theorem View.copy_self (slot start stop : Nat) : seen.copy slot slot start stop = seen := by
  apply View.ext
  · funext other i
    simp only [View.copy]
    split
    next here => rw [here.1]
    · rfl
  · rfl

theorem View.copy_empty (source target start : Nat) :
    seen.copy source target start start = seen := by
  apply View.ext
  · funext other i
    simp only [View.copy]
    split
    next here => exact absurd here.2.2 (Nat.not_lt_of_le here.2.1)
    · rfl
  · rfl

/-- A copy writes what it reads. -/
theorem View.write_slice (source target start stop : Nat) :
    seen.write target start (seen.slice source start stop) =
      seen.copy source target start stop := by
  apply View.ext
  · funext other i
    simp only [View.write, View.copy, View.slice, List.getElem?_map]
    by_cases here : other = target ∧ start ≤ i
    · by_cases short : i < stop
      · have place : start + (i - start) = i := by omega
        rw [if_pos here, if_pos ⟨here.1, here.2, short⟩, List.getElem?_range (by omega)]
        simp [place]
      · rw [if_pos here, if_neg (fun all => short all.2.2), List.getElem?_eq_none (by simp; omega)]
        rfl
    · rw [if_neg here, if_neg (fun all => here ⟨all.1, all.2.1⟩)]
  · rfl

theorem yields_copyRange (sound : seen.ledger.Sound) {source target : Slot} {start stop : Nat}
    (sourceLive : source < seen.ledger.live) (targetLive : target < seen.ledger.live)
    (ordered : start ≤ stop) (inside : stop ≤ seen.ledger.elementSize) :
    Action.Yields view (copyRange source target start stop) seen ()
      (seen.copy source target start stop) {} := by
  unfold copyRange
  have liveSlot : ∀ {slot : Slot}, slot < seen.ledger.live →
      ∀ arena : Arena, arena.view = seen → arena.checkLive slot = .ok () := by
    rintro slot live arena rfl
    exact if_pos live
  refine (Action.yields_read _ (liveSlot sourceLive)).silently ?_
  refine (Action.yields_read _ (liveSlot targetLive)).silently ?_
  refine (Action.yields_view seen.ledger.elementSize ?_).silently ?_
  · rintro arena rfl
    rfl
  rw [if_pos ⟨ordered, inside⟩]
  split
  next trivial =>
    have same : seen.copy source target start stop = seen := by
      rcases trivial with rfl | rfl
      · exact View.copy_self source start stop
      · exact View.copy_empty source target start
    rw [same]
    exact Action.yields_pure () seen
  next =>
    have short : start + (stop - start) ≤ seen.ledger.elementSize := by omega
    refine (Action.yields_read (source * seen.ledger.elementSize + start) ?_).silently ?_
    · rintro arena rfl
      exact span_eq_ok sound sourceLive short
    refine (Action.yields_read (target * seen.ledger.elementSize + start) ?_).silently ?_
    · rintro arena rfl
      exact span_eq_ok sound targetLive short
    refine (Action.yields_view (seen.slice source start stop) ?_).silently ?_
    · rintro arena rfl
      exact peek_eq_slice sourceLive inside
    · rw [← View.write_slice]
      apply Action.yields_update
      rintro arena rfl
      exact view_overwrite sound targetLive (by rw [View.length_slice]; exact short)

theorem yields_copySlot (sound : seen.ledger.Sound) {source target : Slot}
    (sourceLive : source < seen.ledger.live) (targetLive : target < seen.ledger.live) :
    Action.Yields view (copySlot source target) seen ()
      (seen.copy source target 0 seen.ledger.elementSize) {} := by
  unfold copySlot
  refine (Action.yields_view seen.ledger.elementSize ?_).silently ?_
  · rintro arena rfl
    rfl
  · exact yields_copyRange sound sourceLive targetLive (Nat.zero_le _) (Nat.le_refl _)

/-! ## Committing and releasing pages -/

/-- What is logged when `n` pages are committed behind the first `page`. -/
def commitLog : Nat → Nat → Journal
  | _, 0 => {}
  | page, n + 1 => ⟨#[.commitPage page], 0⟩ ++ commitLog (page + 1) n

/-- What is logged when the last `n` of `pages` pages are given back. -/
def releaseLog : Nat → Nat → Journal
  | _, 0 => {}
  | pages, n + 1 => ⟨#[.releasePage (pages - 1)], 0⟩ ++ releaseLog (pages - 1) n

@[simp]
theorem comparisons_commitLog (page n : Nat) : (commitLog page n).comparisons = 0 := by
  induction n generalizing page with
  | zero => rfl
  | succ n inductionHypothesis =>
      rw [commitLog, Journal.comparisons_append, inductionHypothesis]

@[simp]
theorem comparisons_releaseLog (pages n : Nat) : (releaseLog pages n).comparisons = 0 := by
  induction n generalizing pages with
  | zero => rfl
  | succ n inductionHypothesis =>
      rw [releaseLog, Journal.comparisons_append, inductionHypothesis]

/-- What is logged when the host does not take page `page` back, if it does not. -/
def releaseWarning (page : Nat) : Option HostError → Journal
  | none => {}
  | some error => ⟨#[.releasePageFailed page error], 0⟩

@[simp]
theorem comparisons_releaseWarning (page : Nat) (refusal : Option HostError) :
    (releaseWarning page refusal).comparisons = 0 := by
  cases refusal <;> rfl

/-- The arena with a page more. -/
def addPage (arena : Arena) : Arena :=
  { arena with
    region := arena.region.commitPage
    pageCommits := arena.pageCommits + 1 }

/-- The arena with its last page given back. -/
def dropPage (arena : Arena) : Arena :=
  { arena with
    region := arena.region.releasePage
    pageReleases := arena.pageReleases + 1 }

/-- The arena once the host has refused a request. -/
def askInVain (arena : Arena) : Arena :=
  { arena with region := arena.region.refused }

/-- The arena after the host was asked for `n` pages more, one by one. -/
def addPages (arena : Arena) : Nat → Arena
  | 0 => arena
  | n + 1 =>
    match arena.region.commitError with
    | some _ => arena.askInVain
    | none => arena.addPage.addPages n

/-- The arena after the host was asked to take its last `n` pages back, one by one. -/
def dropPages (arena : Arena) : Nat → Arena
  | 0 => arena
  | n + 1 =>
    match arena.region.releaseError with
    | some _ => arena.askInVain
    | none => arena.dropPage.dropPages n

@[simp]
theorem committedPages_addPage :
    arena.addPage.region.committedPages = arena.region.committedPages + 1 :=
  Region.committedPages_commitPage

@[simp]
theorem committedPages_dropPage :
    arena.dropPage.region.committedPages = arena.region.committedPages - 1 :=
  Region.committedPages_releasePage

/-- A page of the region may be asked for. -/
theorem checkPage_eq_ok {page : Nat} (word : arena.region.size < Words.limit)
    (inside : (page + 1) * arena.pageSize ≤ arena.region.size) :
    arena.checkPage page = .ok () ∧ Words.fitted (page + 1) = .ok (page + 1) := by
  have positive : 0 < arena.pageSize := arena.region.host.pageSize_pos
  have counted : page + 1 ≤ (page + 1) * arena.pageSize := Nat.le_mul_of_pos_right _ positive
  have place : page * arena.pageSize + arena.pageSize ≤ arena.region.size :=
    Nat.succ_mul page _ ▸ inside
  have fits : Words.fitted (page * arena.pageSize) = .ok (page * arena.pageSize) :=
    Words.fitted_eq_ok (by omega)
  refine ⟨?_, Words.fitted_eq_ok (by omega)⟩
  simp only [checkPage, fits, Region.checkInside, Bind.bind, Except.bind]
  rw [if_neg (by omega)]

section Asking

variable {n : Nat} (journal : Journal)

theorem commitPage_run (word : arena.region.size < Words.limit)
    (room : (arena.region.committedPages + 1) * arena.pageSize ≤ arena.region.size) :
    commitPage ⟨arena, journal⟩ =
      match arena.region.commitError with
      | some error => .ok (.error (.host error)) ⟨arena.askInVain, journal⟩
      | none => .ok (.ok ()) ⟨arena.addPage,
          journal ++ (⟨#[.commitPage arena.region.committedPages], 0⟩ : Journal)⟩ := by
  obtain ⟨allowed, counted⟩ := checkPage_eq_ok word room
  unfold commitPage
  refine (Action.bind_run rfl).trans ?_
  refine (Action.read_bind_run allowed).trans ?_
  cases answer : arena.region.commitError with
  | some error =>
      exact (Action.view_bind_run answer).trans rfl
  | none =>
      refine (Action.view_bind_run answer).trans ?_
      simp [Action.read, Action.log, Action.update, Bind.bind, EStateM.bind, counted,
        Journal.append_eq, addPage, Pure.pure, EStateM.pure]

theorem commitPages_run (word : arena.region.size < Words.limit)
    (room : (arena.region.committedPages + n) * arena.pageSize ≤ arena.region.size) :
    commitPages n ⟨arena, journal⟩ =
      .ok (match Host.refusal? arena.region.host.commitError arena.region.asked n with
        | some error => .error (.host error)
        | none => .ok ())
        ⟨arena.addPages n, journal ++ commitLog arena.region.committedPages
          (Host.granted arena.region.host.commitError arena.region.asked n)⟩ := by
  induction n generalizing arena journal with
  | zero =>
      simp [commitPages, addPages, Host.refusal?, Host.granted, commitLog, Pure.pure, EStateM.pure]
  | succ n inductionHypothesis =>
      have fits : (arena.region.committedPages + 1) * arena.pageSize ≤ arena.region.size :=
        Nat.le_trans (Nat.mul_le_mul_right _ (by omega)) room
      have one := commitPage_run journal word fits
      unfold commitPages Host.refusal? Host.granted addPages
      unfold Region.commitError at one ⊢
      cases refused : arena.region.host.commitError arena.region.asked with
      | some error =>
          rw [refused] at one
          refine (Action.bind_run one).trans ?_
          simp [commitLog, Pure.pure, EStateM.pure]
      | none =>
          rw [refused] at one
          have later : (arena.addPage.region.committedPages + n) * arena.addPage.pageSize ≤
              arena.addPage.region.size := by
            rw [committedPages_addPage, Nat.add_assoc, Nat.add_comm 1 n]
            exact room
          have rest := @inductionHypothesis arena.addPage
            (journal ++ (⟨#[.commitPage arena.region.committedPages], 0⟩ : Journal)) word later
          rw [committedPages_addPage, Journal.append_assoc] at rest
          exact (Action.bind_run one).trans rest

theorem releasePage_run (word : arena.region.size < Words.limit)
    (nonempty : arena.region.committedPages ≠ 0)
    (inside : arena.region.committed ≤ arena.region.size) :
    releasePage ⟨arena, journal⟩ =
      match arena.region.releaseError with
      | some error => .ok false ⟨arena.askInVain, journal ++
          (⟨#[.releasePageFailed (arena.region.committedPages - 1) error], 0⟩ : Journal)⟩
      | none => .ok true ⟨arena.dropPage,
          journal ++ (⟨#[.releasePage (arena.region.committedPages - 1)], 0⟩ : Journal)⟩ := by
  have last : arena.region.committedPages - 1 + 1 = arena.region.committedPages := by omega
  obtain ⟨allowed, _⟩ := @checkPage_eq_ok arena (arena.region.committedPages - 1) word
    (by rw [last]; exact inside)
  unfold releasePage
  refine (Action.bind_run rfl).trans ?_
  refine (Action.read_bind_run allowed).trans ?_
  cases answer : arena.region.releaseError with
  | some error =>
      refine (Action.view_bind_run answer).trans ?_
      simp [Action.log, Action.update, Bind.bind, EStateM.bind, Journal.append_eq, askInVain,
        mapRegion, Pure.pure, EStateM.pure]
  | none =>
      refine (Action.view_bind_run answer).trans ?_
      simp [Action.log, Action.update, Bind.bind, EStateM.bind, Journal.append_eq, dropPage,
        Pure.pure, EStateM.pure]

theorem releasePages_run (word : arena.region.size < Words.limit)
    (enough : n ≤ arena.region.committedPages)
    (inside : arena.region.committed ≤ arena.region.size) :
    releasePages n ⟨arena, journal⟩ =
      .ok () ⟨arena.dropPages n, journal ++
        (releaseLog arena.region.committedPages
            (Host.granted arena.region.host.releaseError arena.region.asked n) ++
          releaseWarning (arena.region.committedPages - 1 -
              Host.granted arena.region.host.releaseError arena.region.asked n)
            (Host.refusal? arena.region.host.releaseError arena.region.asked n))⟩ := by
  induction n generalizing arena journal with
  | zero =>
      simp [releasePages, dropPages, Host.refusal?, Host.granted, releaseLog, releaseWarning,
        Pure.pure, EStateM.pure]
  | succ n inductionHypothesis =>
      have one := releasePage_run journal word (by omega) inside
      unfold releasePages Host.refusal? Host.granted dropPages
      unfold Region.releaseError at one ⊢
      cases refused : arena.region.host.releaseError arena.region.asked with
      | some error =>
          rw [refused] at one
          refine (Action.bind_run one).trans ?_
          simp [releaseLog, releaseWarning, Pure.pure, EStateM.pure]
      | none =>
          rw [refused] at one
          have fewer : n ≤ arena.dropPage.region.committedPages := by
            rw [committedPages_dropPage]
            omega
          have still : arena.dropPage.region.committed ≤ arena.dropPage.region.size := by
            refine Nat.le_trans ?_ inside
            rw [Region.committed, committedPages_dropPage]
            exact Nat.mul_le_mul_right _ (Nat.sub_le _ 1)
          have rest := @inductionHypothesis arena.dropPage
            (journal ++ (⟨#[.releasePage (arena.region.committedPages - 1)], 0⟩ : Journal)) word
            fewer still
          rw [committedPages_dropPage, Journal.append_assoc, ← Journal.append_assoc
            (⟨#[.releasePage (arena.region.committedPages - 1)], 0⟩ : Journal)] at rest
          refine (Action.bind_run one).trans (rest.trans ?_)
          rw [releaseLog, Nat.sub_sub _ 1 1, Nat.sub_sub, Nat.sub_sub, Nat.add_assoc 1 1,
            Nat.add_comm 1 (Host.granted _ _ _)]
          rfl

end Asking

theorem ledger_addPages (n : Nat) :
    (arena.addPages n).ledger =
      { arena.ledger with
        committedPages := arena.ledger.committedPages +
          Host.granted arena.ledger.host.commitError arena.ledger.asked n
        pageCommits := arena.ledger.pageCommits +
          UInt64.ofNat (Host.granted arena.ledger.host.commitError arena.ledger.asked n)
        asked := arena.ledger.asked +
          Host.requested arena.ledger.host.commitError arena.ledger.asked n } := by
  induction n generalizing arena with
  | zero => simp [addPages, Host.granted, Host.requested]
  | succ n inductionHypothesis =>
      unfold addPages Host.requested Host.granted Region.commitError
      cases refused : arena.ledger.host.commitError arena.ledger.asked with
      | some error =>
          have here : arena.region.host.commitError arena.region.asked = some error := refused
          simp only [here]
          simp [ledger, askInVain, Region.refused, Region.committedPages]
      | none =>
          have here : arena.region.host.commitError arena.region.asked = none := refused
          simp only [here]
          rw [inductionHypothesis]
          simp [ledger, addPage, Region.commitPage, Region.committedPages, Host.requested,
            UInt64.ofNat_add]
          refine ⟨?_, ?_, ?_⟩
          · rw [Nat.add_assoc, Nat.add_comm 1]
          · rw [UInt64.add_assoc, UInt64.add_comm 1]
          · rw [Nat.add_assoc, Nat.add_comm 1]

@[simp]
theorem ledger_dropPages (n : Nat) :
    (arena.dropPages n).ledger =
      { arena.ledger with
        committedPages := arena.ledger.committedPages -
          Host.granted arena.ledger.host.releaseError arena.ledger.asked n
        pageReleases := arena.ledger.pageReleases +
          UInt64.ofNat (Host.granted arena.ledger.host.releaseError arena.ledger.asked n)
        asked := arena.ledger.asked +
          Host.requested arena.ledger.host.releaseError arena.ledger.asked n } := by
  induction n generalizing arena with
  | zero => simp [dropPages, Host.granted, Host.requested]
  | succ n inductionHypothesis =>
      unfold dropPages Host.requested Host.granted Region.releaseError
      cases refused : arena.ledger.host.releaseError arena.ledger.asked with
      | some error =>
          have here : arena.region.host.releaseError arena.region.asked = some error := refused
          simp only [here]
          simp [ledger, askInVain, Region.refused, Region.committedPages]
      | none =>
          have here : arena.region.host.releaseError arena.region.asked = none := refused
          simp only [here]
          rw [inductionHypothesis]
          simp [ledger, dropPage, Region.releasePage, Region.committedPages, Host.requested,
            UInt64.ofNat_add]
          refine ⟨?_, ?_, ?_⟩
          · rw [Nat.sub_sub, Nat.add_comm 1]
          · rw [UInt64.add_assoc, UInt64.add_comm 1]
          · rw [Nat.add_assoc, Nat.add_comm 1]

/-- Further pages leave the committed bytes alone. -/
theorem byte_addPages (arena : Arena) (n : Nat) {i : Nat} (committed : i < arena.region.committed) :
    (arena.addPages n).region.byte i = arena.region.byte i := by
  induction n generalizing arena with
  | zero => rfl
  | succ n inductionHypothesis =>
      unfold addPages
      split
      · exact Region.byte_refused arena.region i
      · have grown : i < arena.addPage.region.committed := by
          rw [Region.committed, committedPages_addPage, Nat.succ_mul]
          exact Nat.lt_add_right _ committed
        rw [inductionHypothesis arena.addPage grown]
        exact Region.byte_commitPage arena.region committed

/-- Giving pages back leaves the bytes of the others alone. -/
theorem byte_dropPages (arena : Arena) (n : Nat) {i : Nat}
    (kept : i < (arena.region.committedPages -
      Host.granted arena.region.host.releaseError arena.region.asked n) *
        arena.region.host.pageSize) :
    (arena.dropPages n).region.byte i = arena.region.byte i := by
  induction n generalizing arena with
  | zero => rfl
  | succ n inductionHypothesis =>
      unfold Host.granted at kept
      unfold dropPages Region.releaseError
      cases refused : arena.region.host.releaseError arena.region.asked with
      | some error => exact Region.byte_refused arena.region i
      | none =>
          simp only [refused] at kept
          have rest : i < (arena.dropPage.region.committedPages -
              Host.granted arena.dropPage.region.host.releaseError arena.dropPage.region.asked n) *
                arena.dropPage.region.host.pageSize := by
            rw [committedPages_dropPage, Nat.sub_sub, Nat.add_comm 1]
            exact kept
          have here : i < (arena.region.committedPages - 1) * arena.region.host.pageSize :=
            Nat.lt_of_lt_of_le kept (Nat.mul_le_mul_right _ (by omega))
          exact (inductionHypothesis arena.dropPage rest).trans
            (Region.byte_releasePage arena.region here)

/-! ## Taking a slot and giving one back -/

/-- The arena with another number of live slots. -/
def withLive (arena : Arena) (live : Nat) : Arena :=
  { arena with live := live }

/-- The arena with one more live slot and the pages for it, before the slot is
zeroed. -/
def grow (arena : Arena) : Arena :=
  (arena.addPages arena.ledger.missingPages).withLive (arena.live + 1)

/-- The arena without its last slot and the pages that only this slot reached. -/
def shrink (arena : Arena) : Arena :=
  (arena.withLive (arena.live - 1)).dropPages arena.ledger.surplusPages

/-- What is logged when the last slot is freed: the pages given back, and the one that the host
does not take, if there is one. -/
def freeLog (ledger : Ledger) : Journal :=
  releaseLog ledger.committedPages ledger.oldPages ++
    releaseWarning (ledger.committedPages - 1 - ledger.oldPages) ledger.releaseRefusal?

@[simp]
theorem comparisons_freeLog (ledger : Ledger) : (freeLog ledger).comparisons = 0 := by
  rw [freeLog, Journal.comparisons_append, comparisons_releaseLog, comparisons_releaseWarning]

theorem ledger_addPages_missing (arena : Arena) :
    (arena.addPages arena.ledger.missingPages).ledger = arena.ledger.commit :=
  ledger_addPages _

@[simp]
theorem ledger_grow (arena : Arena) : arena.grow.ledger = arena.ledger.allocate := by
  change { (arena.addPages arena.ledger.missingPages).ledger with live := arena.live + 1 } = _
  rw [ledger_addPages_missing]
  rfl

@[simp]
theorem ledger_shrink : arena.shrink.ledger = arena.ledger.free := by
  rw [shrink, ledger_dropPages]
  rfl

/-- The pages for slots that the region has room for can be counted. -/
theorem pagesNeeded_eq_ok (sound : arena.ledger.Sound) {slots : Nat}
    (room : slots ≤ arena.capacity) : arena.pagesNeeded slots = .ok (arena.ledger.pages slots) := by
  have positive : 0 < arena.pageSize := arena.region.host.pageSize_pos
  have reserved : arena.ledger.pages slots * arena.pageSize ≤ arena.region.size := by
    rw [show arena.region.size = _ from sound.size_eq]
    exact Nat.mul_le_mul_right _ (arena.ledger.pages_mono room)
  have bytes : slots * arena.elementSize ≤ arena.region.size :=
    Nat.le_trans (arena.ledger.slots_le_pages slots) reserved
  have pages : arena.ledger.pages slots ≤ arena.region.size :=
    Nat.le_trans (Nat.le_mul_of_pos_right _ positive) reserved
  simp only [pagesNeeded, fitted_of_le_size sound bytes, Bind.bind, Except.bind]
  exact fitted_of_le_size sound pages

/-- The number of a slot that the region has room for is a word. -/
theorem fitted_slots (sound : arena.ledger.Sound) {slots : Nat} (room : slots ≤ arena.capacity) :
    Words.fitted slots = .ok slots := by
  have bytes : slots * arena.elementSize ≤ arena.region.size := by
    rw [show arena.region.size = _ from sound.size_eq]
    exact Nat.le_trans (arena.ledger.slots_le_pages slots)
      (Nat.mul_le_mul_right _ (arena.ledger.pages_mono room))
  exact fitted_of_le_size sound
    (Nat.le_trans (Nat.le_mul_of_pos_right _ sound.elementSize_pos) bytes)

/-- An arena with room asks for the missing pages, and goes on if they are all backed. -/
theorem allocate_bind_run (sound : arena.ledger.Sound) (room : arena.live < arena.capacity)
    (journal : Journal) :
    allocate ⟨arena, journal⟩ =
      (match arena.ledger.commitRefusal? with
      | some error => pure (.error (.host error))
      | none => do
          setLive (arena.live + 1)
          fill arena.live 0
          pure (.ok arena.live) : Action Arena (Except Refusal Slot))
        ⟨arena.addPages arena.ledger.missingPages,
          journal ++ commitLog arena.ledger.committedPages arena.ledger.newPages⟩ := by
  have notFull : arena.live ≠ arena.capacity := Nat.ne_of_lt room
  have counted : Words.fitted (arena.live + 1) = .ok (arena.live + 1) := fitted_slots sound room
  have needed := @pagesNeeded_eq_ok arena sound (arena.live + 1) room
  have committed : commitPages arena.ledger.missingPages ⟨arena, journal⟩ =
      .ok (match arena.ledger.commitRefusal? with
        | some error => .error (.host error)
        | none => .ok ())
        ⟨arena.addPages arena.ledger.missingPages,
          journal ++ commitLog arena.ledger.committedPages arena.ledger.newPages⟩ :=
    commitPages_run journal sound.size_lt
      (Nat.le_trans (Nat.mul_le_mul_right _ (sound.missing_le room))
        (Nat.le_of_eq sound.size_eq.symm))
  unfold allocate
  refine (Action.bind_run rfl).trans ?_
  refine (Action.bind_run rfl).trans ?_
  rw [if_neg notFull]
  refine (Action.read_bind_run counted).trans ?_
  refine (Action.read_bind_run needed).trans ?_
  refine (Action.bind_run rfl).trans ?_
  cases told : arena.ledger.commitRefusal? with
  | some error =>
      rw [told] at committed
      exact Action.bind_run committed
  | none =>
      rw [told] at committed
      exact Action.bind_run committed

theorem allocate_run (sound : arena.ledger.Sound) (room : arena.live < arena.capacity)
    (granted : arena.ledger.commitRefusal? = none) (journal : Journal) :
    allocate ⟨arena, journal⟩ =
      .ok (.ok arena.live)
        ⟨arena.grow.overwrite arena.live 0 (List.replicate arena.elementSize 0),
          journal ++ commitLog arena.ledger.committedPages arena.ledger.newPages⟩ := by
  have grown : arena.grow.ledger.Sound := ledger_grow arena ▸ sound.allocate room granted
  have sameSize : arena.grow.elementSize = arena.elementSize :=
    congrArg Ledger.elementSize (ledger_grow arena)
  have zeroed := @write_run arena.grow grown arena.live 0 (List.replicate arena.elementSize 0)
    (Nat.lt_succ_self arena.live) (by rw [List.length_replicate, sameSize]; omega)
    (journal ++ commitLog arena.ledger.committedPages arena.ledger.newPages)
  rw [allocate_bind_run sound room, granted]
  refine (Action.bind_run rfl).trans ?_
  refine (@Action.bind_run _ _ _ _ _ () _ _ ?_).trans rfl
  refine (@Action.bind_run _ _ _ _ _ arena.elementSize _ _ ?_).trans zeroed
  exact congrArg (fun size => EStateM.Result.ok size _) sameSize

@[simp]
theorem elementSize_grow : arena.grow.elementSize = arena.elementSize :=
  congrArg Ledger.elementSize (ledger_grow arena)

@[simp]
theorem elementSize_shrink : arena.shrink.elementSize = arena.elementSize :=
  congrArg Ledger.elementSize ledger_shrink

@[simp]
theorem live_shrink : arena.shrink.live = arena.live - 1 :=
  congrArg Ledger.live ledger_shrink

/-- Further pages leave the bytes of the live slots alone. -/
theorem byte_live_addPages (sound : arena.ledger.Sound) {slot : Slot} {i n : Nat}
    (live : slot < arena.live) (inside : i < arena.elementSize) :
    (arena.addPages n).region.byte (arena.offset slot + i) =
      arena.region.byte (arena.offset slot + i) := by
  have committed : arena.offset slot + arena.elementSize ≤ arena.region.committed :=
    sound.slot_committed live
  exact byte_addPages arena n (Nat.lt_of_lt_of_le (Nat.add_lt_add_left inside _) committed)

/-- Asking for pages shows in the ledger alone. -/
theorem view_addPages (sound : arena.ledger.Sound) :
    (arena.addPages arena.ledger.missingPages).view = arena.view.commit := by
  have numbers := ledger_addPages_missing arena
  have sameLive : (arena.addPages arena.ledger.missingPages).live = arena.live :=
    congrArg Ledger.live numbers
  have sameSize : (arena.addPages arena.ledger.missingPages).elementSize = arena.elementSize :=
    congrArg Ledger.elementSize numbers
  apply View.ext _ numbers
  funext slot i
  simp only [view, View.commit, sameLive, sameSize, offset]
  split
  next there => exact byte_live_addPages sound there.1 there.2
  · rfl

/-- The slots that were live before keep their bytes. -/
theorem bytes_grow (sound : arena.ledger.Sound) {slot : Slot} (old : slot ≠ arena.live)
    (i : Nat) : arena.grow.view.bytes slot i = arena.view.bytes slot i := by
  have liveGrow : arena.grow.live = arena.live + 1 := rfl
  simp only [view, elementSize_grow, offset, liveGrow]
  by_cases there : slot < arena.live ∧ i < arena.elementSize
  · rw [if_pos there, if_pos ⟨Nat.lt_succ_of_lt there.1, there.2⟩]
    exact byte_live_addPages sound there.1 there.2
  · have absent : ¬ (slot < arena.live + 1 ∧ i < arena.elementSize) := by lia
    rw [if_neg there, if_neg absent]

/-- The slots that stay live keep their bytes. -/
theorem bytes_shrink (sound : arena.ledger.Sound) {slot : Slot}
    (kept : slot ≠ arena.live - 1) (i : Nat) :
    arena.shrink.view.bytes slot i = arena.view.bytes slot i := by
  simp only [view, elementSize_shrink, live_shrink, offset]
  by_cases there : slot < arena.live - 1 ∧ i < arena.elementSize
  · rw [if_pos there, if_pos ⟨by lia, there.2⟩]
    have shrunk : arena.ledger.free.Sound := sound.free
    have committed : slot * arena.elementSize + arena.elementSize ≤
        (arena.region.committedPages - arena.ledger.oldPages) * arena.pageSize :=
      shrunk.slot_committed there.1
    exact byte_dropPages (arena.withLive (arena.live - 1)) _
      (Nat.lt_of_lt_of_le (Nat.add_lt_add_left there.2 _) committed)
  · have absent : ¬ (slot < arena.live ∧ i < arena.elementSize) := by lia
    rw [if_neg there, if_neg absent]

/-- With room for one more slot and the pages for it, the next slot is handed out, and it
contains zeros. -/
theorem yields_allocate (sound : seen.ledger.Sound)
    (room : seen.ledger.live < seen.ledger.capacity)
    (granted : seen.ledger.commitRefusal? = none) :
    Action.Yields view allocate seen (.ok seen.ledger.live) seen.allocate
      (commitLog seen.ledger.committedPages seen.ledger.newPages) := by
  rintro arena journal rfl
  refine ⟨_, allocate_run sound room granted journal, ?_⟩
  have grown : arena.grow.ledger.Sound := ledger_grow arena ▸ sound.allocate room granted
  rw [view_overwrite grown (Nat.lt_succ_self arena.live)
    (by rw [List.length_replicate, elementSize_grow]; omega)]
  apply View.ext
  · funext slot i
    change (if slot = arena.live ∧ 0 ≤ i then
        ((List.replicate arena.elementSize (0 : UInt8))[i - 0]?).getD (arena.grow.view.bytes slot i)
      else arena.grow.view.bytes slot i) = arena.view.bytes slot i
    by_cases new : slot = arena.live
    · have dead : ¬ (slot < arena.live ∧ i < arena.elementSize) := by lia
      rw [if_pos ⟨new, Nat.zero_le i⟩, Nat.sub_zero, List.getElem?_replicate]
      simp only [view, elementSize_grow, dead, if_false]
      by_cases inside : i < arena.elementSize
      · simp [inside]
      · simp [inside]
    · rw [if_neg (fun both => new both.1)]
      exact bytes_grow sound new i
  · exact ledger_grow arena

/-- If the host does not back all of the pages, the arena tells why, and the slots are as they
were. -/
theorem yields_allocate_refused (sound : seen.ledger.Sound)
    (room : seen.ledger.live < seen.ledger.capacity) {error : HostError}
    (refused : seen.ledger.commitRefusal? = some error) :
    Action.Yields view allocate seen (.error (.host error)) seen.commit
      (commitLog seen.ledger.committedPages seen.ledger.newPages) := by
  rintro arena journal rfl
  have refusedHere : arena.ledger.commitRefusal? = some error := refused
  refine ⟨_, ?_, view_addPages sound⟩
  rw [allocate_bind_run sound room, refusedHere]
  rfl

/-- A full arena refuses, and nothing happens. -/
theorem yields_allocate_full (full : seen.ledger.live = seen.ledger.capacity) :
    Action.Yields view allocate seen (.error .arenaFull) seen {} := by
  unfold allocate
  refine (Action.yields_view seen.ledger.live ?_).silently ?_
  · rintro arena rfl
    rfl
  refine (Action.yields_view seen.ledger.capacity ?_).silently ?_
  · rintro arena rfl
    rfl
  rw [if_pos full]
  exact Action.yields_pure _ seen

theorem free_run (sound : arena.ledger.Sound) (used : arena.live ≠ 0) (journal : Journal) :
    free ⟨arena, journal⟩ = .ok (.ok ()) ⟨arena.shrink, journal ++ freeLog arena.ledger⟩ := by
  unfold free
  refine (Action.bind_run rfl).trans ?_
  rw [if_neg used]
  refine (Action.bind_run rfl).trans ?_
  refine (Action.bind_run rfl).trans ?_
  cases preallocated : arena.preallocated with
  | true =>
      have kept : arena.ledger.surplusPages = 0 := if_pos preallocated
      have silent : freeLog arena.ledger = {} := by
        simp [freeLog, Ledger.oldPages, Ledger.releaseRefusal?, kept, Host.granted, Host.refusal?,
          releaseLog, releaseWarning]
      rw [if_pos preallocated, silent, Journal.append_empty, shrink, kept]
      rfl
  | false =>
      have surplus : arena.ledger.surplusPages =
          arena.region.committedPages - arena.ledger.pages (arena.live - 1) := by
        simp [Ledger.surplusPages, ledger, preallocated]
      have fewer : arena.live - 1 ≤ arena.capacity :=
        Nat.le_trans (Nat.sub_le _ 1) sound.live_le
      have released := @releasePages_run (arena.withLive (arena.live - 1))
        arena.ledger.surplusPages journal sound.size_lt (by rw [surplus]; exact Nat.sub_le _ _)
        sound.committed_le
      have isLazy : ¬ arena.preallocated = true := by simp [preallocated]
      rw [if_neg isLazy]
      refine (@Action.read_bind_run _ _ _ _ _ _ ⟨arena.withLive (arena.live - 1), journal⟩
        (pagesNeeded_eq_ok sound fewer)).trans ?_
      refine (Action.bind_run rfl).trans ?_
      change (releasePages (arena.region.committedPages - arena.ledger.pages (arena.live - 1)) >>=
        fun _ => pure (Except.ok ())) ⟨arena.withLive (arena.live - 1), journal⟩ = _
      rw [← surplus]
      exact Action.bind_run released

/-- The last slot is freed, and the others are as they were. -/
theorem yields_free (sound : seen.ledger.Sound) (used : seen.ledger.live ≠ 0) :
    Action.Yields view free seen (.ok ()) seen.free (freeLog seen.ledger) := by
  rintro arena journal rfl
  refine ⟨_, free_run sound used journal, View.ext ?_ ledger_shrink⟩
  funext slot i
  change arena.shrink.view.bytes slot i =
    if slot = arena.live - 1 then 0 else arena.view.bytes slot i
  split
  next last =>
    have dead : ¬ (slot < arena.shrink.live ∧ i < arena.shrink.elementSize) := by
      rw [live_shrink, last]
      exact fun both => Nat.lt_irrefl _ both.1
    exact if_neg dead
  next other => exact bytes_shrink sound other i

/-- An arena without live slots refuses, and nothing happens. -/
theorem yields_free_empty (unused : seen.ledger.live = 0) :
    Action.Yields view free seen (.error .arenaEmpty) seen {} := by
  unfold free
  refine (Action.yields_view seen.ledger.live ?_).silently ?_
  · rintro arena rfl
    rfl
  rw [if_pos unused]
  exact Action.yields_pure _ seen

end SlabTree.Arena
