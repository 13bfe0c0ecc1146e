import Mathlib.Algebra.Order.Floor.Div
import SlabTree.Proofs.Arena.Requests

/-!
# Page accounting

What an arena reports about its memory does not depend on how it got there.  The pages that
were committed and not given back are those that are committed, and they come and go like a
stack; a page that the host does not take back is the last of them.  With a host that
refuses nothing, a lazy arena has as many pages as its live slots need.  A preallocated arena
has all pages from the start and keeps them, whatever the host is like.
-/

namespace SlabTree.Arena

/-! ## Pages that come and go like a stack -/

/-- The events lead from a number of committed pages to another: a commit backs the page behind
the committed ones, a release gives the last of them back, and the host may decline to take it. -/
inductive Stacked : Nat → List Event → Nat → Prop
  | nil (pages : Nat) : Stacked pages [] pages
  | commit {pages last : Nat} {rest : List Event} (stacked : Stacked (pages + 1) rest last) :
      Stacked pages (.commitPage pages :: rest) last
  | release {pages last : Nat} {rest : List Event} (stacked : Stacked pages rest last) :
      Stacked (pages + 1) (.releasePage pages :: rest) last
  | declined {pages last : Nat} {rest : List Event} (error : HostError)
      (stacked : Stacked (pages + 1) rest last) :
      Stacked (pages + 1) (.releasePageFailed pages error :: rest) last

theorem Stacked.append {first middle last : Nat} {events rest : List Event}
    (head : Stacked first events middle) (tail : Stacked middle rest last) :
    Stacked first (events ++ rest) last := by
  induction head with
  | nil => exact tail
  | commit _ inductionHypothesis => exact .commit (inductionHypothesis tail)
  | release _ inductionHypothesis => exact .release (inductionHypothesis tail)
  | declined error _ inductionHypothesis => exact .declined error (inductionHypothesis tail)

theorem stacked_commitLog (first n : Nat) :
    Stacked first (commitLog first n).events.toList (first + n) := by
  induction n generalizing first with
  | zero => exact .nil first
  | succ n inductionHypothesis =>
      have rest := inductionHypothesis (first + 1)
      rw [Nat.add_assoc, Nat.add_comm 1 n] at rest
      simpa [commitLog, Journal.append_eq] using Stacked.commit rest

theorem stacked_releaseLog {pages n : Nat} (enough : n ≤ pages) :
    Stacked pages (releaseLog pages n).events.toList (pages - n) := by
  induction n generalizing pages with
  | zero => exact .nil pages
  | succ n inductionHypothesis =>
      obtain ⟨fewer, rfl⟩ := Nat.exists_eq_add_of_le' enough
      have rest := inductionHypothesis (Nat.le_add_left n fewer)
      rw [Nat.add_sub_cancel] at rest
      simpa [releaseLog, Journal.append_eq, ← Nat.add_assoc] using Stacked.release rest

/-- If the host declines to take a page back, it is the last one. -/
theorem stacked_releaseWarning (pages : Nat) {refusal : Option HostError}
    (nonempty : refusal ≠ none → pages ≠ 0) :
    Stacked pages (releaseWarning (pages - 1) refusal).events.toList pages := by
  cases refusal with
  | none => exact .nil pages
  | some error =>
      obtain ⟨last, rfl⟩ := Nat.exists_eq_succ_of_ne_zero (nonempty (by simp))
      exact .declined error (.nil _)

/-! ## Counting pages -/

/-- The number of pages that a journal says were committed. -/
def commits (log : Journal) : Nat :=
  log.events.toList.countP fun
    | .commitPage _ => true
    | _ => false

/-- The number of pages that a journal says were given back. -/
def releases (log : Journal) : Nat :=
  log.events.toList.countP fun
    | .releasePage _ => true
    | _ => false

@[simp]
theorem commits_append (first rest : Journal) :
    commits (first ++ rest) = commits first + commits rest := by
  simp [commits, Journal.append_eq]

@[simp]
theorem releases_append (first rest : Journal) :
    releases (first ++ rest) = releases first + releases rest := by
  simp [releases, Journal.append_eq]

@[simp]
theorem commits_commitLog (page n : Nat) : commits (commitLog page n) = n := by
  induction n generalizing page with
  | zero => rfl
  | succ n inductionHypothesis =>
      rw [commitLog, commits_append, inductionHypothesis, Nat.add_comm]
      rfl

@[simp]
theorem releases_commitLog (page n : Nat) : releases (commitLog page n) = 0 := by
  induction n generalizing page with
  | zero => rfl
  | succ n inductionHypothesis =>
      rw [commitLog, releases_append, inductionHypothesis]
      rfl

@[simp]
theorem commits_freeLog (ledger : Ledger) : commits (freeLog ledger) = 0 := by
  have none : ∀ pages n, commits (releaseLog pages n) = 0 := by
    intro pages n
    induction n generalizing pages with
    | zero => rfl
    | succ n inductionHypothesis =>
        rw [releaseLog, commits_append, inductionHypothesis]
        rfl
  rw [freeLog, commits_append, none]
  cases ledger.releaseRefusal? <;> rfl

@[simp]
theorem releases_freeLog (ledger : Ledger) : releases (freeLog ledger) = ledger.oldPages := by
  have all : ∀ pages n, releases (releaseLog pages n) = n := by
    intro pages n
    induction n generalizing pages with
    | zero => rfl
    | succ n inductionHypothesis =>
        rw [releaseLog, releases_append, inductionHypothesis, Nat.add_comm]
        rfl
  rw [freeLog, releases_append, all]
  cases ledger.releaseRefusal? <;> rfl

/-! ## How the numbers move -/

namespace Ledger

variable {ledger : Ledger}

/-- The pages committed and not given back are those that are committed. -/
def Balanced (ledger : Ledger) : Prop :=
  ledger.pageCommits = ledger.pageReleases + UInt64.ofNat ledger.committedPages

/-- A preallocated arena has no page to ask for. -/
theorem Sound.missingPages_eq_zero (sound : ledger.Sound)
    (room : ledger.live < ledger.capacity) (preallocated : ledger.preallocated = true) :
    ledger.missingPages = 0 := by
  rw [missingPages, sound.full preallocated, Nat.sub_eq_zero_iff_le]
  exact ledger.pages_mono room

theorem surplusPages_le : ledger.surplusPages ≤ ledger.committedPages := by
  unfold surplusPages
  split
  · exact Nat.zero_le _
  · exact Nat.sub_le _ _

/-- A page is still there when the host declines to take it back. -/
theorem oldPages_lt (declined : ledger.releaseRefusal? ≠ none) :
    ledger.oldPages < ledger.committedPages :=
  Nat.lt_of_lt_of_le (Host.granted_lt declined) surplusPages_le

/-- The pages of a preallocated arena are the region. -/
theorem Sound.committed_eq_size (sound : ledger.Sound)
    (preallocated : ledger.preallocated = true) : ledger.committed = ledger.size := by
  rw [sound.size_eq, committed, sound.full preallocated]

/-- As many pages are committed as a word can count. -/
theorem Sound.committedPages_lt (sound : ledger.Sound) :
    ledger.committedPages < Words.limit :=
  calc
    ledger.committedPages ≤ ledger.committed :=
      Nat.le_mul_of_pos_right _ ledger.host.pageSize_pos
    _ ≤ ledger.size := sound.committed_le
    _ < Words.limit := sound.size_lt

/-- What the counters say is the number of committed pages, not only up to overflow. -/
theorem Balanced.toNat_sub (balanced : ledger.Balanced) (sound : ledger.Sound) :
    (ledger.pageCommits - ledger.pageReleases).toNat = ledger.committedPages := by
  rw [balanced, UInt64.add_comm, UInt64.add_sub_cancel, UInt64.toNat_ofNat']
  exact Nat.mod_eq_of_lt sound.committedPages_lt

/-- The pages that so many slots need are their bytes, divided and rounded up. -/
theorem pages_eq_ceilDiv (ledger : Ledger) (slots : Nat) :
    ledger.pages slots = (slots * ledger.elementSize) ⌈/⌉ ledger.host.pageSize := by
  have positive := ledger.host.pageSize_pos
  rw [pages, pagesFor, Nat.ceilDiv_eq_add_pred_div, Nat.add_sub_assoc positive,
    padded_div_eq _ positive]

end Ledger

variable {seen later : View} {request : Request} {reply : Reply} {log : Journal}

/-- How the numbers of an arena may move, and what is logged on the way. -/
structure Accounts (before : Ledger) (log : Journal) (after : Ledger) : Prop where
  layout_eq : after.layout = before.layout
  balanced : before.Balanced → after.Balanced
  commits_eq : after.pageCommits = before.pageCommits + UInt64.ofNat (commits log)
  releases_eq : after.pageReleases = before.pageReleases + UInt64.ofNat (releases log)
  stacked : Stacked before.committedPages log.events.toList after.committedPages
  exact : before.host.Grants → before.host.TakesBack → before.Exact → after.Exact
  quiet : before.preallocated = true → log.events = #[]

namespace Accounts

variable {before middle after ledger : Ledger} {first rest : Journal}

theorem refl (ledger : Ledger) : Accounts ledger {} ledger where
  layout_eq := rfl
  balanced := id
  commits_eq := (UInt64.add_zero _).symm
  releases_eq := (UInt64.add_zero _).symm
  stacked := .nil _
  exact _ _ := id
  quiet _ := rfl

theorem host_eq (accounts : Accounts before log after) : after.host = before.host :=
  (Ledger.eq_of_layout accounts.layout_eq).1

theorem preallocated_eq (accounts : Accounts before log after) :
    after.preallocated = before.preallocated :=
  (Ledger.eq_of_layout accounts.layout_eq).2.2.2.2

theorem trans (head : Accounts before first middle) (tail : Accounts middle rest after) :
    Accounts before (first ++ rest) after where
  layout_eq := tail.layout_eq.trans head.layout_eq
  balanced := tail.balanced ∘ head.balanced
  commits_eq := by
    rw [tail.commits_eq, head.commits_eq, commits_append, UInt64.ofNat_add, UInt64.add_assoc]
  releases_eq := by
    rw [tail.releases_eq, head.releases_eq, releases_append, UInt64.ofNat_add, UInt64.add_assoc]
  stacked := by
    rw [Journal.append_eq, Array.toList_append]
    exact head.stacked.append tail.stacked
  exact grants takesBack before :=
    tail.exact (head.host_eq ▸ grants) (head.host_eq ▸ takesBack)
      (head.exact grants takesBack before)
  quiet preallocated := by
    rw [Journal.append_eq, head.quiet preallocated,
      tail.quiet (head.preallocated_eq.trans preallocated)]
    rfl

/-- What asking for the pages of one slot more does, whether or not the slot is handed out. -/
theorem asking (sound : ledger.Sound) (room : ledger.live < ledger.capacity) {live : Nat}
    (exact : ledger.host.Grants → ledger.Exact → Ledger.Exact { ledger.commit with live := live }) :
    Accounts ledger (commitLog ledger.committedPages ledger.newPages)
      { ledger.commit with live := live } where
  layout_eq := rfl
  balanced balanced := by
    change ledger.pageCommits + _ = ledger.pageReleases + UInt64.ofNat (ledger.committedPages + _)
    rw [show ledger.pageCommits = _ from balanced, UInt64.ofNat_add, UInt64.add_assoc]
  commits_eq := by
    rw [commits_commitLog]
    rfl
  releases_eq := by
    rw [releases_commitLog]
    exact (UInt64.add_zero _).symm
  stacked := stacked_commitLog _ _
  exact grants _ := exact grants
  quiet preallocated := by
    have none : ledger.newPages = 0 :=
      Nat.eq_zero_of_le_zero (sound.missingPages_eq_zero room preallocated ▸ ledger.newPages_le)
    rw [none]
    rfl

theorem free (ledger : Ledger) : Accounts ledger (freeLog ledger) ledger.free where
  layout_eq := rfl
  balanced balanced := by
    have enough : ledger.oldPages ≤ ledger.committedPages :=
      Nat.le_trans ledger.oldPages_le Ledger.surplusPages_le
    change ledger.pageCommits = ledger.pageReleases + UInt64.ofNat ledger.oldPages +
      UInt64.ofNat (ledger.committedPages - ledger.oldPages)
    rw [UInt64.add_assoc, ← UInt64.ofNat_add, Nat.add_sub_cancel' enough]
    exact balanced
  commits_eq := by
    rw [commits_freeLog]
    exact (UInt64.add_zero _).symm
  releases_eq := by
    rw [releases_freeLog]
    rfl
  stacked := by
    have enough : ledger.oldPages ≤ ledger.committedPages :=
      Nat.le_trans ledger.oldPages_le Ledger.surplusPages_le
    have warned := @stacked_releaseWarning (ledger.committedPages - ledger.oldPages)
      ledger.releaseRefusal? fun declined => Nat.sub_ne_zero_of_lt (Ledger.oldPages_lt declined)
    rw [Nat.sub_right_comm] at warned
    rw [freeLog, Journal.append_eq, Array.toList_append]
    exact (stacked_releaseLog enough).append warned
  exact _ takesBack exact := exact.free takesBack
  quiet preallocated := by
    have none : ledger.surplusPages = 0 := if_pos preallocated
    simp [freeLog, Ledger.oldPages, Ledger.releaseRefusal?, none, Host.granted, Host.refusal?,
      releaseLog, releaseWarning, Journal.append_eq]

end Accounts

/-- What a request does to the numbers. -/
theorem Serves.accounts (served : Serves seen request reply later log)
    (sound : seen.ledger.Sound) : Accounts seen.ledger log later.ledger := by
  cases served with
  | allocated room granted => exact .asking sound room fun _ exact => exact.allocate granted
  | refused room refused =>
      apply Accounts.asking sound room
      intro grants
      rw [Ledger.commitRefusal?_eq_none grants] at refused
      cases refused
  | freed used => exact .free seen.ledger
  | full | empty | read | written | copiedSlot | copiedRange => exact .refl seen.ledger

/-- What requests one after the other do to the numbers. -/
theorem Runs.accounts {requests : List Request} {result : Except Fault (List Reply)}
    (runs : Runs seen requests result later log) (sound : seen.ledger.Sound) :
    Accounts seen.ledger log later.ledger := by
  induction runs with
  | nil => exact .refl _
  | cons served _ inductionHypothesis =>
      exact (served.accounts sound).trans (inductionHypothesis (served.sound sound))
  | fault => exact .refl _

/-- Taking and freeing slots never faults. -/
theorem Runs.answers {requests : List Request} {result : Except Fault (List Reply)}
    (runs : Runs seen requests result later log)
    (resizing : ∀ request ∈ requests, request = .allocate ∨ request = .free) :
    ∃ replies, result = .ok replies := by
  induction runs with
  | nil => exact ⟨[], rfl⟩
  | cons _ _ inductionHypothesis =>
      obtain ⟨replies, rfl⟩ := inductionHypothesis fun other mem =>
        resizing other (List.mem_cons_of_mem _ mem)
      exact ⟨_, rfl⟩
  | fault faults =>
      exfalso
      rcases resizing _ List.mem_cons_self with rfl | rfl
      all_goals simp [Request.fault?, Request.slots, Request.fits] at faults

/-! ## The accounts of an arena -/

/-- A new arena has counted the pages that it was made with. -/
theorem Made.balanced {elementSize capacity : Nat} {preallocate : Bool} {host : Host}
    {made : Session Arena} (fresh : Made elementSize capacity preallocate host made) :
    made.state.ledger.Balanced := by
  change made.state.pageCommits =
    made.state.pageReleases + UInt64.ofNat made.state.region.committedPages
  rw [fresh.pageCommits_eq, fresh.pageReleases_eq, UInt64.zero_add]

/-- Whatever is requested of an arena and whatever the host refuses, the pages that it committed
and did not give back are those that are committed, never more than were reserved, and they came
and went like a stack.  If the host refuses nothing, a lazy arena has exactly those that its live
slots need, whatever happened before.  For a preallocated one nothing changes. -/
theorem accounts_of_run {elementSize capacity : Nat} {preallocate : Bool} {host : Host}
    {made : Session Arena} (created : create elementSize capacity preallocate host = .ok made)
    (requests : List Request) :
    ∃ result final log,
      serveAll requests made = Action.ending result ⟨final, made.journal ++ log⟩ ∧
      ((∀ request ∈ requests, request = .allocate ∨ request = .free) →
        ∃ replies, result = .ok replies) ∧
      (final.stats.pageCommits - final.stats.pageReleases).toNat = final.region.committedPages ∧
      final.stats.physicalBytes = final.region.committedPages * host.pageSize ∧
      final.stats.physicalBytes ≤ final.stats.virtualBytes ∧
      Stacked made.state.region.committedPages log.events.toList final.region.committedPages ∧
      (preallocate = false →
        made.state.region.committedPages = 0 ∧
        (host.Grants → host.TakesBack →
          final.region.committedPages = (final.stats.slots * elementSize) ⌈/⌉ host.pageSize)) ∧
      (preallocate = true →
        final.stats.physicalBytes = final.stats.virtualBytes ∧ log.events = #[] ∧
        final.stats.pageCommits = made.state.stats.pageCommits ∧
        final.stats.pageReleases = 0) := by
  have fresh := made_of_create created
  obtain ⟨result, seen, log, runs, ends⟩ := @exists_runs made.state.view fresh.sound requests
  obtain ⟨final, ran, rfl⟩ := ends made.state made.journal rfl
  have accounts : Accounts made.state.ledger log final.ledger := runs.accounts fresh.sound
  have sound : final.ledger.Sound := runs.sound fresh.sound
  obtain ⟨sameHost, _, sameSize, _, sameMode⟩ := Ledger.eq_of_layout accounts.layout_eq
  have host_eq : final.region.host = host := sameHost.trans fresh.host_eq
  have size_eq : final.elementSize = elementSize := sameSize.trans fresh.elementSize_eq
  have mode : final.preallocated = preallocate := sameMode.trans fresh.preallocated_eq
  refine ⟨result, final, log, ran, runs.answers, ?_, ?_, sound.committed_le, accounts.stacked,
    ?_, ?_⟩
  · exact (accounts.balanced fresh.balanced).toNat_sub sound
  · rw [← host_eq]
    rfl
  · intro onDemand
    have none : made.state.region.committedPages = 0 := by
      have exact := fresh.exact (fresh.preallocated_eq.trans onDemand)
      change made.state.region.committedPages = pagesFor _ _ made.state.live at exact
      rw [exact, fresh.live_eq, pagesFor_zero]
    refine ⟨none, ?_⟩
    intro grants takesBack
    have granting : made.state.region.host.Grants := fresh.host_eq ▸ grants
    have taking : made.state.region.host.TakesBack := fresh.host_eq ▸ takesBack
    have needed : final.region.committedPages = final.ledger.pages final.live :=
      accounts.exact granting taking fresh.exact (mode.trans onDemand)
    rw [needed, Ledger.pages_eq_ceilDiv, ← size_eq, ← host_eq]
    rfl
  · intro preallocated
    have silent := accounts.quiet (fresh.preallocated_eq.trans preallocated)
    have noCommits : commits log = 0 := by simp [commits, silent]
    have noReleases : releases log = 0 := by simp [releases, silent]
    refine ⟨sound.committed_eq_size (mode.trans preallocated), silent, ?_, ?_⟩
    · rw [show final.stats.pageCommits = _ from accounts.commits_eq, noCommits]
      exact UInt64.add_zero _
    · rw [show final.stats.pageReleases = _ from accounts.releases_eq, noReleases,
        show made.state.ledger.pageReleases = 0 from fresh.pageReleases_eq]
      rfl

/-- Two slots of five bytes reach into three pages of four.  When the second is freed the last
page goes, and the page that both reach into stays. -/
theorem accounts_of_run_straddling :
    ∃ made result final log,
      create 5 2 false { Host.plain with
        pageSize := 4, pageSize_pos := by decide, pageSize_lt := by decide } = .ok made ∧
      serveAll [.allocate, .allocate, .free] made =
        Action.ending result ⟨final, made.journal ++ log⟩ ∧
      final.stats.slots = 1 ∧ final.region.committedPages = 2 ∧
      (final.stats.pageCommits - final.stats.pageReleases).toNat = 2 ∧
      final.stats.physicalBytes = 8 ∧
      (made.journal ++ log).events = #[.reserve 5 2 12 false, .commitPage 0, .commitPage 1,
        .commitPage 2, .releasePage 2] ∧
      Stacked 0 log.events.toList 2 := by
  obtain ⟨result, final, log, ran, _, balance, bytes, _, stacked, onDemand, _⟩ :=
    @accounts_of_run 5 2 false { Host.plain with
      pageSize := 4, pageSize_pos := by decide, pageSize_lt := by decide } _ rfl
      [.allocate, .allocate, .free]
  obtain ⟨_, needed⟩ := onDemand rfl
  have pages := needed (fun _ => rfl) (fun _ => rfl)
  have last := congrArg Action.left ran
  rw [Action.left_ending] at last
  have slots : final.stats.slots = 1 := congrArg (·.state.live) last.symm
  have events := congrArg (·.journal.events) last.symm
  have two : final.region.committedPages = 2 := by
    rw [pages, slots]
    rfl
  rw [two] at balance bytes stacked
  exact ⟨_, result, final, log, rfl, ran, slots, two, balance, bytes, events, stacked⟩

end SlabTree.Arena
