import SlabTree.Arena

/-!
# What an arena knows about itself

Everything an arena keeps besides the bytes of its slots is a handful of
numbers, and the host that it asks for pages.  The numbers fit together when at
least those pages are committed that the live slots reach into, and all pages if
they were committed in advance; when the region has room for as many slots as the
arena may hold; and when a word can measure it.  From that alone every live slot
lies in committed memory, whatever the host refuses.  If it refuses nothing, the
committed pages are exactly those that the live slots reach into.
-/

namespace SlabTree

/-! ## Division upwards -/

namespace Words

/-- A quotient rounded up is the least number whose multiple is large enough. -/
theorem divCeil_le_iff {a b c : Nat} (positive : 0 < b) : divCeil a b ≤ c ↔ a ≤ c * b := by
  have divided := Nat.div_add_mod a b
  have remainder := Nat.mod_lt a positive
  rw [Nat.mul_comm b] at divided
  unfold divCeil
  split
  next exact =>
    rw [exact, Nat.add_zero] at divided
    constructor
    · intro le
      calc
        a = a / b * b := divided.symm
        _ ≤ c * b := Nat.mul_le_mul_right b le
    · intro le
      exact Nat.le_of_mul_le_mul_right (Nat.le_trans (Nat.le_of_eq divided) le) positive
  next inexact =>
    rw [Nat.succ_le_iff, Nat.div_lt_iff_lt_mul positive]
    constructor
    · exact Nat.le_of_lt
    · intro le
      refine Nat.lt_of_le_of_ne le ?_
      rintro rfl
      exact inexact (Nat.mul_mod_left c b)

theorem le_divCeil_mul (a : Nat) {b : Nat} (positive : 0 < b) : a ≤ divCeil a b * b :=
  (divCeil_le_iff positive).mp (Nat.le_refl _)

theorem divCeil_mono {a a' b : Nat} (positive : 0 < b) (le : a ≤ a') :
    divCeil a b ≤ divCeil a' b :=
  (divCeil_le_iff positive).mpr (Nat.le_trans le (le_divCeil_mul a' positive))

@[simp]
theorem divCeil_zero (b : Nat) : divCeil 0 b = 0 := by
  simp [divCeil]

end Words

/-! ## Requests in a row -/

namespace Host

/-- How many of the next `n` requests in a row are granted, before one is refused. -/
def granted (answers : Nat → Option HostError) : (asked n : Nat) → Nat
  | _, 0 => 0
  | asked, n + 1 =>
    match answers asked with
    | some _ => 0
    | none => granted answers (asked + 1) n + 1

/-- Why one of the next `n` requests in a row is refused, if one is. -/
def refusal? (answers : Nat → Option HostError) : (asked n : Nat) → Option HostError
  | _, 0 => none
  | asked, n + 1 =>
    match answers asked with
    | some error => some error
    | none => refusal? answers (asked + 1) n

/-- How many of the next `n` requests in a row are made: the last of them is the one that is
refused. -/
def requested (answers : Nat → Option HostError) (asked n : Nat) : Nat :=
  min n (granted answers asked n + 1)

variable {answers : Nat → Option HostError} {asked n : Nat}

theorem granted_le (answers : Nat → Option HostError) (asked n : Nat) :
    granted answers asked n ≤ n := by
  induction n generalizing asked with
  | zero => exact Nat.le_refl 0
  | succ n inductionHypothesis =>
      unfold granted
      split
      · exact Nat.zero_le _
      · exact Nat.succ_le_succ (inductionHypothesis (asked + 1))

/-- If none of them is refused, all of them are granted. -/
theorem granted_eq (all : refusal? answers asked n = none) : granted answers asked n = n := by
  induction n generalizing asked with
  | zero => rfl
  | succ n inductionHypothesis =>
      unfold refusal? at all
      unfold granted
      split at all
      · cases all
      · rw [inductionHypothesis all]

/-- If one of them is refused, that is one that is not granted. -/
theorem granted_lt (declined : refusal? answers asked n ≠ none) : granted answers asked n < n := by
  induction n generalizing asked with
  | zero => exact absurd rfl declined
  | succ n inductionHypothesis =>
      unfold refusal? at declined
      unfold granted
      split at declined
      · exact Nat.succ_pos n
      · exact Nat.succ_lt_succ (inductionHypothesis declined)

/-- A host that refuses nothing grants all requests. -/
theorem refusal?_eq_none (grants : ∀ asked, answers asked = none) (asked n : Nat) :
    refusal? answers asked n = none := by
  induction n generalizing asked with
  | zero => rfl
  | succ n inductionHypothesis => rw [refusal?, grants asked, inductionHypothesis]

end Host

namespace Arena

/-! ## Pages reached by slots -/

/-- The number of pages that the first `slots` slots reach into. -/
def pagesFor (pageSize elementSize slots : Nat) : Nat :=
  Words.divCeil (slots * elementSize) pageSize

section Pages

variable {pageSize elementSize fewer more : Nat}

/-- The slots fit into the pages that they reach into. -/
theorem slots_le_pagesFor (positive : 0 < pageSize) (elementSize slots : Nat) :
    slots * elementSize ≤ pagesFor pageSize elementSize slots * pageSize :=
  Words.le_divCeil_mul _ positive

theorem pagesFor_mono (positive : 0 < pageSize) (elementSize : Nat) (le : fewer ≤ more) :
    pagesFor pageSize elementSize fewer ≤ pagesFor pageSize elementSize more :=
  Words.divCeil_mono positive (Nat.mul_le_mul_right elementSize le)

@[simp]
theorem pagesFor_zero (pageSize elementSize : Nat) : pagesFor pageSize elementSize 0 = 0 := by
  simp [pagesFor]

end Pages

/-! ## The ledger -/

/-- The numbers that an arena keeps, and the host that it asks. -/
structure Ledger where
  /-- Bytes reserved. -/
  size : Nat
  /-- Pages backed by memory. -/
  committedPages : Nat
  elementSize : Nat
  capacity : Nat
  live : Nat
  preallocated : Bool
  pageCommits : UInt64
  pageReleases : UInt64
  host : Host
  /-- Requests about pages that the host has been asked. -/
  asked : Nat

/-- The numbers of an arena. -/
def ledger (arena : Arena) : Ledger where
  size := arena.region.size
  committedPages := arena.region.committedPages
  elementSize := arena.elementSize
  capacity := arena.capacity
  live := arena.live
  preallocated := arena.preallocated
  pageCommits := arena.pageCommits
  pageReleases := arena.pageReleases
  host := arena.region.host
  asked := arena.region.asked

namespace Ledger

/-- The number of pages that the first `slots` slots reach into. -/
def pages (ledger : Ledger) (slots : Nat) : Nat :=
  pagesFor ledger.host.pageSize ledger.elementSize slots

/-- The number of bytes backed by memory. -/
def committed (ledger : Ledger) : Nat :=
  ledger.committedPages * ledger.host.pageSize

/-- The numbers fit together. -/
structure Sound (ledger : Ledger) : Prop where
  elementSize_pos : 0 < ledger.elementSize
  live_le : ledger.live ≤ ledger.capacity
  size_eq : ledger.size = ledger.pages ledger.capacity * ledger.host.pageSize
  size_lt : ledger.size < Words.limit
  pages_le : ledger.pages ledger.live ≤ ledger.committedPages
  committedPages_le : ledger.committedPages ≤ ledger.pages ledger.capacity
  full : ledger.preallocated → ledger.committedPages = ledger.pages ledger.capacity

/-- Unless all pages were committed in advance, none is committed without need. -/
def Exact (ledger : Ledger) : Prop :=
  ledger.preallocated = false → ledger.committedPages = ledger.pages ledger.live

variable {ledger : Ledger}

theorem pages_mono (ledger : Ledger) {fewer more : Nat} (le : fewer ≤ more) :
    ledger.pages fewer ≤ ledger.pages more :=
  pagesFor_mono ledger.host.pageSize_pos ledger.elementSize le

theorem slots_le_pages (ledger : Ledger) (slots : Nat) :
    slots * ledger.elementSize ≤ ledger.pages slots * ledger.host.pageSize :=
  slots_le_pagesFor ledger.host.pageSize_pos ledger.elementSize slots

/-- Only pages of the region are committed. -/
theorem Sound.committed_le (sound : ledger.Sound) : ledger.committed ≤ ledger.size := by
  rw [sound.size_eq]
  exact Nat.mul_le_mul_right _ sound.committedPages_le

/-- A live slot ends before the committed memory does. -/
theorem Sound.slot_committed (sound : ledger.Sound) {slot : Slot} (live : slot < ledger.live) :
    slot * ledger.elementSize + ledger.elementSize ≤ ledger.committed :=
  calc
    slot * ledger.elementSize + ledger.elementSize
        = (slot + 1) * ledger.elementSize := (Nat.succ_mul slot _).symm
    _ ≤ ledger.live * ledger.elementSize := Nat.mul_le_mul_right _ live
    _ ≤ ledger.pages ledger.live * ledger.host.pageSize := ledger.slots_le_pages _
    _ ≤ ledger.committed := Nat.mul_le_mul_right _ sound.pages_le

/-! ## Taking a slot and giving one back -/

/-- The pages that one slot more would reach into and that are not committed. -/
def missingPages (ledger : Ledger) : Nat :=
  ledger.pages (ledger.live + 1) - ledger.committedPages

/-- How many of the missing pages the host backs. -/
def newPages (ledger : Ledger) : Nat :=
  Host.granted ledger.host.commitError ledger.asked ledger.missingPages

/-- Why the host does not back all of the missing pages, if it does not. -/
def commitRefusal? (ledger : Ledger) : Option HostError :=
  Host.refusal? ledger.host.commitError ledger.asked ledger.missingPages

/-- The numbers once the host has been asked for the missing pages. -/
def commit (ledger : Ledger) : Ledger :=
  { ledger with
    committedPages := ledger.committedPages + ledger.newPages
    pageCommits := ledger.pageCommits + UInt64.ofNat ledger.newPages
    asked := ledger.asked +
      Host.requested ledger.host.commitError ledger.asked ledger.missingPages }

/-- The numbers once a slot has been handed out. -/
def allocate (ledger : Ledger) : Ledger :=
  { ledger.commit with live := ledger.live + 1 }

/-- The committed pages that no slot would reach into with one slot less. -/
def surplusPages (ledger : Ledger) : Nat :=
  if ledger.preallocated then 0
  else ledger.committedPages - ledger.pages (ledger.live - 1)

/-- How many of the surplus pages the host takes back. -/
def oldPages (ledger : Ledger) : Nat :=
  Host.granted ledger.host.releaseError ledger.asked ledger.surplusPages

/-- Why the host does not take all of the surplus pages back, if it does not. -/
def releaseRefusal? (ledger : Ledger) : Option HostError :=
  Host.refusal? ledger.host.releaseError ledger.asked ledger.surplusPages

/-- The numbers once the last slot has been freed. -/
def free (ledger : Ledger) : Ledger :=
  { ledger with
    live := ledger.live - 1
    committedPages := ledger.committedPages - ledger.oldPages
    pageReleases := ledger.pageReleases + UInt64.ofNat ledger.oldPages
    asked := ledger.asked +
      Host.requested ledger.host.releaseError ledger.asked ledger.surplusPages }

theorem newPages_le (ledger : Ledger) : ledger.newPages ≤ ledger.missingPages :=
  Host.granted_le _ _ _

theorem oldPages_le (ledger : Ledger) : ledger.oldPages ≤ ledger.surplusPages :=
  Host.granted_le _ _ _

theorem newPages_eq (granted : ledger.commitRefusal? = none) :
    ledger.newPages = ledger.missingPages :=
  Host.granted_eq granted

theorem commitRefusal?_eq_none (grants : ledger.host.Grants) : ledger.commitRefusal? = none :=
  Host.refusal?_eq_none grants _ _

theorem oldPages_eq (takesBack : ledger.host.TakesBack) :
    ledger.oldPages = ledger.surplusPages :=
  Host.granted_eq (Host.refusal?_eq_none takesBack _ _)

/-- The missing pages are pages of the region. -/
theorem Sound.missing_le (sound : ledger.Sound) (room : ledger.live < ledger.capacity) :
    ledger.committedPages + ledger.missingPages ≤ ledger.pages ledger.capacity := by
  have bounded := ledger.pages_mono room
  have before := sound.committedPages_le
  unfold missingPages
  rw [Nat.succ_eq_add_one] at bounded
  omega

/-- Asking for the pages of one slot more keeps the numbers in order, also if some of them are
refused. -/
theorem Sound.commit (sound : ledger.Sound) (room : ledger.live < ledger.capacity) :
    ledger.commit.Sound where
  elementSize_pos := sound.elementSize_pos
  live_le := sound.live_le
  size_eq := sound.size_eq
  size_lt := sound.size_lt
  pages_le := Nat.le_add_right_of_le sound.pages_le
  committedPages_le :=
    Nat.le_trans (Nat.add_le_add_left ledger.newPages_le _) (sound.missing_le room)
  full := by
    intro preallocated
    have all := sound.full preallocated
    have atMost := Nat.le_trans (Nat.add_le_add_left ledger.newPages_le _) (sound.missing_le room)
    change ledger.committedPages + ledger.newPages = ledger.pages ledger.capacity
    omega

theorem Sound.allocate (sound : ledger.Sound) (room : ledger.live < ledger.capacity)
    (granted : ledger.commitRefusal? = none) : ledger.allocate.Sound :=
  { sound.commit room with
    live_le := room
    pages_le := by
      change ledger.pages (ledger.live + 1) ≤ ledger.committedPages + ledger.newPages
      rw [newPages_eq granted, missingPages]
      omega }

/-- The pages that stay committed are enough for the slots that stay live. -/
theorem Sound.pages_le_kept (sound : ledger.Sound) :
    ledger.pages (ledger.live - 1) ≤ ledger.committedPages - ledger.oldPages := by
  have shrunk := ledger.pages_mono (Nat.sub_le ledger.live 1)
  have before := sound.pages_le
  have few := ledger.oldPages_le
  unfold surplusPages at few
  split at few <;> omega

theorem Sound.free (sound : ledger.Sound) : ledger.free.Sound where
  elementSize_pos := sound.elementSize_pos
  live_le := Nat.le_trans (Nat.sub_le ledger.live 1) sound.live_le
  size_eq := sound.size_eq
  size_lt := sound.size_lt
  pages_le := sound.pages_le_kept
  committedPages_le := Nat.le_trans (Nat.sub_le _ _) sound.committedPages_le
  full := by
    intro preallocated
    have nothing : ledger.surplusPages = 0 := if_pos preallocated
    have few := ledger.oldPages_le
    change ledger.committedPages - ledger.oldPages = ledger.pages ledger.capacity
    rw [← sound.full preallocated]
    omega

/-! ## What pages contain -/

/-- The numbers of an arena whose host hands out pages with other contents. -/
def withContents (ledger : Ledger) (contents : Nat → Nat → UInt8) : Ledger :=
  { ledger with host := { ledger.host with contents } }

@[simp]
theorem commitRefusal?_withContents (contents : Nat → Nat → UInt8) :
    (ledger.withContents contents).commitRefusal? = ledger.commitRefusal? :=
  rfl

theorem allocate_withContents (contents : Nat → Nat → UInt8) :
    (ledger.withContents contents).allocate = ledger.allocate.withContents contents :=
  rfl

theorem free_withContents (contents : Nat → Nat → UInt8) :
    (ledger.withContents contents).free = ledger.free.withContents contents :=
  rfl

/-! ## Exactly the pages that are needed -/

theorem Exact.allocate (exact : ledger.Exact) (granted : ledger.commitRefusal? = none) :
    ledger.allocate.Exact := by
  intro isLazy
  have before := exact isLazy
  have grown := ledger.pages_mono (Nat.le_add_right ledger.live 1)
  change ledger.committedPages + ledger.newPages = ledger.pages (ledger.live + 1)
  rw [newPages_eq granted, missingPages]
  omega

theorem Exact.free (exact : ledger.Exact) (takesBack : ledger.host.TakesBack) :
    ledger.free.Exact := by
  intro isLazy
  have before := exact isLazy
  have shrunk := ledger.pages_mono (Nat.sub_le ledger.live 1)
  have surplus : ledger.surplusPages = ledger.committedPages - ledger.pages (ledger.live - 1) :=
    if_neg (Bool.eq_false_iff.mp isLazy)
  change ledger.committedPages - ledger.oldPages = ledger.pages (ledger.live - 1)
  rw [oldPages_eq takesBack, surplus]
  omega

end Ledger

/-! ## New arenas -/

/-- Padding and rounding down is rounding up. -/
theorem padded_div_eq (bytes : Nat) {pageSize : Nat} (positive : 0 < pageSize) :
    (bytes + (pageSize - 1)) / pageSize = Words.divCeil bytes pageSize := by
  apply Nat.le_antisymm
  · rw [Nat.div_le_iff_le_mul_add_pred positive]
    have enough := Words.le_divCeil_mul bytes positive
    rw [Nat.mul_comm] at enough
    omega
  · rw [Words.divCeil_le_iff positive]
    have rest := Nat.mod_lt (bytes + (pageSize - 1)) positive
    have divided := Nat.div_add_mod (bytes + (pageSize - 1)) pageSize
    rw [Nat.mul_comm] at divided
    omega

/-- The size that is reserved is that of the pages for all slots, and a word holds it. -/
theorem regionSize?_eq_some {pageSize elementSize capacity size : Nat} (positive : 0 < pageSize)
    (reserved : regionSize? pageSize elementSize capacity = some size) :
    size = pagesFor pageSize elementSize capacity * pageSize ∧ size < Words.limit := by
  unfold regionSize? at reserved
  dsimp only at reserved
  split at reserved
  · contradiction
  next fits =>
    injection reserved with equal
    have below := Nat.div_mul_le_self (elementSize * capacity + (pageSize - 1)) pageSize
    rw [padded_div_eq _ positive] at equal below
    refine ⟨?_, by omega⟩
    rw [← equal, pagesFor, Nat.mul_comm capacity elementSize]

/-- A region that is reserved has no page, or all of them. -/
theorem newRegion_eq_ok {size : Nat} {preallocate : Bool} {host : Host} {region : Region}
    (made : newRegion size preallocate host = .ok region) :
    region.size = size ∧ region.host = host ∧
      region.committedPages = (if preallocate then size / host.pageSize else 0) ∧
        region.asked = if preallocate then 1 else 0 := by
  have reserves : ∃ bare, Region.reserve size host = .ok bare ∧
      (if preallocate then bare.prefault else .ok bare) = .ok region := by
    unfold newRegion at made
    cases reserved : Region.reserve size host with
    | error error =>
        rw [reserved] at made
        cases made
    | ok bare =>
        rw [reserved] at made
        exact ⟨bare, rfl, made⟩
  obtain ⟨bare, reserved, filled⟩ := reserves
  have isBare : bare = ⟨size, #[], host, 0⟩ := by
    unfold Region.reserve at reserved
    split at reserved
    · cases reserved
    · split at reserved
      · cases reserved
      · exact (Except.ok.inj reserved).symm
  subst isBare
  cases preallocate with
  | false =>
      cases filled
      exact ⟨rfl, rfl, rfl, rfl⟩
  | true =>
      simp only [if_true, Region.prefault] at filled
      split at filled
      · cases filled
      · cases filled
        exact ⟨rfl, rfl, by simp [Region.committedPages], rfl⟩

/-- What a new arena is, and what was logged when it was made. -/
structure Made (elementSize capacity : Nat) (preallocate : Bool) (host : Host)
    (made : Session Arena) : Prop where
  sound : made.state.ledger.Sound
  exact : made.state.ledger.Exact
  live_eq : made.state.live = 0
  elementSize_eq : made.state.elementSize = elementSize
  capacity_eq : made.state.capacity = capacity
  preallocated_eq : made.state.preallocated = preallocate
  host_eq : made.state.region.host = host
  pages_eq : made.state.region.committedPages =
    if preallocate then made.state.region.size / host.pageSize else 0
  asked_eq : made.state.region.asked = if preallocate then 1 else 0
  pageCommits_eq : made.state.pageCommits = UInt64.ofNat made.state.region.committedPages
  pageReleases_eq : made.state.pageReleases = 0
  size_eq : regionSize? host.pageSize elementSize capacity = some made.state.region.size
  journal_eq : made.journal =
    ⟨#[.reserve elementSize capacity made.state.region.size preallocate], 0⟩

/-- A new arena has no live slots, and its numbers fit together. -/
theorem made_of_create {elementSize capacity : Nat} {preallocate : Bool} {host : Host}
    {made : Session Arena} (created : create elementSize capacity preallocate host = .ok made) :
    Made elementSize capacity preallocate host made := by
  unfold create at created
  split at created
  · contradiction
  next elementSize_ne =>
    split at created
    · contradiction
    next capacity_ne =>
      split at created
      · contradiction
      next size reserved =>
        split at created
        · contradiction
        next region isRegion =>
          obtain ⟨size_eq, size_lt⟩ := regionSize?_eq_some host.pageSize_pos reserved
          obtain ⟨rfl, rfl, pages, asked⟩ := newRegion_eq_ok isRegion
          have inPages : region.size / region.host.pageSize =
              pagesFor region.host.pageSize elementSize capacity := by
            rw [size_eq, Nat.mul_div_cancel _ region.host.pageSize_pos]
          have exact : region.committedPages = pagesFor region.host.pageSize elementSize
              (if preallocate then capacity else 0) := by
            cases preallocate with
            | false => simpa using pages
            | true => simpa [inPages] using pages
          injection created with equal
          subst equal
          have sound : Ledger.Sound (Arena.ledger ⟨region, elementSize, capacity, 0, preallocate,
              UInt64.ofNat region.committedPages, 0⟩) := by
            refine ⟨Nat.pos_of_ne_zero elementSize_ne, Nat.zero_le _, size_eq, size_lt, ?_, ?_, ?_⟩
            · change pagesFor _ _ 0 ≤ _
              rw [pagesFor_zero]
              exact Nat.zero_le _
            · change region.committedPages ≤ _
              rw [exact]
              apply pagesFor_mono region.host.pageSize_pos
              split
              · exact Nat.le_refl _
              · exact Nat.zero_le _
            · intro preallocated
              have all : preallocate = true := preallocated
              change region.committedPages = _
              rw [exact, if_pos all]
              rfl
          refine ⟨sound, ?_, rfl, rfl, rfl, rfl, rfl, pages, asked, rfl, rfl, reserved, rfl⟩
          intro isLazy
          have none : preallocate = false := isLazy
          change region.committedPages = pagesFor _ _ 0
          rw [exact, none]
          rfl

/-- What the pages of its host contain does not matter to the numbers of a new arena. -/
theorem Made.ledger_withContents {elementSize capacity : Nat} {preallocate : Bool} {host : Host}
    {made opposite : Session Arena} {contents : Nat → Nat → UInt8}
    (fresh : Made elementSize capacity preallocate host made)
    (other : Made elementSize capacity preallocate { host with contents } opposite) :
    opposite.state.ledger = made.state.ledger.withContents contents := by
  have size_eq : opposite.state.region.size = made.state.region.size :=
    Option.some.inj (other.size_eq.symm.trans fresh.size_eq)
  have pages_eq : opposite.state.region.committedPages = made.state.region.committedPages := by
    rw [other.pages_eq, fresh.pages_eq, size_eq]
  have host_eq : opposite.state.region.host = { made.state.region.host with contents } := by
    rw [other.host_eq, fresh.host_eq]
  unfold Ledger.withContents ledger
  rw [size_eq, pages_eq, other.elementSize_eq, fresh.elementSize_eq, other.capacity_eq,
    fresh.capacity_eq, other.live_eq, fresh.live_eq, other.preallocated_eq, fresh.preallocated_eq,
    other.pageCommits_eq, fresh.pageCommits_eq, other.pageReleases_eq, fresh.pageReleases_eq,
    host_eq, other.asked_eq, fresh.asked_eq, pages_eq]

end Arena

end SlabTree
