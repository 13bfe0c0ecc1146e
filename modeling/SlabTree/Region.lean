import SlabTree.Bytes
import SlabTree.Host
import Std.Data.TreeMap

/-!
# Regions

A region is a reserved range of addresses of which a prefix, in whole pages, is
backed by memory.  The host is asked to back one page more, or to take the last
one back, and may refuse either.

What a freshly committed page contains is up to the host.  A page that is
released and committed again has forgotten what was written to it, so whoever
relies on bytes beyond the committed prefix relies on nothing.
-/

namespace SlabTree

/-! ## Pages -/

/-- A page backed by memory. -/
structure Page where
  /-- What the page contained when it was handed out. -/
  fresh : Nat → UInt8
  /-- What has been written to it since, by place. -/
  written : Std.TreeMap Nat UInt8 := {}

namespace Page

/-- A byte of a page. -/
def byte (page : Page) (i : Nat) : UInt8 :=
  page.written[i]?.getD (page.fresh i)

/-- The page with a byte replaced. -/
def setByte (page : Page) (i : Nat) (value : UInt8) : Page :=
  match page with
  | ⟨fresh, written⟩ => ⟨fresh, written.insert i value⟩

theorem byte_setByte (page : Page) (i j : Nat) (value : UInt8) :
    (page.setByte i value).byte j = if i = j then value else page.byte j := by
  simp only [byte, setByte, Std.TreeMap.getElem?_insert, Nat.compare_eq_eq]
  split <;> rfl

end Page

/-! ## Regions of pages -/

/-- A reserved range of addresses and its committed pages. -/
structure Region where
  /-- The number of bytes reserved. -/
  size : Nat
  /-- The committed pages, from the start of the region on. -/
  pages : Array Page
  /-- Where the memory comes from. -/
  host : Host
  /-- How many requests about pages the host has been asked. -/
  asked : Nat

namespace Region

/-- A region of `size` bytes with nothing committed, or the reason why there is none. -/
def reserve (size : Nat) (host : Host) : Except HostError Region :=
  if size = 0 then
    .error ⟨"cannot reserve an empty region"⟩
  else
    match host.reserveError size with
    | some error => .error error
    | none => .ok { size := size, pages := #[], host := host, asked := 0 }

/-- The number of committed pages. -/
def committedPages (region : Region) : Nat :=
  region.pages.size

/-- The number of committed bytes. -/
def committed (region : Region) : Nat :=
  region.committedPages * region.host.pageSize

/-- A range must lie inside the region. -/
def checkInside (region : Region) (offset length : Nat) : Except Fault Unit :=
  if region.size < offset + length then
    .error (.outsideRegion offset length region.size)
  else
    .ok ()

/-- A range may be touched when it lies inside the region and is committed. -/
def check (region : Region) (offset length : Nat) : Except Fault Unit := do
  region.checkInside offset length
  if region.committed < offset + length then
    .error (.uncommitted offset length)
  else
    .ok ()

/-! ## Asking the host -/

/-- Why the host does not back the next page, if it does not. -/
def commitError (region : Region) : Option HostError :=
  region.host.commitError region.asked

/-- Why the host does not take the last page back, if it does not. -/
def releaseError (region : Region) : Option HostError :=
  region.host.releaseError region.asked

/-- The region once the next page is backed, with whatever the host hands out. -/
def commitPage (region : Region) : Region :=
  match region with
  | ⟨size, pages, host, asked⟩ =>
    ⟨size, pages.push { fresh := host.contents asked }, host, asked + 1⟩

/-- The region once the memory of the last committed page is taken back. -/
def releasePage (region : Region) : Region :=
  match region with
  | ⟨size, pages, host, asked⟩ => ⟨size, pages.pop, host, asked + 1⟩

/-- The region once the host has refused a request. -/
def refused (region : Region) : Region :=
  match region with
  | ⟨size, pages, host, asked⟩ => ⟨size, pages, host, asked + 1⟩

/-- Asks for all pages of the region at once, a range that needs no check, and fills them with
zeros. -/
def prefault (region : Region) : Except HostError Region :=
  match region.commitError with
  | some error => .error error
  | none =>
    let pages := Array.replicate (region.size / region.host.pageSize) { fresh := fun _ => 0 }
    .ok { region with pages := pages, asked := region.asked + 1 }

/-! ## Bytes -/

/-- A byte of a region; zero where no memory is. -/
def byte (region : Region) (i : Nat) : UInt8 :=
  match region.pages[i / region.host.pageSize]? with
  | none => 0
  | some page => page.byte (i % region.host.pageSize)

/-- The `length` bytes from `offset` on. -/
def peek (region : Region) (offset length : Nat) : Bytes :=
  (List.range length).map fun i => region.byte (offset + i)

/-- The region with a byte replaced. -/
def setByte (region : Region) (i : Nat) (value : UInt8) : Region :=
  match region with
  | ⟨size, pages, host, asked⟩ =>
    ⟨size, pages.modify (i / host.pageSize) (·.setByte (i % host.pageSize) value), host, asked⟩

/-- Writes `data` over the bytes from `offset` on. -/
def poke (region : Region) (offset : Nat) : Bytes → Region
  | [] => region
  | value :: rest => (region.setByte offset value).poke (offset + 1) rest

/-! ## What a write changes -/

@[simp]
theorem committedPages_setByte (region : Region) (i : Nat) (value : UInt8) :
    (region.setByte i value).committedPages = region.committedPages := by
  simp [setByte, committedPages]

@[simp]
theorem committedPages_poke (region : Region) (offset : Nat) (data : Bytes) :
    (region.poke offset data).committedPages = region.committedPages := by
  induction data generalizing region offset with
  | nil => rfl
  | cons value rest inductionHypothesis => simp [poke, inductionHypothesis]

@[simp]
theorem host_setByte (region : Region) (i : Nat) (value : UInt8) :
    (region.setByte i value).host = region.host :=
  rfl

@[simp]
theorem host_poke (region : Region) (offset : Nat) (data : Bytes) :
    (region.poke offset data).host = region.host := by
  induction data generalizing region offset with
  | nil => rfl
  | cons value rest inductionHypothesis => simp [poke, inductionHypothesis]

theorem byte_setByte {region : Region} {i : Nat} (committed : i < region.committed)
    (j : Nat) (value : UInt8) :
    (region.setByte i value).byte j = if i = j then value else region.byte j := by
  have inside : i / region.host.pageSize < region.pages.size := by
    rw [Nat.div_lt_iff_lt_mul region.host.pageSize_pos]
    exact committed
  simp only [byte, setByte, Array.getElem?_modify]
  by_cases samePage : i / region.host.pageSize = j / region.host.pageSize
  · rw [if_pos samePage, ← samePage, Array.getElem?_eq_getElem inside]
    simp only [Option.map_some, Page.byte_setByte]
    by_cases samePlace : i % region.host.pageSize = j % region.host.pageSize
    · have same : i = j := by
        rw [← Nat.div_add_mod i region.host.pageSize, samePage, samePlace, Nat.div_add_mod]
      rw [if_pos samePlace, if_pos same]
    · have different : i ≠ j := fun same => samePlace (by rw [same])
      rw [if_neg samePlace, if_neg different]
  · have different : i ≠ j := fun same => samePage (by rw [same])
    rw [if_neg samePage, if_neg different]

/-- After a write, a byte in the range written is the one written there and
every other byte is the one that was there. -/
theorem byte_poke {region : Region} {offset : Nat} {data : Bytes}
    (committed : offset + data.length ≤ region.committed) (j : Nat) :
    (region.poke offset data).byte j =
      if offset ≤ j then (data[j - offset]?).getD (region.byte j) else region.byte j := by
  induction data generalizing region offset with
  | nil => simp [poke]
  | cons value rest inductionHypothesis =>
      simp only [List.length_cons] at committed
      have rest_committed : offset + 1 + rest.length ≤ (region.setByte offset value).committed := by
        rw [Region.committed, committedPages_setByte, host_setByte]
        exact Nat.le_trans (by omega) committed
      rw [poke, inductionHypothesis rest_committed,
        byte_setByte (show offset < region.committed by omega)]
      by_cases here : offset = j
      · subst here
        have before : ¬ offset + 1 ≤ offset := by omega
        rw [if_neg before, if_pos rfl]
        simp
      · by_cases later : offset + 1 ≤ j
        · have place : j - offset = (j - (offset + 1)) + 1 := by omega
          rw [if_pos later, if_neg here, if_pos (by omega), place, List.getElem?_cons_succ]
        · rw [if_neg later, if_neg here, if_neg (by omega)]

@[simp]
theorem length_peek (region : Region) (offset length : Nat) :
    (region.peek offset length).length = length := by
  simp [peek]

end Region

end SlabTree
