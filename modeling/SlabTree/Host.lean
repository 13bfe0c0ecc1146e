import SlabTree.Words

/-!
# Hosts

The system that a region gets its memory from: how large its pages are, whether it reserves
addresses, backs pages and takes them back when it is asked, and what a page contains that it has
just backed.  All of this may be anything.  The requests that a region makes about pages are
numbered, so that a host can grant one of them and refuse the next.
-/

namespace SlabTree

/-- What a host says when it does not do what it is asked. -/
structure HostError where
  message : String
  deriving DecidableEq, Repr

/-- A system that hands out memory in pages. -/
structure Host where
  /-- The size of a page in bytes. -/
  pageSize : Nat
  pageSize_pos : 0 < pageSize
  pageSize_lt : pageSize < Words.limit
  /-- Why so many bytes of addresses are not reserved, if they are not. -/
  reserveError : Nat → Option HostError
  /-- Why the request of this number, one to back pages, is refused, if it is. -/
  commitError : Nat → Option HostError
  /-- Why the request of this number, one to take a page back, is refused, if it is. -/
  releaseError : Nat → Option HostError
  /-- Why the addresses are not taken back in the end, if they are not. -/
  closeError : Option HostError
  /-- Byte by byte, what the page contains that the request of this number backed. -/
  contents : Nat → Nat → UInt8

namespace Host

/-- The host backs every page that it is asked to back. -/
def Grants (host : Host) : Prop :=
  ∀ asked, host.commitError asked = none

/-- The host takes every page back that is handed back to it. -/
def TakesBack (host : Host) : Prop :=
  ∀ asked, host.releaseError asked = none

/-- A host with pages of 4096 bytes that reserves less than 2^47 bytes at a time and grants
everything else.  Its pages contain zeros. -/
def plain : Host where
  pageSize := 4096
  pageSize_pos := by decide
  pageSize_lt := by decide
  reserveError size :=
    if size < 0x800000000000 then none else some ⟨"Cannot allocate memory (os error 12)"⟩
  commitError _ := none
  releaseError _ := none
  closeError := none
  contents _ _ := 0

end Host

end SlabTree
