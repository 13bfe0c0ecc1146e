import SlabTree.Event
import SlabTree.Fault

/-!
# Sessions and actions

A session is a state together with the journal of what happened to it.  An
action runs on a session and either answers or faults; either way the session
that it leaves behind is known, so that what a fault interrupted can still be
looked at.
-/

namespace SlabTree

/-- What a run leaves behind besides its state and its answer. -/
structure Journal where
  /-- The events logged, oldest first. -/
  events : Array Event := #[]
  /-- How often an order was asked to compare. -/
  comparisons : Nat := 0

/-- A state and its journal. -/
structure Session (σ : Type) where
  state : σ
  journal : Journal := {}

/-- A computation on a session that answers or faults. -/
abbrev Action (σ α : Type) := EStateM Fault (Session σ) α

namespace Action

variable {σ τ α : Type}

/-- Looks at the state. -/
@[inline]
def view (f : σ → α) : Action σ α := fun session =>
  .ok (f session.state) session

/-- Looks at the state in a way that may fault. -/
@[inline]
def read (f : σ → Except Fault α) : Action σ α := fun session =>
  match f session.state with
  | .ok answer => .ok answer session
  | .error fault => .error fault session

/-- Changes the state. -/
@[inline]
def update (f : σ → σ) : Action σ Unit := fun session =>
  match session with
  | ⟨state, journal⟩ => .ok () ⟨f state, journal⟩

/-- Appends an event to the journal. -/
@[inline]
def log (event : Event) : Action σ Unit := fun session =>
  match session with
  | ⟨state, ⟨events, comparisons⟩⟩ => .ok () ⟨state, ⟨events.push event, comparisons⟩⟩

/-- Notes in the journal that an order was asked `times` times. -/
@[inline]
def noteComparisons (times : Nat) : Action σ Unit := fun session =>
  match session with
  | ⟨state, ⟨events, comparisons⟩⟩ => .ok () ⟨state, ⟨events, comparisons + times⟩⟩

/-- Ends the run. -/
@[inline]
def fail (fault : Fault) : Action σ α := fun session =>
  .error fault session

end Action

end SlabTree
