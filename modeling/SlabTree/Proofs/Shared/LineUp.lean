import Mathlib.Data.List.Induction
import Mathlib.Data.List.Nodup
import SlabTree.Proofs.Shared.Sections

/-!
# The order of sections

Sections take guards one after the other, and those of several workers in between each
other.  A section has got everything that it needs when it has got its last guard, so they
are lined up in the order of their last guards.
-/

namespace SlabTree.Shared

/-- A guard that a section got. -/
structure Acquisition where
  ticket : Ticket
  guard : Guard
  deriving DecidableEq, Repr

variable {trace before after : List Acquisition} {acquisition : Acquisition}
  {ticket other : Ticket} {guard : Guard}

/-- The guards that a section got, the latest first. -/
def guardsOf (trace : List Acquisition) (ticket : Ticket) : List Guard :=
  ((trace.filter (·.ticket = ticket)).map (·.guard)).reverse

/-- The sections, in the order in which they got their latest guards. -/
def lineUp (trace : List Acquisition) : List Ticket :=
  trace.foldl (fun order next => order.filter (· ≠ next.ticket) ++ [next.ticket]) []

theorem guardsOf_concat_self :
    guardsOf (trace ++ [⟨ticket, guard⟩]) ticket = guard :: guardsOf trace ticket := by
  simp [guardsOf]

theorem guardsOf_append_of_ne (others : ∀ acquisition ∈ after, acquisition.ticket ≠ ticket) :
    guardsOf (before ++ after) ticket = guardsOf before ticket := by
  have none : after.filter (·.ticket = ticket) = [] :=
    List.filter_eq_nil_iff.mpr fun acquisition member =>
      decide_eq_true_iff.not.mpr (others acquisition member)
  rw [guardsOf, List.filter_append, none, List.append_nil, guardsOf]

theorem mem_guardsOf : guard ∈ guardsOf trace ticket ↔ ⟨ticket, guard⟩ ∈ trace := by
  simp only [guardsOf, List.mem_reverse, List.mem_map, List.mem_filter, decide_eq_true_eq]
  constructor
  · rintro ⟨⟨_, _⟩, ⟨member, rfl⟩, rfl⟩
    exact member
  · exact fun member => ⟨_, ⟨member, rfl⟩, rfl⟩

theorem lineUp_concat :
    lineUp (trace ++ [acquisition]) =
      (lineUp trace).filter (· ≠ acquisition.ticket) ++ [acquisition.ticket] := by
  rw [lineUp, List.foldl_append]
  rfl

theorem mem_lineUp :
    ticket ∈ lineUp trace ↔ ∃ acquisition ∈ trace, acquisition.ticket = ticket := by
  induction trace using List.reverseRecOn with
  | nil => simp [lineUp]
  | append_singleton trace last inductionHypothesis =>
      rw [lineUp_concat]
      simp only [List.mem_append, List.mem_filter, inductionHypothesis, decide_eq_true_eq,
        List.mem_singleton]
      constructor
      · rintro (⟨⟨earlier, member, rfl⟩, _⟩ | rfl)
        · exact ⟨earlier, Or.inl member, rfl⟩
        · exact ⟨last, Or.inr rfl, rfl⟩
      · rintro ⟨earlier, member | rfl, rfl⟩
        · by_cases same : earlier.ticket = last.ticket
          · exact Or.inr same
          · exact Or.inl ⟨⟨earlier, member, rfl⟩, same⟩
        · exact Or.inr rfl

theorem nodup_lineUp (trace : List Acquisition) : (lineUp trace).Nodup := by
  induction trace using List.reverseRecOn with
  | nil => exact List.nodup_nil
  | append_singleton trace last inductionHypothesis =>
      rw [lineUp_concat]
      refine (inductionHypothesis.filter _).append (List.nodup_singleton _) ?_
      intro ticket member here
      rw [List.mem_singleton.mp here] at member
      exact of_decide_eq_true (List.mem_filter.mp member).2 rfl

/-- A section that another one gets a guard after stays in front of it as long as it gets no
further guard itself. -/
theorem sublist_lineUp_append (early : ∃ acquisition ∈ before, acquisition.ticket = ticket)
    (done : ∀ acquisition ∈ after, acquisition.ticket ≠ ticket)
    (late : ∃ acquisition ∈ after, acquisition.ticket = other) :
    [ticket, other].Sublist (lineUp (before ++ after)) := by
  induction after using List.reverseRecOn with
  | nil =>
      obtain ⟨_, member, _⟩ := late
      cases member
  | append_singleton after last inductionHypothesis =>
      have stays : ticket ≠ last.ticket := fun same =>
        done last (List.mem_append_right _ List.mem_cons_self) same.symm
      rw [← List.append_assoc, lineUp_concat]
      by_cases same : last.ticket = other
      · -- It is the other one that gets a guard now, and goes to the end.
        have there : ticket ∈ (lineUp (before ++ after)).filter (· ≠ last.ticket) := by
          obtain ⟨acquisition, member, named⟩ := early
          exact List.mem_filter.mpr ⟨mem_lineUp.mpr
            ⟨acquisition, List.mem_append_left _ member, named⟩, decide_eq_true stays⟩
        rw [same] at there ⊢
        exact (List.singleton_sublist.mpr there).append (List.Sublist.refl [other])
      · have still : [ticket, other].Sublist (lineUp (before ++ after)) := by
          obtain ⟨acquisition, member, named⟩ := late
          refine inductionHypothesis (fun earlier inside =>
            done earlier (List.mem_append_left _ inside)) ⟨acquisition, ?_, named⟩
          rcases List.mem_append.mp member with inside | isLast
          · exact inside
          · exact absurd (List.mem_singleton.mp isLast ▸ named) same
        have kept := still.filter (· ≠ last.ticket)
        have both : [ticket, other].filter (· ≠ last.ticket) = [ticket, other] := by
          simp [stays, Ne.symm same]
        rw [both] at kept
        exact kept.trans (List.sublist_append_left _ _)

/-- Two sections in line stood there before the last guard was got, or the second one got it. -/
theorem sublist_lineUp_concat
    (sublist : [ticket, other].Sublist (lineUp (trace ++ [acquisition]))) :
    ticket ≠ acquisition.ticket ∧
      (other = acquisition.ticket ∨ [ticket, other].Sublist (lineUp trace)) := by
  have distinct : ticket ≠ other := by
    have nodup := (nodup_lineUp (trace ++ [acquisition])).sublist sublist
    exact fun same => (List.nodup_cons.mp nodup).1 (List.mem_singleton.mpr same)
  rw [lineUp_concat] at sublist
  have others : ∀ ticket ∈ (lineUp trace).filter (· ≠ acquisition.ticket),
      ticket ≠ acquisition.ticket := fun ticket member =>
    of_decide_eq_true (List.mem_filter.mp member).2
  obtain ⟨front, back, parts, inFront, inBack⟩ := List.sublist_append_iff.mp sublist
  rcases List.sublist_singleton.mp inBack with rfl | rfl
  · rw [List.append_nil] at parts
    rw [← parts] at inFront
    exact ⟨others ticket (inFront.subset List.mem_cons_self),
      Or.inr (inFront.trans List.filter_sublist)⟩
  · obtain ⟨_, isLast⟩ := List.append_inj' (show [ticket] ++ [other] = front ++ _ from parts) rfl
    have named := (List.cons.inj isLast).1
    exact ⟨named ▸ distinct, Or.inl named⟩

end SlabTree.Shared
