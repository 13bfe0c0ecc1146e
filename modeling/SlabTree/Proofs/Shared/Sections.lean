import Mathlib.Logic.Function.Basic
import SlabTree.Shared.Work

/-!
# Sections on trees of one's own

A section that nobody is in the way of simply runs, whatever guards it takes.  In the
middle of it there is something left to be done, and there are the guards that it has
got so far: it has looked only at trees that it has guards on, and changed only those
that it has to itself.

So it does not matter to a section what the other trees are like, and two sections whose
guards do not clash can be done in either order.
-/

namespace SlabTree.Shared

open SlabTree.Lock (Mode)

variable {α β : Type}

/-- Trees by their numbers. -/
abbrev Trees := Nat → Option SharedTree

namespace Trees

/-- The trees with one of them changed. -/
def modify (trees : Trees) (tree : Nat) (f : Tree → Tree) : Trees :=
  Function.update trees tree
    ((trees tree).map fun shared => { shared with tree := f shared.tree })

/-- The lock that a tree is behind. -/
def lock? (trees : Trees) (tree : Nat) : Option Nat :=
  (trees tree).map (·.lock)

/-- Two guards clash if they are on the same lock and not both shared. -/
def Clash (trees : Trees) (guard other : Guard) : Prop :=
  trees.lock? guard.tree = trees.lock? other.tree ∧
    (guard.mode = .exclusive ∨ other.mode = .exclusive)

variable {trees others : Trees} {tree other : Nat} {guard : Guard}

theorem modify_of_ne (different : other ≠ tree) (f : Tree → Tree) :
    trees.modify tree f other = trees other :=
  Function.update_of_ne different _ _

theorem modify_congr (same : others other = trees other) (tree : Nat) (f : Tree → Tree) :
    others.modify tree f other = trees.modify tree f other := by
  by_cases here : other = tree
  · subst here
    rw [modify, modify, Function.update_self, Function.update_self, same]
  · rw [modify_of_ne here, modify_of_ne here, same]

@[simp]
theorem lock?_modify (tree : Nat) (f : Tree → Tree) :
    (trees.modify tree f).lock? = trees.lock? := by
  funext other
  by_cases here : other = tree
  · subst here
    rw [lock?, modify, Function.update_self, Option.map_map]
    rfl
  · rw [lock?, modify_of_ne here, lock?]

theorem Clash.symm {guard other : Guard} (clash : trees.Clash guard other) :
    trees.Clash other guard :=
  ⟨clash.1.symm, clash.2.symm⟩

/-- Guards on one tree clash unless both are shared. -/
theorem shared_of_not_clash {guard other : Guard} (apart : ¬ trees.Clash guard other)
    (sameTree : guard.tree = other.tree) : other.mode = .shared := by
  cases mode : other.mode with
  | shared => rfl
  | exclusive => exact absurd ⟨congrArg trees.lock? sameTree, Or.inr mode⟩ apart

end Trees

/-! ## Runs of a section -/

/-- What work comes to on trees of one's own, and what it makes of them; nothing if it
looks for a tree that is not there. -/
def Work.run : Work α → Trees → Option (α × Trees)
  | .done answer, trees => some (answer, trees)
  | .take _ next, trees => next.run trees
  | .look tree next, trees =>
    match trees tree with
    | none => none
    | some shared => (next shared).run trees
  | .change tree f next, trees => next.run (trees.modify tree f)

/-- A section from its first guard on. -/
def Section.whole (part : Section α) : Work α :=
  .take part.guard part.work

/-- What a section comes to on trees of one's own, and what it makes of them. -/
def Section.run (part : Section α) (trees : Trees) : Option (α × Trees) :=
  part.whole.run trees

/-- There is a guard on the tree. -/
def Guarded (guards : List Guard) (tree : Nat) : Prop :=
  ∃ guard ∈ guards, guard.tree = tree

variable {whole rest : Work α} {trees now others : Trees} {guards : List Guard} {tree : Nat}

/-- The ways from work to what is left of it, with the guards that it takes, the latest
first, and what it makes of the trees. -/
inductive Passes (whole : Work α) (trees : Trees) : List Guard → Work α → Trees → Prop
  | refl : Passes whole trees [] whole trees
  | take {guards : List Guard} {guard : Guard} {next : Work α} {now : Trees}
      (before : Passes whole trees guards (.take guard next) now) :
      Passes whole trees (guard :: guards) next now
  | look {guards : List Guard} {tree : Nat} {next : SharedTree → Work α} {now : Trees}
      {shared : SharedTree} (before : Passes whole trees guards (.look tree next) now)
      (guarded : Guarded guards tree) (there : now tree = some shared) :
      Passes whole trees guards (next shared) now
  | change {guards : List Guard} {tree : Nat} {f : Tree → Tree} {next : Work α} {now : Trees}
      (before : Passes whole trees guards (.change tree f next) now)
      (own : ⟨tree, .exclusive⟩ ∈ guards) :
      Passes whole trees guards next (now.modify tree f)

namespace Passes

theorem run_eq (passes : Passes whole trees guards rest now) :
    whole.run trees = rest.run now := by
  induction passes with
  | refl => rfl
  | take _ inductionHypothesis => exact inductionHypothesis
  | look _ _ there inductionHypothesis =>
      rw [inductionHypothesis, Work.run, there]
  | change _ _ inductionHypothesis => exact inductionHypothesis

/-- A section changes only the trees that it has to itself. -/
theorem eq_of_not_mem (passes : Passes whole trees guards rest now)
    (foreign : ⟨tree, .exclusive⟩ ∉ guards) : now tree = trees tree := by
  induction passes with
  | refl => rfl
  | take _ inductionHypothesis =>
      exact inductionHypothesis fun own => foreign (List.mem_cons_of_mem _ own)
  | look _ _ _ inductionHypothesis => exact inductionHypothesis foreign
  | @change _ changed f _ now _ own inductionHypothesis =>
      have different : tree ≠ changed := by
        rintro rfl
        exact foreign own
      rw [Trees.modify_of_ne different, inductionHypothesis foreign]

theorem eq_of_not_guarded (passes : Passes whole trees guards rest now)
    (free : ¬ Guarded guards tree) : now tree = trees tree :=
  passes.eq_of_not_mem fun own => free ⟨_, own, rfl⟩

/-- Before its first guard a section has done nothing. -/
theorem rest_eq_of_nil (passes : Passes whole trees [] rest now) : rest = whole := by
  generalize none : ([] : List Guard) = guards at passes
  induction passes with
  | refl => rfl
  | take => cases none
  | look _ guarded =>
      obtain ⟨guard, member, _⟩ := guarded
      rw [← none] at member
      cases member
  | change _ own =>
      rw [← none] at own
      cases own

/-- A section goes the same way on any trees that are the same where it has guards. -/
theorem frame (passes : Passes whole trees guards rest now)
    (same : ∀ tree, Guarded guards tree → others tree = trees tree) :
    ∃ later, Passes whole others guards rest later ∧
      ∀ tree, Guarded guards tree → later tree = now tree := by
  induction passes with
  | refl => exact ⟨others, .refl, same⟩
  | @take guards guard next now before inductionHypothesis =>
      have fewer : ∀ tree, Guarded guards tree → Guarded (guard :: guards) tree := by
        rintro tree ⟨other, member, on⟩
        exact ⟨other, List.mem_cons_of_mem _ member, on⟩
      obtain ⟨later, passes, agrees⟩ :=
        inductionHypothesis fun tree guarded => same tree (fewer tree guarded)
      refine ⟨later, passes.take, fun tree guarded => ?_⟩
      by_cases old : Guarded guards tree
      · exact agrees tree old
      · -- Nothing has been done yet to the tree that the guard is on.
        rw [passes.eq_of_not_guarded old, before.eq_of_not_guarded old, same tree guarded]
  | look before guarded there inductionHypothesis =>
      obtain ⟨later, passes, agrees⟩ := inductionHypothesis same
      exact ⟨later, passes.look guarded ((agrees _ guarded).trans there), agrees⟩
  | @change _ changed f _ _ before own inductionHypothesis =>
      obtain ⟨later, passes, agrees⟩ := inductionHypothesis same
      exact ⟨later.modify changed f, passes.change own, fun tree guarded =>
        Trees.modify_congr (agrees tree guarded) changed f⟩

/-- Two sections whose guards do not clash can change places. -/
theorem swap {first second : Work α} {mine theirs : List Guard} {answer reply : α}
    {before middle after locks : Trees} (one : Passes first before mine (.done answer) middle)
    (two : Passes second middle theirs (.done reply) after)
    (apart : ∀ guard ∈ mine, ∀ other ∈ theirs, ¬ locks.Clash guard other) :
    ∃ between, Passes second before theirs (.done reply) between ∧
      Passes first between mine (.done answer) after := by
  -- What one of them has a guard on, the other one does not change.
  have spares : ∀ tree, Guarded theirs tree → ⟨tree, .exclusive⟩ ∉ mine := by
    rintro tree ⟨other, member, on⟩ own
    have shared := Trees.shared_of_not_clash
      (fun clash => apart _ own other member clash.symm) on
    cases shared
  have spared : ∀ tree, Guarded mine tree → ⟨tree, .exclusive⟩ ∉ theirs := by
    rintro tree ⟨guard, member, on⟩ own
    have shared := Trees.shared_of_not_clash (apart guard member _ own) on
    cases shared
  obtain ⟨between, moved, agrees⟩ := two.frame fun tree guarded =>
    (one.eq_of_not_mem (spares tree guarded)).symm
  obtain ⟨final, follows, same⟩ := one.frame fun tree guarded =>
    moved.eq_of_not_mem (spared tree guarded)
  refine ⟨between, moved, ?_⟩
  have ends : final = after := by
    funext tree
    by_cases guarded : Guarded mine tree
    · rw [same tree guarded, two.eq_of_not_mem (spared tree guarded)]
    · rw [follows.eq_of_not_guarded guarded]
      by_cases there : Guarded theirs tree
      · exact agrees tree there
      · rw [moved.eq_of_not_guarded there, two.eq_of_not_guarded there,
          one.eq_of_not_guarded guarded]
  rwa [ends] at follows

end Passes

/-! ## One after the other -/

/-- What comes of trees if one thing after the other is done to them. -/
inductive InTurn (does : β → Trees → Trees → Prop) : Trees → List β → Trees → Prop
  | nil {trees : Trees} : InTurn does trees [] trees
  | cons {entry : β} {entries : List β} {before middle after : Trees}
      (first : does entry before middle) (others : InTurn does middle entries after) :
      InTurn does before (entry :: entries) after

namespace InTurn

variable {does other : β → Trees → Trees → Prop} {entries more : List β}
  {before middle after : Trees}

theorem append (turns : InTurn does before entries middle)
    (rest : InTurn does middle more after) : InTurn does before (entries ++ more) after := by
  induction turns with
  | nil => exact rest
  | cons first _ inductionHypothesis => exact .cons first (inductionHypothesis rest)

theorem exists_of_append (turns : InTurn does before (entries ++ more) after) :
    ∃ middle, InTurn does before entries middle ∧ InTurn does middle more after := by
  induction entries generalizing before with
  | nil => exact ⟨before, .nil, turns⟩
  | cons entry entries inductionHypothesis =>
      cases turns with
      | cons first others =>
          obtain ⟨middle, turns, rest⟩ := inductionHypothesis others
          exact ⟨middle, .cons first turns, rest⟩

theorem mono (turns : InTurn does before entries after)
    (same : ∀ entry ∈ entries, ∀ before after, does entry before after →
      other entry before after) : InTurn other before entries after := by
  induction turns with
  | nil => exact .nil
  | cons first _ inductionHypothesis =>
      exact .cons (same _ List.mem_cons_self _ _ first)
        (inductionHypothesis fun entry member => same entry (List.mem_cons_of_mem _ member))

end InTurn

/-! ## Sections by their tickets -/

/-- A section of a worker, by its number among them. -/
structure Ticket where
  worker : Nat
  number : Nat
  deriving DecidableEq, Repr

/-- A section is done, and this is its answer. -/
def Does (sections : Ticket → Option (Section α)) (entry : Ticket × α) (before after : Trees) :
    Prop :=
  ∃ part, sections entry.1 = some part ∧ part.run before = some (entry.2, after)

/-- A section is done under the guards that it takes, and this is its answer. -/
def DoesUnder (sections : Ticket → Option (Section α)) (guardsOf : Ticket → List Guard)
    (entry : Ticket × α) (before after : Trees) : Prop :=
  ∃ part, sections entry.1 = some part ∧
    Passes part.whole before (guardsOf entry.1) (.done entry.2) after

section

variable {sections : Ticket → Option (Section α)} {guardsOf : Ticket → List Guard}
  {entry : Ticket × α} {entries : List (Ticket × α)} {before middle after locks : Trees}

theorem DoesUnder.does (done : DoesUnder sections guardsOf entry before after) :
    Does sections entry before after := by
  obtain ⟨part, found, passes⟩ := done
  exact ⟨part, found, passes.run_eq⟩

/-- A section can be done ahead of sections whose guards do not clash with its own. -/
theorem InTurn.swap {answer : α}
    (turns : InTurn (DoesUnder sections guardsOf) before entries middle)
    (passes : Passes whole middle guards (.done answer) after)
    (apart : ∀ entry ∈ entries, ∀ guard ∈ guardsOf entry.1, ∀ other ∈ guards,
      ¬ locks.Clash guard other) :
    ∃ between, Passes whole before guards (.done answer) between ∧
      InTurn (DoesUnder sections guardsOf) between entries after := by
  induction turns with
  | nil => exact ⟨after, passes, .nil⟩
  | @cons entry entries _ _ _ first _ inductionHypothesis =>
      obtain ⟨between, ahead, rest⟩ := inductionHypothesis passes fun other member =>
        apart other (List.mem_cons_of_mem _ member)
      obtain ⟨part, found, done⟩ := first
      obtain ⟨start, moved, follows⟩ := done.swap ahead (apart entry List.mem_cons_self)
      exact ⟨start, moved, .cons ⟨part, found, follows⟩ rest⟩

end

end SlabTree.Shared
