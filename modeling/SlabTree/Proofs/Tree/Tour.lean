import SlabTree.Proofs.Tree.Verification

/-!
# All that there is to find

An inspection keeps its first findings and only marks that there were more.  A tour takes the
same way and leaves nothing out, so that what an inspection keeps is how the findings of the
tour begin, and it is marked as cut short exactly when there are more of them.  Both come to an
end on any damage: of all the links that they follow, the only ones that lead into a node are
those that count, and every node has two.
-/

namespace SlabTree

/-- How far a tour has come. -/
structure Progress where
  /-- The number of nodes entered. -/
  reached : Nat := 0
  /-- The node before the current one, in order. -/
  previous : Option Slot := none
  /-- How often the order was asked to compare. -/
  comparisons : Nat := 0
  /-- How many links were followed, the root among them. -/
  linksFollowed : Nat := 0

/-- The progress after one more link was followed. -/
def Progress.follow (progress : Progress) : Progress :=
  { progress with linksFollowed := progress.linksFollowed + 1 }

/-- The progress after one more link led to a node. -/
def Progress.enter (progress : Progress) : Progress :=
  { progress.follow with reached := progress.reached + 1 }

/-- What there is to find where something may be wrong. -/
def Finding.noted (wrong : Bool) (slot : Option Slot) (issue : Issue) : List Finding :=
  if wrong then [⟨slot, issue⟩] else []

namespace Inspection

/-! ## What an inspection keeps -/

/-- The inspection that has come as far as a tour, with what it keeps of the tour's findings. -/
def keeping (progress : Progress) (found : List Finding) : Inspection where
  reached := progress.reached
  previous := progress.previous
  findings := (found.take findingLimit).reverse
  truncated := decide (findingLimit < found.length)
  comparisons := progress.comparisons
  linksFollowed := progress.linksFollowed

variable {progress : Progress} {found : List Finding} {wrong : Bool} {slot : Option Slot}
  {issue : Issue}

theorem add_keeping :
    (keeping progress found).add slot issue = keeping progress (found ++ [⟨slot, issue⟩]) := by
  have kept : (found.take findingLimit).reverse.length = min findingLimit found.length := by
    rw [List.length_reverse, List.length_take]
  unfold add
  by_cases full : findingLimit ≤ found.length
  · have beyond : findingLimit < (found ++ [Finding.mk slot issue]).length := by
      rw [List.length_append, List.length_singleton]
      omega
    rw [if_pos (by simp only [keeping, kept]; omega)]
    simp only [keeping, List.take_append_of_le_length full, decide_eq_true beyond]
  · have within : ¬findingLimit < found.length := by omega
    have still : ¬findingLimit < (found ++ [Finding.mk slot issue]).length := by
      rw [List.length_append, List.length_singleton]
      omega
    rw [if_neg (by simp only [keeping, kept]; omega)]
    simp only [keeping, List.take_of_length_le (Nat.not_lt.mp within),
      List.take_of_length_le (Nat.not_lt.mp still), List.reverse_append, List.reverse_singleton,
      List.singleton_append, decide_eq_false within, decide_eq_false still]

theorem addIf_keeping :
    (keeping progress found).addIf wrong slot issue =
      keeping progress (found ++ Finding.noted wrong slot issue) := by
  cases wrong with
  | false => exact congrArg (keeping progress) (List.append_nil found).symm
  | true => exact add_keeping

/-- What is kept is everything, unless it was cut short. -/
theorem isEmpty_keeping :
    ((keeping progress found).findings.isEmpty && !(keeping progress found).truncated) =
      found.isEmpty := by
  cases found with
  | nil => rfl
  | cons first rest => simp [keeping, findingLimit]

variable {inspection : Inspection}

@[simp]
theorem linksFollowed_add :
    (inspection.add slot issue).linksFollowed = inspection.linksFollowed := by
  unfold add
  split <;> rfl

@[simp]
theorem linksFollowed_addIf :
    (inspection.addIf wrong slot issue).linksFollowed = inspection.linksFollowed := by
  cases wrong with
  | false => rfl
  | true => exact linksFollowed_add

@[simp]
theorem linksFollowed_follow : inspection.follow.linksFollowed = inspection.linksFollowed + 1 :=
  rfl

end Inspection

namespace Tree

open Inspection (findingLimit keeping add_keeping addIf_keeping)

variable {tree damaged : Tree} {order : KeyOrder} {slot : Slot} {start parent : Option Slot}
  {fuel : Nat} {progress : Progress} {found : List Finding}

/-! ## Tours -/

/-- Compares a slot with the node before it, makes it the node before the next one, and answers
what there is to find. -/
def tourKey (tree : Tree) (order : KeyOrder) (slot : Slot) (progress : Progress) :
    Except Fault (Progress × List Finding) := do
  match progress.previous with
  | none => .ok ({ progress with previous := some slot }, [])
  | some previous =>
      let before ← tree.payload previous
      let stored ← tree.payload slot
      let wrong := order.compare progress.comparisons before stored ≠ .lt
      .ok ({ progress with previous := some slot, comparisons := progress.comparisons + 1 },
        Finding.noted wrong (some slot) (.keyNotGreater previous))

/-- What there is to find about the cached height and the balance of a slot whose sides are as
tall as given. -/
def shapeFindings (slot : Slot) (cached left right : Int) : List Finding :=
  let height := max left right
  let balance := right - left
  Finding.noted (cached ≠ height) (some slot) (.wrongHeight cached height) ++
    Finding.noted (balance < -1 ∨ 1 < balance) (some slot) (.outOfBalance balance)

/-- What there is to find about the link from a node back to the one from which it was
reached. -/
def parentFindings (slot : Slot) (stored actual : Option Slot) : List Finding :=
  Finding.noted (stored ≠ actual) (some slot) (.wrongParent stored actual)

/-- Tours the nodes at and below a slot, left side first, in nested steps of at most `fuel`.
Answers what the slot adds to the height of its parent, and all that there is to find. -/
def tourWithin (tree : Tree) (order : KeyOrder) :
    Nat → Option Slot → Option Slot → Progress → Except Fault (Int × Progress × List Finding)
  | _, none, _, progress => .ok (0, progress, [])
  | 0, some _, _, _ => .error .endless
  | fuel + 1, some slot, parent, progress =>
    if tree.arena.live ≤ slot then
      .ok (0, progress.follow, [⟨some slot, .outsideLivePrefix⟩])
    else if tree.count ≤ progress.reached then
      .ok (0, progress.follow, [⟨some slot, .tooManyReachable⟩])
    else do
      let header ← tree.header slot
      let (left, afterLeft, onLeft) ←
        tourWithin tree order fuel header.left (some slot) progress.enter
      let (afterKey, atKey) ← tree.tourKey order slot afterLeft
      let (right, afterRight, onRight) ←
        tourWithin tree order fuel header.right (some slot) afterKey
      .ok (max left right + 1, afterRight,
        parentFindings slot header.parent parent ++ onLeft ++ atKey ++ onRight ++
          shapeFindings slot header.height left right)

/-- What there is to find about the count of a tree before the tour. -/
def countFindings (tree : Tree) : List Finding :=
  Finding.noted (tree.count ≠ tree.arena.live) none (.countDiffers tree.count tree.arena.live)

/-- All that is wrong with a tree, where the tour has come so far and found so much. -/
def allFindings (tree : Tree) (reached : Nat) (found : List Finding) : List Finding :=
  tree.countFindings ++ found ++
    Finding.noted (reached ≠ tree.count) none (.reachedDiffers reached tree.count)

/-- All that is wrong with a tree, in the order in which it is found. -/
def tour (tree : Tree) (order : KeyOrder) : Except Fault (List Finding) := do
  let (_, progress, found) ← tree.tourWithin order (tree.count + 1) tree.root none {}
  .ok (tree.allFindings progress.reached found)

/-! ## Tours and inspections -/

theorem inspectShape_keeping {cached left right : Int} :
    inspectShape slot cached left right (keeping progress found) =
      keeping progress (found ++ shapeFindings slot cached left right) := by
  simp only [inspectShape, shapeFindings, addIf_keeping, List.append_assoc]

theorem inspectKey_keeping :
    tree.inspectKey order slot (keeping progress found) =
      (fun (after, more) => keeping after (found ++ more)) <$>
        tree.tourKey order slot progress := by
  cases last : progress.previous with
  | none => simp only [inspectKey, tourKey, keeping, last, Functor.map, Except.map, List.append_nil]
  | some previous =>
      have seen : (keeping progress found).previous = some previous := last
      simp only [inspectKey, tourKey, last, seen, map_bind]
      refine bind_congr fun before => bind_congr fun stored => ?_
      rw [addIf_keeping]
      rfl

/-- An inspection finds what a tour finds, as much of it as it keeps. -/
theorem inspectWithin_keeping :
    tree.inspectWithin order fuel start parent (keeping progress found) =
      (fun (contribution, after, more) => (contribution, keeping after (found ++ more))) <$>
        tree.tourWithin order fuel start parent progress := by
  induction fuel generalizing start parent progress found with
  | zero =>
      cases start with
      | none => simp [inspectWithin, tourWithin, Functor.map, Except.map]
      | some slot => rfl
  | succ fuel inductionHypothesis =>
      cases start with
      | none => simp [inspectWithin, tourWithin, Functor.map, Except.map]
      | some slot =>
          have followed : (keeping progress found).follow = keeping progress.follow found := rfl
          have reached : (keeping progress.follow found).reached = progress.reached := rfl
          rw [inspectWithin, tourWithin, followed, reached]
          by_cases outside : tree.arena.live ≤ slot
          · rw [if_pos outside, if_pos outside, add_keeping]
            rfl
          · rw [if_neg outside, if_neg outside]
            by_cases full : tree.count ≤ progress.reached
            · rw [if_pos full, if_pos full, add_keeping]
              rfl
            · rw [if_neg full, if_neg full, map_bind]
              refine bind_congr fun header => ?_
              have entered : ({ keeping progress.follow found with
                  reached := progress.reached + 1 } : Inspection) =
                keeping progress.enter found := rfl
              -- Each step of the inspection is the tour's step, mapped; the maps move outwards.
              simp only [entered, addIf_keeping, inductionHypothesis, inspectKey_keeping,
                bind_map_left, map_bind]
              refine bind_congr fun left => bind_congr fun atKey => bind_congr fun right => ?_
              simp only [inspectShape_keeping, parentFindings, List.append_assoc]
              rfl

theorem opening_eq : tree.opening = keeping {} tree.countFindings := by
  have nothing : ({} : Inspection) = keeping {} [] := rfl
  rw [opening, nothing, addIf_keeping, List.nil_append, countFindings]

/-- A verification reports on a tour: it keeps the first of the findings, and it succeeds when
there are none. -/
theorem verify_eq_of_tourWithin {contribution : Int} {after : Progress}
    (ran : tree.tourWithin order (tree.count + 1) tree.root none {} =
      .ok (contribution, after, found)) :
    tree.verify order = .ok
      { success := (tree.allFindings after.reached found).isEmpty
        nodesReached := after.reached
        height := contribution - 1
        findings := (tree.allFindings after.reached found).take findingLimit
        truncated := decide (findingLimit < (tree.allFindings after.reached found).length)
        comparisons := after.comparisons
        linksFollowed := after.linksFollowed } := by
  have opened := @opening_eq tree
  have walked := @inspectWithin_keeping tree order tree.root none (tree.count + 1) {}
    tree.countFindings
  rw [ran] at walked
  unfold opening at opened
  have reached (more : List Finding) : (keeping after more).reached = after.reached := rfl
  simp only [verify, opened, walked, Functor.map, Except.map, Bind.bind, Except.bind, reached,
    addIf_keeping]
  rw [Inspection.isEmpty_keeping]
  simp only [keeping, List.reverse_reverse]
  rfl

/-! ## Links -/

@[simp]
theorem linksFollowed_inspectShape {cached left right : Int} {inspection : Inspection} :
    (inspectShape slot cached left right inspection).linksFollowed =
      inspection.linksFollowed := by
  simp [inspectShape]

namespace Graph

variable {graph : Graph} {inspection after : Inspection} {contribution : Int}

@[simp]
theorem linksFollowed_inspectKey :
    (graph.inspectKey order slot inspection).linksFollowed = inspection.linksFollowed := by
  unfold inspectKey
  split
  · rfl
  · exact Inspection.linksFollowed_addIf

@[simp]
theorem linksFollowed_enter :
    (graph.enter slot parent inspection).linksFollowed = inspection.linksFollowed + 1 :=
  Inspection.linksFollowed_addIf

/-- An inspection follows two links for every node that it enters, and one more if it starts
with a link that leads somewhere. -/
theorem linksFollowed_of_inspectWithin (usable : tree.graph.Usable)
    (ran : tree.inspectWithin order fuel start parent inspection = .ok (contribution, after)) :
    after.linksFollowed + 2 * inspection.reached ≤
      inspection.linksFollowed + 2 * after.reached + start.toList.length := by
  induction fuel using Nat.strong_induction_on
    generalizing start parent inspection contribution after with
  | h fuel inductionHypothesis =>
      rcases inspectWithin_cases usable ran with
        ⟨rfl, rfl, rfl⟩ | ⟨slot, issue, rfl, rfl, rfl⟩ |
          ⟨slot, less, rfl, rfl, live, _, ⟨onLeft, atKey, onRight⟩⟩
      · exact Nat.le_refl _
      · rw [Inspection.linksFollowed_add, Inspection.linksFollowed_follow,
          Inspection.reached_add, Inspection.reached_follow, Option.length_toList]
        exact Nat.le_of_eq (Nat.add_right_comm _ _ _)
      · have keyed := eq_of_inspectKey usable live atKey
        subst keyed
        have left := inductionHypothesis less (Nat.lt_succ_self less) onLeft
        have right := inductionHypothesis less (Nat.lt_succ_self less) onRight
        have one (link : Option Slot) : link.toList.length ≤ 1 := by
          cases link <;> simp
        have oneLeft := one (tree.graph.headers slot).left
        have oneRight := one (tree.graph.headers slot).right
        rw [linksFollowed_enter, reached_enter] at left
        rw [linksFollowed_inspectKey, reached_inspectKey] at right
        rw [linksFollowed_inspectShape, reached_inspectShape, Option.toList_some,
          List.length_singleton]
        omega

end Graph

/-! ## Verifying damaged trees -/

/-- From the start of a verification, a tour answers.  It enters no more nodes than the tree
counts, and it follows twice as many links as it enters nodes, and one more. -/
theorem exists_tourWithin (usable : tree.graph.Usable) (order : KeyOrder) :
    ∃ contribution after found,
      tree.tourWithin order (tree.count + 1) tree.root none {} = .ok (contribution, after, found) ∧
        after.reached ≤ tree.count ∧ after.linksFollowed ≤ 2 * after.reached + 1 := by
  have inspected := @inspectWithin_keeping tree order tree.root none (tree.count + 1) {}
    tree.countFindings
  obtain ⟨contribution, last, ran, _, within, _⟩ := @Graph.inspectWithin_answers tree order
    (keeping {} tree.countFindings) tree.root none (tree.count + 1) usable nofun
    (Nat.zero_le _) (Nat.lt_succ_self _)
  have links := Graph.linksFollowed_of_inspectWithin usable ran
  have one : tree.root.toList.length ≤ 1 := by
    cases tree.root <;> simp
  rw [ran] at inspected
  cases toured : tree.tourWithin order (tree.count + 1) tree.root none {} with
  | error =>
      rw [toured] at inspected
      cases inspected
  | ok answer =>
      obtain ⟨contribution, after, found⟩ := answer
      rw [toured] at inspected
      cases inspected
      have few : after.linksFollowed + 2 * 0 ≤ 0 + 2 * after.reached + tree.root.toList.length :=
        links
      exact ⟨contribution, after, found, rfl, within, by omega⟩

/-- Whatever comes to stand in the slots of a reachable tree, in its root and in its count, a
verification answers, so it reads no slot but live ones.  It enters no more nodes than the tree
counts, and it follows at most twice as many links, and one more.  It keeps the first 32 of all
the findings that there are, says whether there are more, and succeeds when there are none. -/
theorem verify_of_damage (reachable : Reachable tree)
    (numbers : damaged.arena.ledger = tree.arena.ledger)
    (options : damaged.options = tree.options) (order : KeyOrder) :
    ∃ report findings, damaged.verify order = .ok report ∧ damaged.tour order = .ok findings ∧
      report.nodesReached ≤ damaged.count ∧ report.linksFollowed ≤ 2 * damaged.count + 1 ∧
        report.findings = findings.take 32 ∧ report.findings.length ≤ 32 ∧
          (report.truncated = true ↔ 32 < findings.length) ∧
            (report.truncated = true → report.findings.length = 32) ∧
              (report.success = true ↔ findings = []) := by
  have usable := reachable.usable_of_damage numbers options
  obtain ⟨contribution, after, found, ran, within, links⟩ := exists_tourWithin usable order
  have toured : damaged.tour order = .ok (damaged.allFindings after.reached found) := by
    simp only [tour, ran, Bind.bind, Except.bind]
  refine ⟨_, _, verify_eq_of_tourWithin ran, toured, within, ?_, rfl, ?_, ?_, ?_, ?_⟩
  · exact links.trans (Nat.succ_le_succ (Nat.mul_le_mul_left 2 within))
  · exact List.length_take_le _ _
  · exact decide_eq_true_iff
  · intro truncated
    exact List.length_take_of_le (Nat.le_of_lt (of_decide_eq_true truncated))
  · exact List.isEmpty_iff

/-- A node that is its own right child is entered as often as the tree counts nodes. -/
theorem verify_of_damage_cyclic :
    ∃ made later cyclic,
      Tree.create { maxNodes := 4, nodeSize := 2, keySize := 1 } Host.plain = .ok made ∧
        Tree.insert (.leading 1) [7, 1] ⟨made.state, {}⟩ = .ok (.ok ()) later ∧
          Tree.setLink 0 .right (some 0) ⟨later.state, {}⟩ = .ok () cyclic ∧
            ∃ report findings,
              ({ cyclic.state with count := 3 } : Tree).verify (.leading 1) = .ok report ∧
                ({ cyclic.state with count := 3 } : Tree).tour (.leading 1) = .ok findings ∧
                  report.nodesReached ≤ 3 ∧ report.linksFollowed ≤ 7 ∧
                    report.findings = findings.take 32 ∧ findings ≠ [] ∧
                      report.success = false := by
  have run : ∃ made later cyclic report,
      Tree.create { maxNodes := 4, nodeSize := 2, keySize := 1 } Host.plain = .ok made ∧
        Tree.insert (.leading 1) [7, 1] ⟨made.state, {}⟩ = .ok (.ok ()) later ∧
          later.state.arena.live = 1 ∧
            Tree.setLink 0 .right (some 0) ⟨later.state, {}⟩ = .ok () cyclic ∧
              ({ cyclic.state with count := 3 } : Tree).verify (.leading 1) = .ok report ∧
                report.success = false :=
    ⟨_, _, _, _, rfl, rfl, rfl, rfl, rfl, rfl⟩
  obtain ⟨made, later, cyclic, report, created, inserted, one, damage, verified, failure⟩ := run
  have reachable : Reachable later.state := .insert (.create created) inserted
  have storable : Slot.Storable (some 0) := Slot.storable_some (by decide)
  have written := @Graph.yields_setLink later.state.graph 0 .right (some 0)
    (reachable.usable_of_damage rfl rfl) (Nat.lt_of_lt_of_eq Nat.one_pos one.symm) storable
  obtain ⟨_, looks, _⟩ := final_of_yields written rfl damage
  obtain ⟨same, findings, again, toured, reached, links, kept, _, _, _, success⟩ :=
    @verify_of_damage _ { cyclic.state with count := 3 } reachable (congrArg Graph.ledger looks)
      (congrArg Graph.options looks) (.leading 1)
  rw [verified] at again
  cases again
  refine ⟨made, later, cyclic, created, inserted, damage, report, findings, verified, toured,
    reached, links, kept, fun none => ?_, failure⟩
  rw [success.mpr none] at failure
  cases failure

end Tree

end SlabTree
