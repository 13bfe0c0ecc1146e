import SlabTree.Proofs.KeyOrder
import SlabTree.Proofs.Tree.Traversal
import SlabTree.Tree.Verify

/-!
# Inspections

An inspection follows links that may lead anywhere.  It always comes to an end, since it
enters no more nodes than the tree counts.  As long as it has found nothing wrong, the links
that it followed spell out a shape, and what it did was to go over that shape: so a clean
inspection of linked slots is a clean inspection of a shape, and conversely.  What there is to
find on a shape are wrong heights, too much weight on one side, and slots out of order.
-/

namespace SlabTree

namespace Inspection

/-! ## Findings -/

/-- Nothing was found. -/
def Clean (inspection : Inspection) : Prop :=
  inspection.findings = [] ∧ inspection.truncated = false

variable {inspection : Inspection} {wrong : Bool} {slot : Option Slot} {issue : Issue}

theorem clean_iff_success :
    inspection.Clean ↔ (inspection.findings.isEmpty && !inspection.truncated) = true := by
  simp [Clean]

theorem not_clean_add : ¬(inspection.add slot issue).Clean := by
  unfold add
  split
  · exact fun clean => Bool.noConfusion clean.2
  · exact fun clean => List.cons_ne_nil _ _ clean.1

theorem clean_addIf :
    (inspection.addIf wrong slot issue).Clean ↔ inspection.Clean ∧ wrong = false := by
  cases wrong with
  | false => exact (and_iff_left rfl).symm
  | true => exact iff_of_false not_clean_add fun clean => Bool.noConfusion clean.2

@[simp]
theorem reached_add : (inspection.add slot issue).reached = inspection.reached := by
  unfold add
  split <;> rfl

@[simp]
theorem previous_add : (inspection.add slot issue).previous = inspection.previous := by
  unfold add
  split <;> rfl

@[simp]
theorem reached_addIf : (inspection.addIf wrong slot issue).reached = inspection.reached := by
  cases wrong with
  | false => rfl
  | true => exact reached_add

@[simp]
theorem previous_addIf : (inspection.addIf wrong slot issue).previous = inspection.previous := by
  cases wrong with
  | false => rfl
  | true => exact previous_add

@[simp]
theorem reached_follow : inspection.follow.reached = inspection.reached :=
  rfl

/-- The inspection after one more link led to a node. -/
def enter (inspection : Inspection) : Inspection :=
  { inspection.follow with reached := inspection.follow.reached + 1 }

@[simp]
theorem reached_enter : inspection.enter.reached = inspection.reached + 1 :=
  rfl

@[simp]
theorem previous_enter : inspection.enter.previous = inspection.previous :=
  rfl

end Inspection

namespace Tree

variable {tree : Tree} {order : KeyOrder} {slot : Slot} {inspection : Inspection}

theorem clean_inspectShape {cached left right : Int} :
    (inspectShape slot cached left right inspection).Clean ↔
      inspection.Clean ∧ cached = max left right ∧ left ≤ right + 1 ∧ right ≤ left + 1 := by
  rw [inspectShape, Inspection.clean_addIf, Inspection.clean_addIf, decide_eq_false_iff_not,
    decide_eq_false_iff_not, not_not, and_assoc, not_or, Int.not_lt, Int.not_lt]
  constructor
  · rintro ⟨clean, same, low, high⟩
    exact ⟨clean, same, by omega, by omega⟩
  · rintro ⟨clean, same, low, high⟩
    exact ⟨clean, same, by omega, by omega⟩

@[simp]
theorem reached_inspectShape {cached left right : Int} :
    (inspectShape slot cached left right inspection).reached = inspection.reached := by
  simp [inspectShape]

@[simp]
theorem previous_inspectShape {cached left right : Int} :
    (inspectShape slot cached left right inspection).previous = inspection.previous := by
  simp [inspectShape]

namespace Graph

variable {graph : Graph} {shape : Shape} {stored : Bytes → Prop}

/-! ## Keys -/

/-- The inspection after a slot was compared with the node before it. -/
def inspectKey (graph : Graph) (order : KeyOrder) (slot : Slot) (inspection : Inspection) :
    Inspection :=
  match inspection.previous with
  | none => { inspection with previous := some slot }
  | some previous =>
      let outcome := order.compare inspection.comparisons (graph.payloads previous)
        (graph.payloads slot)
      let compared := inspection.addIf (outcome ≠ .lt) (some slot) (.keyNotGreater previous)
      { compared with previous := some slot, comparisons := compared.comparisons + 1 }

/-- Two live slots whose records are in order. -/
def Below (graph : Graph) (order : KeyOrder) (first second : Slot) : Prop :=
  first < graph.live ∧ second < graph.live ∧
    order.Less (graph.payloads first) (graph.payloads second)

@[simp]
theorem reached_inspectKey :
    (graph.inspectKey order slot inspection).reached = inspection.reached := by
  unfold inspectKey
  split
  · rfl
  · exact Inspection.reached_addIf

@[simp]
theorem previous_inspectKey :
    (graph.inspectKey order slot inspection).previous = some slot := by
  unfold inspectKey
  split <;> rfl

theorem behind_inspectKey (live : slot < graph.live) :
    ∀ previous ∈ (graph.inspectKey order slot inspection).previous, previous < graph.live := by
  rw [previous_inspectKey]
  rintro _ ⟨⟩
  exact live

theorem clean_of_inspectKey (clean : (graph.inspectKey order slot inspection).Clean) :
    inspection.Clean := by
  unfold inspectKey at clean
  split at clean
  · exact clean
  · exact (Inspection.clean_addIf.mp clean).1

/-- Nothing is found at a slot whose record comes after the one before it. -/
theorem clean_inspectKey (ranks : order.Ranks stored)
    (kept : ∀ slot < graph.live, stored (graph.payloads slot)) (live : slot < graph.live)
    (behind : ∀ previous ∈ inspection.previous, previous < graph.live) :
    (graph.inspectKey order slot inspection).Clean ↔
      inspection.Clean ∧ ∀ previous ∈ inspection.previous, graph.Below order previous slot := by
  unfold inspectKey
  split
  next nothing => simp [nothing, Inspection.Clean]
  next previous last =>
    have before := behind previous last
    have outcome := ranks.steady inspection.comparisons _ _ (kept previous before) (kept slot live)
    have found : (∀ other ∈ inspection.previous, graph.Below order other slot) ↔
        graph.Below order previous slot := by
      simp [last]
    refine Iff.trans Inspection.clean_addIf (and_congr_right fun _ => ?_)
    rw [found, decide_eq_false_iff_not, not_not, outcome]
    exact ⟨fun less => ⟨before, live, less⟩, fun below => below.2.2⟩

/-- Reading the two records of a comparison. -/
theorem inspectKey_eq_ok (usable : tree.graph.Usable) (live : slot < tree.graph.live)
    (behind : ∀ previous ∈ inspection.previous, previous < tree.graph.live) :
    tree.inspectKey order slot inspection = .ok (tree.graph.inspectKey order slot inspection) := by
  cases last : inspection.previous with
  | none => simp only [Tree.inspectKey, inspectKey, last]
  | some previous =>
      have before := payload_eq_ok usable (behind previous last) rfl
      simp only [Tree.inspectKey, inspectKey, last, before, payload_eq_ok usable live rfl,
        Bind.bind, Except.bind]

/-- A comparison that answers has read two live slots. -/
theorem eq_of_inspectKey (usable : tree.graph.Usable) (live : slot < tree.graph.live)
    {after : Inspection} (ran : tree.inspectKey order slot inspection = .ok after) :
    after = tree.graph.inspectKey order slot inspection := by
  have behind : ∀ previous ∈ inspection.previous, previous < tree.graph.live := by
    intro previous last
    cases before : tree.payload previous with
    | error fault =>
        simp only [Tree.inspectKey, Option.mem_def.mp last, before, Bind.bind, Except.bind] at ran
        cases ran
    | ok bytes => exact Arena.live_of_read before
  rw [inspectKey_eq_ok usable live behind] at ran
  cases ran
  rfl

/-! ## Going over a shape -/

/-- The inspection after going over a shape. -/
def survey (graph : Graph) (order : KeyOrder) : Shape → Inspection → Inspection
  | .leaf, inspection => inspection
  | .node left slot right, inspection =>
      let atKey := graph.inspectKey order slot (graph.survey order left inspection.enter)
      inspectShape slot (graph.headers slot).height left.height right.height
        (graph.survey order right atKey)

theorem reached_survey :
    (graph.survey order shape inspection).reached =
      inspection.reached + shape.slots.length := by
  induction shape generalizing inspection with
  | leaf => rfl
  | node left slot right onLeft onRight =>
      simp only [survey, reached_inspectShape, onRight, reached_inspectKey, onLeft,
        Inspection.reached_enter, Shape.slots, List.length_append, List.length_cons]
      omega

/-- The last node entered is the last slot of the shape. -/
theorem previous_survey :
    (graph.survey order shape inspection).previous =
      (inspection.previous.toList ++ shape.slots).getLast? := by
  induction shape generalizing inspection with
  | leaf => cases last : inspection.previous <;> simp [survey, Shape.slots, last]
  | node left slot right onLeft onRight =>
      rw [survey, previous_inspectShape, onRight, previous_inspectKey, Shape.slots,
        ← List.append_assoc]
      exact (List.getLast?_append_cons _ slot right.slots).symm

/-- Live slots lead on to live slots. -/
theorem behind_survey (behind : ∀ previous ∈ inspection.previous, previous < graph.live)
    (live : ∀ slot ∈ shape.slots, slot < graph.live) :
    ∀ previous ∈ (graph.survey order shape inspection).previous, previous < graph.live := by
  intro previous last
  rw [previous_survey] at last
  rcases List.mem_append.mp (List.mem_of_getLast? last) with before | within
  · exact behind previous (Option.mem_toList.mp before)
  · exact live previous within

/-- A list is in order when it is on both sides of a slot and where the sides meet it. -/
theorem isChain_middle {earlier later : List Slot} :
    (earlier ++ slot :: later).IsChain (graph.Below order) ↔
      earlier.IsChain (graph.Below order) ∧
        (∀ previous ∈ earlier.getLast?, graph.Below order previous slot) ∧
          (slot :: later).IsChain (graph.Below order) := by
  rw [List.isChain_append, List.head?_cons]
  constructor
  · rintro ⟨before, after, meet⟩
    exact ⟨before, fun previous last => meet previous last slot rfl, after⟩
  · rintro ⟨before, meet, after⟩
    refine ⟨before, after, ?_⟩
    rintro previous last _ ⟨⟩
    exact meet previous last

/-- What is found on a shape are wrong heights, too much weight on one side, and slots
whose records are out of order. -/
theorem clean_survey (ranks : order.Ranks stored)
    (kept : ∀ slot < graph.live, stored (graph.payloads slot))
    (behind : ∀ previous ∈ inspection.previous, previous < graph.live)
    (live : ∀ slot ∈ shape.slots, slot < graph.live) :
    (graph.survey order shape inspection).Clean ↔
      inspection.Clean ∧ Measured graph.headers shape ∧ shape.Balanced ∧
        (inspection.previous.toList ++ shape.slots).IsChain (graph.Below order) := by
  induction shape generalizing inspection with
  | leaf =>
      have short : inspection.previous.toList.IsChain (graph.Below order) := by
        cases inspection.previous <;> simp
      simp [survey, Measured, Shape.Balanced, Shape.slots, short]
  | node left slot right onLeft onRight =>
      have here : slot < graph.live := live slot (by simp [Shape.slots])
      have inLeft : ∀ inner ∈ left.slots, inner < graph.live := fun inner member =>
        live inner (by simp [Shape.slots, member])
      have inRight : ∀ inner ∈ right.slots, inner < graph.live := fun inner member =>
        live inner (by simp [Shape.slots, member])
      have entered : ∀ previous ∈ inspection.enter.previous, previous < graph.live := behind
      rw [survey, clean_inspectShape, onRight (behind_inspectKey here) inRight,
        previous_inspectKey, clean_inspectKey ranks kept here (behind_survey entered inLeft),
        onLeft entered inLeft, previous_survey,
        Shape.slots, ← List.append_assoc, isChain_middle, Measured, Shape.Balanced]
      constructor
      · rintro ⟨⟨⟨⟨clean, measuredLeft, balancedLeft, before⟩, meet⟩, measuredRight,
          balancedRight, after⟩, height, low, high⟩
        exact ⟨clean, ⟨by omega, measuredLeft, measuredRight⟩,
          ⟨by omega, by omega, balancedLeft, balancedRight⟩, before, meet, after⟩
      · rintro ⟨clean, ⟨height, measuredLeft, measuredRight⟩,
          ⟨low, high, balancedLeft, balancedRight⟩, before, meet, after⟩
        exact ⟨⟨⟨⟨clean, measuredLeft, balancedLeft, before⟩, meet⟩, measuredRight,
          balancedRight, after⟩, by omega, by omega, by omega⟩

/-! ## Following links -/

/-- The inspection after a link from `parent` led to a slot, whose own link back may say
something else. -/
def enter (graph : Graph) (slot : Slot) (parent : Option Slot) (inspection : Inspection) :
    Inspection :=
  inspection.enter.addIf ((graph.headers slot).parent ≠ parent) (some slot)
    (.wrongParent (graph.headers slot).parent parent)

variable {start parent : Option Slot} {fuel : Nat}

@[simp]
theorem reached_enter :
    (graph.enter slot parent inspection).reached = inspection.reached + 1 :=
  Inspection.reached_addIf

@[simp]
theorem previous_enter :
    (graph.enter slot parent inspection).previous = inspection.previous :=
  Inspection.previous_addIf

theorem clean_enter :
    (graph.enter slot parent inspection).Clean ↔
      inspection.Clean ∧ (graph.headers slot).parent = parent := by
  rw [enter, Inspection.clean_addIf, decide_eq_false_iff_not, not_not]
  rfl

theorem enter_eq (up : (graph.headers slot).parent = parent) :
    graph.enter slot parent inspection = inspection.enter := by
  rw [enter, up, decide_eq_false (not_not.mpr rfl)]
  rfl

theorem inspectWithin_none :
    tree.inspectWithin order fuel none parent inspection = .ok (0, inspection) := by
  cases fuel <;> rfl

/-- A slot that is not live, or one too many, is not entered. -/
theorem inspectWithin_shut (shut : ¬(slot < tree.graph.live ∧ inspection.reached < tree.count)) :
    ∃ issue, tree.inspectWithin order (fuel + 1) (some slot) parent inspection =
      .ok (0, inspection.follow.add (some slot) issue) := by
  rw [inspectWithin]
  by_cases outside : tree.arena.live ≤ slot
  · exact ⟨_, if_pos outside⟩
  · have full : tree.count ≤ inspection.follow.reached :=
      Nat.not_lt.mp fun room => shut ⟨Nat.not_le.mp outside, room⟩
    exact ⟨_, (if_neg outside).trans (if_pos full)⟩

/-- An inspection of a node is one of its left side, its key, its right side, and then its
shape. -/
inductive Inspects (tree : Tree) (order : KeyOrder) (fuel : Nat) (slot : Slot)
    (parent : Option Slot) (before : Inspection) : Int → Inspection → Prop
  | node {left right : Int} {afterLeft afterKey afterRight : Inspection}
      (onLeft : tree.inspectWithin order fuel (tree.graph.headers slot).left (some slot)
        (tree.graph.enter slot parent before) = .ok (left, afterLeft))
      (atKey : tree.inspectKey order slot afterLeft = .ok afterKey)
      (onRight : tree.inspectWithin order fuel (tree.graph.headers slot).right (some slot)
        afterKey = .ok (right, afterRight)) :
      Inspects tree order fuel slot parent before (max left right + 1)
        (inspectShape slot (tree.graph.headers slot).height left right afterRight)

variable {contribution : Int} {after : Inspection}

theorem inspectWithin_eq_ok_iff (usable : tree.graph.Usable) (live : slot < tree.graph.live)
    (room : inspection.reached < tree.count) :
    tree.inspectWithin order (fuel + 1) (some slot) parent inspection =
        .ok (contribution, after) ↔
      Inspects tree order fuel slot parent inspection contribution after := by
  have inside : ¬tree.arena.live ≤ slot := Nat.not_le_of_lt live
  have fits : ¬tree.count ≤ inspection.follow.reached := Nat.not_le_of_lt room
  rw [inspectWithin, if_neg inside, if_neg fits, header_eq_ok usable live rfl]
  constructor
  · intro ran
    simp only [Bind.bind, Except.bind] at ran
    split at ran
    · cases ran
    next answerLeft onLeft =>
      split at ran
      · cases ran
      next afterKey atKey =>
        split at ran
        · cases ran
        next answerRight onRight =>
          cases ran
          exact .node onLeft atKey onRight
  · rintro ⟨onLeft, atKey, onRight⟩
    simp only [enter, Inspection.enter] at onLeft
    simp only [Bind.bind, Except.bind, onLeft, atKey, onRight]

/-- An inspection that answers has followed no link, a link that leads nowhere, or one that
leads to a node. -/
theorem inspectWithin_cases (usable : tree.graph.Usable)
    (ran : tree.inspectWithin order fuel start parent inspection = .ok (contribution, after)) :
    (start = none ∧ contribution = 0 ∧ after = inspection) ∨
      (∃ slot issue, start = some slot ∧ contribution = 0 ∧
        after = inspection.follow.add (some slot) issue) ∨
      ∃ slot less, start = some slot ∧ fuel = less + 1 ∧ slot < tree.graph.live ∧
        inspection.reached < tree.count ∧
          Inspects tree order less slot parent inspection contribution after := by
  cases start with
  | none =>
      rw [inspectWithin_none] at ran
      cases ran
      exact .inl ⟨rfl, rfl, rfl⟩
  | some slot =>
      cases fuel with
      | zero => cases ran
      | succ less =>
          by_cases shut : ¬(slot < tree.graph.live ∧ inspection.reached < tree.count)
          · obtain ⟨issue, found⟩ := @inspectWithin_shut tree order slot inspection parent less shut
            rw [found] at ran
            cases ran
            exact .inr (.inl ⟨slot, issue, rfl, rfl, rfl⟩)
          · obtain ⟨live, room⟩ := not_not.mp shut
            exact .inr (.inr ⟨slot, less, rfl, rfl, live, room,
              (inspectWithin_eq_ok_iff usable live room).mp ran⟩)

theorem height_node {left right : Shape} :
    ((Shape.node left slot right).height : Int) = max (left.height : Int) right.height + 1 := by
  rw [Shape.height]
  omega

/-- Where links spell out a shape, following them goes over the shape. -/
theorem inspectWithin_eq_survey (usable : tree.graph.Usable)
    (linked : Linked tree.graph.headers parent shape)
    (behind : ∀ previous ∈ inspection.previous, previous < tree.graph.live)
    (live : ∀ slot ∈ shape.slots, slot < tree.graph.live)
    (room : inspection.reached + shape.slots.length ≤ tree.count)
    (enough : shape.height ≤ fuel) :
    tree.inspectWithin order fuel shape.root? parent inspection =
      .ok ((shape.height : Int), tree.graph.survey order shape inspection) := by
  induction shape generalizing parent fuel inspection with
  | leaf => exact inspectWithin_none
  | node left slot right onLeft onRight =>
      obtain ⟨up, toLeft, toRight, leftLinked, rightLinked⟩ := linked
      have here : slot < tree.graph.live := live slot (by simp [Shape.slots])
      have inLeft : ∀ inner ∈ left.slots, inner < tree.graph.live := fun inner member =>
        live inner (by simp [Shape.slots, member])
      have inRight : ∀ inner ∈ right.slots, inner < tree.graph.live := fun inner member =>
        live inner (by simp [Shape.slots, member])
      have entered : ∀ previous ∈ inspection.enter.previous, previous < tree.graph.live := behind
      rw [Shape.slots, List.length_append, List.length_cons] at room
      have leftRoom : inspection.enter.reached + left.slots.length ≤ tree.count := by
        rw [Inspection.reached_enter]
        omega
      have rightRoom : (tree.graph.inspectKey order slot
          (tree.graph.survey order left inspection.enter)).reached +
            right.slots.length ≤ tree.count := by
        rw [reached_inspectKey, reached_survey, Inspection.reached_enter]
        omega
      cases fuel with
      | zero => exact absurd enough (Nat.not_succ_le_zero _)
      | succ fuel =>
          have lower := Nat.max_le.mp (Nat.le_of_succ_le_succ enough)
          have overLeft : tree.inspectWithin order fuel (tree.graph.headers slot).left (some slot)
              (tree.graph.enter slot parent inspection) =
                .ok ((left.height : Int), tree.graph.survey order left inspection.enter) := by
            rw [enter_eq up, toLeft]
            exact onLeft leftLinked entered inLeft leftRoom lower.1
          have overRight := onRight rightLinked (behind_inspectKey here) inRight rightRoom lower.2
          rw [← toRight] at overRight
          rw [height_node]
          exact (inspectWithin_eq_ok_iff usable here (by omega)).mpr (.node overLeft
            (inspectKey_eq_ok usable here (behind_survey entered inLeft)) overRight)

/-- An inspection that has found nothing has gone over a shape, which the links that it
followed spell out. -/
theorem shape_of_inspectWithin (usable : tree.graph.Usable)
    (ran : tree.inspectWithin order fuel start parent inspection = .ok (contribution, after))
    (clean : after.Clean) :
    inspection.Clean ∧ ∃ shape : Shape, shape.root? = start ∧
      Linked tree.graph.headers parent shape ∧ (∀ slot ∈ shape.slots, slot < tree.graph.live) ∧
        contribution = shape.height ∧ after = tree.graph.survey order shape inspection := by
  induction fuel using Nat.strong_induction_on
    generalizing start parent inspection contribution after with
  | h fuel inductionHypothesis =>
      rcases inspectWithin_cases usable ran with
        ⟨rfl, rfl, rfl⟩ | ⟨slot, issue, rfl, rfl, rfl⟩ |
          ⟨slot, less, rfl, rfl, live, room, ⟨onLeft, atKey, onRight⟩⟩
      · exact ⟨clean, .leaf, rfl, trivial, fun _ member => absurd member List.not_mem_nil,
          rfl, rfl⟩
      · exact absurd clean Inspection.not_clean_add
      · -- Nothing found in the end is nothing found at any point before.
        obtain ⟨rightClean, _⟩ := clean_inspectShape.mp clean
        obtain ⟨keyClean, atRight, toRight, rightLinked, inRight, rfl, rfl⟩ :=
          inductionHypothesis less (Nat.lt_succ_self less) onRight rightClean
        have keyed := eq_of_inspectKey usable live atKey
        subst keyed
        obtain ⟨entered, atLeft, toLeft, leftLinked, inLeft, rfl, rfl⟩ :=
          inductionHypothesis less (Nat.lt_succ_self less) onLeft (clean_of_inspectKey keyClean)
        obtain ⟨start, up⟩ := clean_enter.mp entered
        refine ⟨start, .node atLeft slot atRight, rfl,
          ⟨up, toLeft.symm, toRight.symm, leftLinked, rightLinked⟩, ?_, ?_, ?_⟩
        · intro inner member
          rcases Shape.mem_slots_node.mp member with rfl | within | within
          · exact live
          · exact inLeft inner within
          · exact inRight inner within
        · exact height_node.symm
        · rw [survey, enter_eq up]

/-- An inspection comes to an end: with a step for every node that it may still enter, and
one more, it answers, and it does not enter more nodes than the tree counts. -/
theorem inspectWithin_answers (usable : tree.graph.Usable)
    (behind : ∀ previous ∈ inspection.previous, previous < tree.graph.live)
    (within : inspection.reached ≤ tree.count)
    (enough : tree.count < fuel + inspection.reached) :
    ∃ contribution after,
      tree.inspectWithin order fuel start parent inspection = .ok (contribution, after) ∧
        inspection.reached ≤ after.reached ∧ after.reached ≤ tree.count ∧
          ∀ previous ∈ after.previous, previous < tree.graph.live := by
  induction fuel generalizing start parent inspection with
  | zero => omega
  | succ fuel inductionHypothesis =>
      cases start with
      | none =>
          exact ⟨_, _, inspectWithin_none, Nat.le_refl _, within, behind⟩
      | some slot =>
          by_cases shut : ¬(slot < tree.graph.live ∧ inspection.reached < tree.count)
          · obtain ⟨issue, found⟩ := @inspectWithin_shut tree order slot inspection parent fuel shut
            refine ⟨_, _, found, ?_, ?_, ?_⟩
            · rw [Inspection.reached_add, Inspection.reached_follow]
            · rwa [Inspection.reached_add]
            · rwa [Inspection.previous_add]
          · obtain ⟨live, room⟩ := not_not.mp shut
            have entered : (tree.graph.enter slot parent inspection).reached =
              inspection.reached + 1 := reached_enter
            obtain ⟨left, afterLeft, onLeft, moreLeft, fewLeft, behindLeft⟩ :=
              @inductionHypothesis (tree.graph.enter slot parent inspection)
                (tree.graph.headers slot).left (some slot) (by rwa [previous_enter]) (by omega)
                (by omega)
            have compared : (tree.graph.inspectKey order slot afterLeft).reached =
              afterLeft.reached := reached_inspectKey
            obtain ⟨right, afterRight, onRight, moreRight, fewRight, behindRight⟩ :=
              @inductionHypothesis (tree.graph.inspectKey order slot afterLeft)
                (tree.graph.headers slot).right (some slot) (behind_inspectKey live) (by omega)
                (by omega)
            refine ⟨_, _, (inspectWithin_eq_ok_iff usable live room).mpr (.node onLeft
              (inspectKey_eq_ok usable live behindLeft) onRight), ?_, ?_, ?_⟩
            · rw [reached_inspectShape]
              omega
            · rwa [reached_inspectShape]
            · rwa [previous_inspectShape]

end Graph

end Tree

end SlabTree
