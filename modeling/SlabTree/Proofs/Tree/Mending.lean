import SlabTree.Proofs.Session
import SlabTree.Proofs.Tree.Context

/-!
# Mending shapes

A node whose sides differ by two levels is mended by lifting its taller child,
which is straightened first if it leans the other way.  Going up from a hole whose
filling grew or shrank by one level and mending each node on the way makes the
whole shape balanced again, with all slots in the order in which they were.
-/

namespace SlabTree

/-- How a node was mended: by lifting `pivot` above `slot`, or by lifting `top`
first above `pivot` and then above `slot`. -/
inductive Mend
  | single (side : Side) (slot pivot : Slot)
  | double (side : Side) (slot pivot top : Slot)
  deriving DecidableEq, Repr

namespace Mend

/-- What is logged of a mend. -/
def log : Mend → Journal
  | single side slot pivot => ⟨#[.rotate side slot pivot], 0⟩
  | double side slot pivot top => ⟨#[.rotate side.flip pivot top, .rotate side slot top], 0⟩

/-- What is logged of mends, one after the other. -/
def logAll : List Mend → Journal
  | [] => {}
  | mend :: rest => mend.log ++ logAll rest

/-- The counters with a mend counted. -/
def count (counters : Counters) : Mend → Counters
  | single .. => counters.countSingle
  | double .. => counters.countDouble

/-- The counters with mends counted, one after the other. -/
def countAll (counters : Counters) (mends : List Mend) : Counters :=
  mends.foldl count counters

theorem logAll_append (first second : List Mend) :
    logAll (first ++ second) = logAll first ++ logAll second := by
  induction first with
  | nil => rw [List.nil_append, logAll, Journal.empty_append]
  | cons mend rest inductionHypothesis =>
      rw [List.cons_append, logAll, inductionHypothesis, logAll, Journal.append_assoc]

/-- Mends take no comparisons. -/
@[simp]
theorem comparisons_logAll (mends : List Mend) : (logAll mends).comparisons = 0 := by
  induction mends with
  | nil => rfl
  | cons mend rest inductionHypothesis =>
      rw [logAll, Journal.comparisons_append, inductionHypothesis]
      cases mend <;> rfl

theorem countAll_append (counters : Counters) (first second : List Mend) :
    countAll counters (first ++ second) = countAll (countAll counters first) second :=
  List.foldl_append

/-- What no single mend changes, no sequence of them does. -/
theorem part_countAll {α : Type} {part : Counters → α}
    (same : ∀ counters mend, part (count counters mend) = part counters) (counters : Counters)
    (mends : List Mend) : part (countAll counters mends) = part counters := by
  induction mends generalizing counters with
  | nil => rfl
  | cons mend rest inductionHypothesis =>
      exact (inductionHypothesis (count counters mend)).trans (same counters mend)

theorem relocations_countAll (counters : Counters) (mends : List Mend) :
    (countAll counters mends).relocations = counters.relocations :=
  part_countAll (fun _ mend => by cases mend <;> rfl) counters mends

end Mend

namespace Shape

/-- A node taken apart, as seen from a side. -/
def parts (side : Side) : Shape → Option (Shape × Slot × Shape)
  | leaf => none
  | node left slot right =>
    match side with
    | .left => some (left, slot, right)
    | .right => some (right, slot, left)

@[simp]
theorem parts_join (side : Side) (near : Shape) (slot : Slot) (far : Shape) :
    parts side (join side near slot far) = some (near, slot, far) := by
  cases side <;> rfl

/-- A node whose near side is too tall by two levels, mended. -/
def mend (side : Side) (near : Shape) (slot : Slot) (far : Shape) : Shape × List Mend :=
  match near.parts side with
  | none => (join side near slot far, [])
  | some (outer, pivot, inner) =>
    if inner.height ≤ outer.height then
      (join side outer pivot (join side inner slot far), [.single side slot pivot])
    else
      match inner.parts side with
      | none => (join side near slot far, [])
      | some (close, top, distant) =>
        (join side (join side outer pivot close) top (join side distant slot far),
          [.double side slot pivot top])

/-- A node, mended where its sides differ by two levels. -/
def settle : Shape → Shape × List Mend
  | leaf => (leaf, [])
  | node left slot right =>
    if left.height = right.height + 2 then
      mend .left left slot right
    else if right.height = left.height + 2 then
      mend .right right slot left
    else
      (node left slot right, [])

/-- The three ways in which a node with balanced sides settles. -/
inductive Settles : Shape → Shape → List Mend → Prop
  | even {left right : Shape} {slot : Slot} (leftLow : left.height ≤ right.height + 1)
      (rightLow : right.height ≤ left.height + 1) :
      Settles (node left slot right) (node left slot right) []
  | single {side : Side} {outer inner far : Shape} {slot pivot : Slot}
      (tall : outer.height = far.height + 1) (leans : inner.height ≤ outer.height) :
      Settles (join side (join side outer pivot inner) slot far)
        (join side outer pivot (join side inner slot far)) [.single side slot pivot]
  | double {side : Side} {outer close distant far : Shape} {slot pivot top : Slot}
      (low : outer.height = far.height)
      (tall : (join side close top distant).height = far.height + 1) :
      Settles (join side (join side outer pivot (join side close top distant)) slot far)
        (join side (join side outer pivot close) top (join side distant slot far))
        [.double side slot pivot top]

variable {side : Side} {near far shape settled : Shape} {slot : Slot} {mends : List Mend}

theorem settle_of_heavy (heavy : near.height = far.height + 2) :
    settle (join side near slot far) = mend side near slot far := by
  cases side
  · exact if_pos heavy
  · have light : ¬ far.height = near.height + 2 := by omega
    exact (if_neg light).trans (if_pos heavy)

/-- A node too heavy on one side settles. -/
theorem settles_of_heavy (heavy : near.height = far.height + 2) (balanced : near.Balanced) :
    ∃ settled mends, settle (join side near slot far) = (settled, mends) ∧
      Settles (join side near slot far) settled mends := by
  rw [settle_of_heavy heavy]
  have used : near ≠ leaf := by
    rintro rfl
    simp [height] at heavy
  obtain ⟨outer, pivot, inner, rfl⟩ := exists_join side used
  obtain ⟨outerLow, innerLow, _, _⟩ := balanced_join.mp balanced
  rw [height_join] at heavy
  simp only [mend, parts_join]
  by_cases leans : inner.height ≤ outer.height
  · rw [if_pos leans]
    exact ⟨_, _, rfl, .single (by omega) leans⟩
  · rw [if_neg leans]
    have innerUsed : inner ≠ leaf := by
      rintro rfl
      exact leans (Nat.zero_le _)
    obtain ⟨close, top, distant, rfl⟩ := exists_join side innerUsed
    rw [parts_join]
    exact ⟨_, _, rfl, .double (by omega) (by omega)⟩

/-- Every node with balanced sides that differ by two levels at most settles. -/
theorem settles_settle {left right : Shape} (leftBalanced : left.Balanced)
    (rightBalanced : right.Balanced) (leftLow : left.height ≤ right.height + 2)
    (rightLow : right.height ≤ left.height + 2) :
    ∃ settled mends, settle (node left slot right) = (settled, mends) ∧
      Settles (node left slot right) settled mends := by
  by_cases leftHeavy : left.height = right.height + 2
  · exact @settles_of_heavy .left _ _ _ leftHeavy leftBalanced
  · by_cases rightHeavy : right.height = left.height + 2
    · exact @settles_of_heavy .right _ _ _ rightHeavy rightBalanced
    · refine ⟨_, _, (if_neg leftHeavy).trans (if_neg rightHeavy), ?_⟩
      exact .even (by omega) (by omega)

/-- Every node with balanced sides that differ by two levels at most settles, seen
from either side. -/
theorem settles_join (side : Side) (slot : Slot) (nearBalanced : near.Balanced)
    (farBalanced : far.Balanced) (nearLow : near.height ≤ far.height + 2)
    (farLow : far.height ≤ near.height + 2) :
    ∃ settled mends, settle (join side near slot far) = (settled, mends) ∧
      Settles (join side near slot far) settled mends := by
  cases side
  · exact settles_settle nearBalanced farBalanced nearLow farLow
  · exact settles_settle farBalanced nearBalanced farLow nearLow

/-- Settling keeps the slots in order. -/
theorem Settles.slots_eq (settles : Settles shape settled mends) :
    settled.slots = shape.slots := by
  cases settles with
  | even => rfl
  | single => exact slots_lift _ _ _ _ _ _
  | @double side outer close distant far slot pivot top =>
      calc
        (join side (join side outer pivot close) top (join side distant slot far)).slots
            = (join side (join side (join side outer pivot close) top distant) slot far).slots :=
          slots_lift _ _ _ _ _ _
        _ = (join side (join side outer pivot (join side close top distant)) slot far).slots :=
          slots_join_congr (slots_lift _ _ _ _ _ _).symm

/-- Both sides of a node are balanced. -/
def SidesBalanced : Shape → Prop
  | leaf => True
  | node left _ right => left.Balanced ∧ right.Balanced

theorem sidesBalanced_join :
    (join side near slot far).SidesBalanced ↔ near.Balanced ∧ far.Balanced := by
  cases side
  · rfl
  · exact and_comm

theorem SidesBalanced.height_le (sides : shape.SidesBalanced)
    (few : shape.slots.length < 0xffffffff) : shape.height ≤ 46 := by
  cases shape with
  | leaf => exact Nat.zero_le 46
  | node left slot right =>
      simp only [slots, List.length_append, List.length_cons] at few
      have leftLow := sides.1.height_le (by omega)
      have rightLow := sides.2.height_le (by omega)
      simp only [height]
      omega

/-- The sides of a node differ by two levels. -/
def Lopsided : Shape → Prop
  | leaf => False
  | node left _ right => left.height = right.height + 2 ∨ right.height = left.height + 2

theorem lopsided_join :
    (join side near slot far).Lopsided ↔
      near.height = far.height + 2 ∨ far.height = near.height + 2 := by
  cases side
  · rfl
  · exact or_comm

/-- A node with balanced sides is balanced once it is settled. -/
theorem Settles.balanced (settles : Settles shape settled mends)
    (sides : shape.SidesBalanced) : settled.Balanced := by
  cases settles with
  | even leftLow rightLow => exact ⟨leftLow, rightLow, sides⟩
  | single tall leans =>
      obtain ⟨near, farBalanced⟩ := sidesBalanced_join.mp sides
      obtain ⟨outerLow, innerLow, outerBalanced, innerBalanced⟩ := balanced_join.mp near
      refine balanced_join.mpr ⟨?_, ?_, outerBalanced, balanced_join.mpr
        ⟨by omega, by omega, innerBalanced, farBalanced⟩⟩
      all_goals
        rw [height_join]
        omega
  | double low tall =>
      obtain ⟨near, farBalanced⟩ := sidesBalanced_join.mp sides
      obtain ⟨_, _, outerBalanced, inner⟩ := balanced_join.mp near
      obtain ⟨closeLow, distantLow, closeBalanced, distantBalanced⟩ := balanced_join.mp inner
      rw [height_join] at tall
      refine balanced_join.mpr ⟨?_, ?_,
        balanced_join.mpr ⟨by omega, by omega, outerBalanced, closeBalanced⟩,
        balanced_join.mpr ⟨by omega, by omega, distantBalanced, farBalanced⟩⟩
      all_goals
        simp only [height_join]
        omega

/-- Settling a node leaves it as tall as it was or, where its sides differed by
two levels, makes it one level lower. -/
theorem Settles.height_eq (settles : Settles shape settled mends)
    (sides : shape.SidesBalanced) :
    settled.height = shape.height ∨ settled.height + 1 = shape.height ∧ shape.Lopsided := by
  cases settles with
  | even => exact Or.inl rfl
  | single tall leans =>
      obtain ⟨near, _⟩ := sidesBalanced_join.mp sides
      obtain ⟨outerLow, innerLow, _⟩ := balanced_join.mp near
      rw [lopsided_join]
      simp only [height_join]
      omega
  | double low tall =>
      obtain ⟨near, _⟩ := sidesBalanced_join.mp sides
      obtain ⟨_, _, _, inner⟩ := balanced_join.mp near
      obtain ⟨closeLow, distantLow, _⟩ := balanced_join.mp inner
      rw [lopsided_join]
      simp only [height_join] at tall ⊢
      omega

end Shape

/-! ## Mending all the way up -/

namespace Context

open Shape (Settles)

/-- The shape with the hole filled and every node above it settled, from the hole
upwards. -/
def rebalance : Context → Shape → Shape × List Mend
  | [], shape => (shape, [])
  | frame :: rest, shape =>
    let (settled, mends) := (frame.fill shape).settle
    let (whole, others) := rebalance rest settled
    (whole, mends ++ others)

/-- The way up with what settles at each node. -/
inductive Rebalances : Context → Shape → Shape → List Mend → Prop
  | done {shape : Shape} : Rebalances [] shape shape []
  | up {frame : Frame} {rest : Context} {shape settled whole : Shape} {mends others : List Mend}
      (sides : (frame.fill shape).SidesBalanced)
      (settle_eq : (frame.fill shape).settle = (settled, mends))
      (settles : Settles (frame.fill shape) settled mends)
      (above : Rebalances rest settled whole others) :
      Rebalances (frame :: rest) shape whole (mends ++ others)

variable {context : Context} {shape old whole : Shape} {mends : List Mend}

/-- There is one way up, the one that is computed. -/
theorem Rebalances.rebalance_eq (rebalances : Rebalances context shape whole mends) :
    rebalance context shape = (whole, mends) := by
  induction rebalances with
  | done => rfl
  | up _ settle_eq _ _ above => simp only [rebalance, settle_eq, above]

/-- Rebalancing keeps the slots in order. -/
theorem Rebalances.slots_eq (rebalances : Rebalances context shape whole mends) :
    whole.slots = (fill context shape).slots := by
  induction rebalances with
  | done => rfl
  | up _ _ settles _ above => rw [above, fill, slots_fill_congr settles.slots_eq]

/-- When the filling of a balanced shape is exchanged for another balanced one
that is one level taller or lower at most, every node on the way up settles, the
outcome is balanced, and it is one level taller or lower at most. -/
theorem exists_rebalances (balanced : (fill context old).Balanced) (new : shape.Balanced)
    (notTaller : shape.height ≤ old.height + 1) (notLower : old.height ≤ shape.height + 1) :
    ∃ whole mends, Rebalances context shape whole mends ∧ whole.Balanced ∧
      whole.height ≤ (fill context old).height + 1 ∧
        (fill context old).height ≤ whole.height + 1 := by
  induction context generalizing old shape with
  | nil => exact ⟨shape, [], .done, new, notTaller, notLower⟩
  | cons frame rest inductionHypothesis =>
      obtain ⟨oldLow, siblingLow, _, siblingBalanced⟩ :=
        Shape.balanced_join.mp (balanced_of_fill balanced)
      have sides : (frame.fill shape).SidesBalanced :=
        Shape.sidesBalanced_join.mpr ⟨new, siblingBalanced⟩
      obtain ⟨settled, mends, settle_eq, settles⟩ := Shape.settles_join frame.side frame.slot
        new siblingBalanced (by omega) (by omega)
      have oldHeight : (frame.fill old).height = max old.height frame.sibling.height + 1 :=
        Shape.height_join
      have newHeight : (frame.fill shape).height = max shape.height frame.sibling.height + 1 :=
        Shape.height_join
      have lopsided : (frame.fill shape).Lopsided ↔ shape.height = frame.sibling.height + 2 ∨
          frame.sibling.height = shape.height + 2 := Shape.lopsided_join
      have heights : settled.height = (frame.fill shape).height ∨
          settled.height + 1 = (frame.fill shape).height ∧ (frame.fill shape).Lopsided :=
        settles.height_eq sides
      have close : settled.height ≤ (frame.fill old).height + 1 ∧
          (frame.fill old).height ≤ settled.height + 1 := by
        rw [oldHeight]
        rcases heights with same | ⟨lower, uneven⟩
        · omega
        · rcases lopsided.mp uneven with heavy | light
          · omega
          · omega
      obtain ⟨whole, others, above, rest⟩ :=
        inductionHypothesis balanced (settles.balanced sides) close.1 close.2
      exact ⟨whole, mends ++ others, .up sides settle_eq settles above, rest⟩

end Context

end SlabTree
