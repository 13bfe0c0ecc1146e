import SlabTree.Proofs.Tree.Heights

/-!
# How often trees are rotated

The walk to the root always goes all the way, but it has little to mend.  Above a node that is
as tall as what stood in its place nothing is to be mended at all.  A shape that has grown
stays uneven as long as the growth is passed on, so that the first mend ends it.  A shape that
has shrunk may be mended again and again, but each mend takes two levels of what stood there
before.
-/

namespace SlabTree

namespace Shape

/-- The sides of a node are not equally tall. -/
def Uneven : Shape → Prop
  | leaf => False
  | node left _ right => left.height ≠ right.height

variable {side : Side} {near far old settled : Shape} {slot : Slot} {mends : List Mend}

theorem uneven_join : (join side near slot far).Uneven ↔ near.height ≠ far.height := by
  cases side
  · rfl
  · exact ne_comm

/-! ## One node -/

theorem length_mend_le : (mend side near slot far).2.length ≤ 1 := by
  unfold mend
  repeat' split
  all_goals simp

/-- Settling a node takes one mend at most. -/
theorem length_le_of_settle {shape : Shape} (settle_eq : shape.settle = (settled, mends)) :
    mends.length ≤ 1 := by
  have few : shape.settle.2.length ≤ 1 := by
    unfold settle
    split
    · exact Nat.zero_le 1
    · split
      · exact length_mend_le
      · split
        · exact length_mend_le
        · exact Nat.zero_le 1
  rwa [settle_eq] at few

/-- A node that is balanced is not mended. -/
theorem settle_of_even (nearLow : near.height ≤ far.height + 1)
    (farLow : far.height ≤ near.height + 1) :
    settle (join side near slot far) = (join side near slot far, []) := by
  cases side
  · exact (if_neg (by omega)).trans (if_neg (by omega))
  · exact (if_neg (by omega)).trans (if_neg (by omega))

/-- Mending a node whose tall side is uneven makes it one level lower. -/
theorem height_mend (heavy : near.height = far.height + 2) (balanced : near.Balanced)
    (uneven : near.Uneven) : (mend side near slot far).1.height = far.height + 2 := by
  have used : near ≠ leaf := by
    rintro rfl
    exact uneven
  obtain ⟨outer, pivot, inner, rfl⟩ := exists_join side used
  obtain ⟨outerLow, innerLow, _, innerBalanced⟩ := balanced_join.mp balanced
  rw [uneven_join] at uneven
  rw [height_join] at heavy
  simp only [mend, parts_join]
  by_cases leans : inner.height ≤ outer.height
  · rw [if_pos leans]
    simp only [height_join]
    omega
  · rw [if_neg leans]
    have innerUsed : inner ≠ leaf := by
      rintro rfl
      exact leans (Nat.zero_le _)
    obtain ⟨close, top, distant, rfl⟩ := exists_join side innerUsed
    obtain ⟨closeLow, distantLow, _⟩ := balanced_join.mp innerBalanced
    rw [parts_join]
    simp only [height_join] at heavy uneven leans ⊢
    omega

/-- A node of which one side has grown by a level ends as tall as it was, or it is not mended
and passes the growth on, with uneven sides. -/
theorem settle_grown (grown : near.height = old.height + 1)
    (uneven : near.height ≤ 1 ∨ near.Uneven) (balanced : near.Balanced)
    (oldLow : old.height ≤ far.height + 1) (farLow : far.height ≤ old.height + 1)
    (settle_eq : settle (join side near slot far) = (settled, mends)) :
    settled.height = (join side old slot far).height ∧ mends.length ≤ 1 ∨
      settled.height = (join side old slot far).height + 1 ∧ mends = [] ∧ settled.Uneven := by
  rw [height_join]
  by_cases heavy : near.height = far.height + 2
  -- Lifting an even side would keep the growth; an uneven one loses a level.
  · have lower : settled.height = far.height + 2 := by
      have mended := @height_mend side _ _ slot heavy balanced (uneven.resolve_left (by omega))
      rwa [← settle_of_heavy heavy, settle_eq] at mended
    exact Or.inl ⟨by omega, length_le_of_settle settle_eq⟩
  · rw [settle_of_even (by omega) (by omega)] at settle_eq
    cases settle_eq
    rw [height_join, uneven_join]
    rcases Nat.lt_or_ge old.height far.height with hidden | visible
    · exact Or.inl ⟨by omega, Nat.zero_le 1⟩
    · exact Or.inr ⟨by omega, rfl, by omega⟩

/-- A node of which one side has shrunk by a level ends as tall as it was or a level lower, and
a mend took two levels of it. -/
theorem settle_shrunk (shrunk : old.height = near.height + 1)
    (nearBalanced : near.Balanced) (farBalanced : far.Balanced)
    (oldLow : old.height ≤ far.height + 1) (farLow : far.height ≤ old.height + 1)
    (settle_eq : settle (join side near slot far) = (settled, mends)) :
    ((join side old slot far).height = settled.height ∨
        (join side old slot far).height = settled.height + 1) ∧
      2 * mends.length + old.height ≤ (join side old slot far).height := by
  rw [height_join]
  by_cases light : far.height = near.height + 2
  · have few := length_le_of_settle settle_eq
    obtain ⟨_, _, again, settles⟩ := settles_join side slot nearBalanced farBalanced
      (by omega) (by omega)
    rw [settle_eq] at again
    cases again
    have heights := settles.height_eq (sidesBalanced_join.mpr ⟨nearBalanced, farBalanced⟩)
    rw [height_join] at heights
    constructor
    · rcases heights with same | ⟨lower, _⟩
      · exact Or.inl (by omega)
      · exact Or.inr (by omega)
    · omega
  · rw [settle_of_even (by omega) (by omega)] at settle_eq
    cases settle_eq
    rw [height_join]
    constructor
    · omega
    · simp only [List.length_nil]
      omega

end Shape

/-! ## All the way up -/

namespace Context

variable {context : Context} {shape old whole : Shape} {mends : List Mend}

theorem height_le_fill (context : Context) (shape : Shape) :
    shape.height ≤ (fill context shape).height :=
  Nat.le_trans (Nat.le_add_left _ _) (length_add_height_le context shape)

/-- Above a shape that is as tall as what stood in its place nothing is mended. -/
theorem Rebalances.level (rebalances : Rebalances context shape whole mends)
    (balanced : (fill context old).Balanced) (same : shape.height = old.height) :
    mends = [] ∧ whole.height = (fill context old).height := by
  induction rebalances generalizing old with
  | done => exact ⟨rfl, same⟩
  | @up frame rest shape settled whole mends others sides settle_eq settles above
      inductionHypothesis =>
      obtain ⟨oldLow, siblingLow, _⟩ := Shape.balanced_join.mp (balanced_of_fill balanced)
      rw [Frame.fill, Shape.settle_of_even (by omega) (by omega)] at settle_eq
      cases settle_eq
      have sameNode : (frame.fill shape).height = (frame.fill old).height := by
        rw [Frame.fill, Frame.fill, Shape.height_join, Shape.height_join, same]
      obtain ⟨nothing, height⟩ := inductionHypothesis balanced sameNode
      exact ⟨nothing, height⟩

/-- Above a shape that is taller by one level than what stood in its place, and uneven unless
it is a single slot, there is one mend at most, and the whole is taller by one level at most. -/
theorem Rebalances.grown (rebalances : Rebalances context shape whole mends)
    (balanced : (fill context old).Balanced) (taller : shape.height = old.height + 1)
    (uneven : shape.height ≤ 1 ∨ shape.Uneven) :
    mends.length ≤ 1 ∧ (fill context old).height ≤ whole.height ∧
      whole.height ≤ (fill context old).height + 1 := by
  induction rebalances generalizing old with
  | @done shape =>
      rw [fill]
      exact ⟨Nat.zero_le 1, by omega, by omega⟩
  | @up frame rest shape settled whole mends others sides settle_eq settles above
      inductionHypothesis =>
      obtain ⟨oldLow, siblingLow, _⟩ := Shape.balanced_join.mp (balanced_of_fill balanced)
      rcases Shape.settle_grown taller uneven (Shape.sidesBalanced_join.mp sides).1 oldLow
        siblingLow settle_eq with ⟨same, few⟩ | ⟨passed, rfl, still⟩
      -- Here the growth ends, with the only mend or without one: the rest of the way is level.
      · obtain ⟨rfl, height⟩ := above.level balanced same
        rw [List.append_nil]
        exact ⟨few, height.ge, by rw [height]; exact Nat.le_succ _⟩
      · exact inductionHypothesis balanced passed (Or.inr still)

/-- Above a shape that is lower by one level than what stood in its place, every mend took two
levels of what stood there, and the whole is lower by one level at most. -/
theorem Rebalances.shrunk (rebalances : Rebalances context shape whole mends)
    (balanced : (fill context old).Balanced) (lower : old.height = shape.height + 1) :
    2 * mends.length + old.height ≤ (fill context old).height ∧
      whole.height ≤ (fill context old).height ∧
        (fill context old).height ≤ whole.height + 1 := by
  induction rebalances generalizing old with
  | done =>
      rw [fill, List.length_nil]
      exact ⟨by omega, by omega, by omega⟩
  | @up frame rest shape settled whole mends others sides settle_eq settles above
      inductionHypothesis =>
      obtain ⟨oldLow, siblingLow, _⟩ := Shape.balanced_join.mp (balanced_of_fill balanced)
      obtain ⟨near, far⟩ := Shape.sidesBalanced_join.mp sides
      obtain ⟨heights, paid⟩ := Shape.settle_shrunk lower near far oldLow siblingLow settle_eq
      have here : (fill (frame :: rest) old).height = (fill rest (frame.fill old)).height := rfl
      have node : (frame.fill old).height =
          (Shape.join frame.side old frame.slot frame.sibling).height := rfl
      -- What this node's mend cost was paid by its height; what is above pays for itself.
      rcases heights with same | passed
      · obtain ⟨rfl, height⟩ := above.level balanced same.symm
        have upward := height_le_fill rest (frame.fill old)
        rw [List.append_nil]
        exact ⟨by omega, by omega, by omega⟩
      · obtain ⟨paidAbove, notTaller, notLower⟩ := inductionHypothesis balanced passed
        rw [List.length_append]
        exact ⟨by omega, notTaller, notLower⟩

end Context

/-! ## Counting rotations -/

/-- The two counters of rotations have gone up by `times` in all at most.  They wrap around. -/
def Counters.RotatedWithin (before after : Counters) (times : Nat) : Prop :=
  ∃ singles doubles, singles + doubles ≤ times ∧
    after.singleRotations = before.singleRotations + .ofNat singles ∧
      after.doubleRotations = before.doubleRotations + .ofNat doubles

theorem Counters.RotatedWithin.mono {before after : Counters} {times more : Nat}
    (rotated : RotatedWithin before after times) (enough : times ≤ more) :
    RotatedWithin before after more := by
  obtain ⟨singles, doubles, few, counted⟩ := rotated
  exact ⟨singles, doubles, Nat.le_trans few enough, counted⟩

/-- Every mend counts once. -/
theorem Mend.rotatedWithin_countAll (counters : Counters) (mends : List Mend) :
    counters.RotatedWithin (countAll counters mends) mends.length := by
  induction mends generalizing counters with
  | nil => exact ⟨0, 0, Nat.le_refl 0, by simp [countAll], by simp [countAll]⟩
  | cons mend rest inductionHypothesis =>
      obtain ⟨singles, doubles, few, single, double⟩ := inductionHypothesis (count counters mend)
      have onward : countAll counters (mend :: rest) = countAll (count counters mend) rest := rfl
      rw [onward, List.length_cons]
      cases mend with
      | single =>
          refine ⟨singles + 1, doubles, by omega, ?_, double⟩
          rw [single, Nat.add_comm singles, UInt64.ofNat_add, ← UInt64.add_assoc]
          rfl
      | double =>
          refine ⟨singles, doubles + 1, by omega, single, ?_⟩
          rw [double, Nat.add_comm doubles, UInt64.ofNat_add, ← UInt64.add_assoc]
          rfl

namespace Tree

variable {tree : Tree}

namespace Graph

variable {graph after : Graph} {shape whole : Shape} {order : KeyOrder} {record key : Bytes}
  {log : Journal}

/-- An insertion rotates once at most, and it adds one level at most. -/
theorem Inserts.economy (inserts : graph.Inserts shape order record (.ok ()) after whole log)
    (sound : graph.Sound shape) :
    graph.counters.RotatedWithin after.counters 1 ∧ shape.height ≤ whole.height ∧
      whole.height ≤ shape.height + 1 := by
  cases inserts with
  | inserted _ descent _ _ inserted =>
      have balanced := sound.balanced
      rw [← descent.fill_eq] at balanced ⊢
      obtain ⟨few, notLower, notTaller⟩ :=
        inserted.rebalances.grown balanced rfl (Or.inl (Nat.le_refl 1))
      refine ⟨?_, notLower, notTaller⟩
      rw [inserted.counters]
      exact (Mend.rotatedWithin_countAll graph.counters.countInsert _).mono few

/-- A removal rotates once for every two levels above the last at most, and it takes away one
level at most. -/
theorem Removes.economy (removes : graph.Removes shape order key (.ok ()) after whole log)
    (sound : graph.Sound shape) :
    0 < shape.height ∧ graph.counters.RotatedWithin after.counters ((shape.height - 1) / 2) ∧
      whole.height ≤ shape.height ∧ shape.height ≤ whole.height + 1 := by
  cases removes with
  | @removed context place left right child whole slot vacated side payloads after mends _ _
      descent prepared removed =>
      have balanced := sound.balanced
      have split := prepared.fill_eq.trans descent.fill_eq
      rw [← split] at balanced ⊢
      have lower : (Shape.join side child vacated .leaf).height = child.height + 1 := by
        rw [Shape.height_join, Shape.height, Nat.max_zero]
      obtain ⟨paid, notTaller, notLower⟩ := removed.rebalances.shrunk balanced lower
      rw [Shape.height_map]
      have few : mends.length ≤
          ((Context.fill place (.join side child vacated .leaf)).height - 1) / 2 := by omega
      have counted := (Mend.rotatedWithin_countAll graph.counters mends).mono few
      refine ⟨by omega, ?_, notTaller, notLower⟩
      rw [removed.counters]
      split
      · exact counted
      · exact counted

end Graph

/-- A record that goes into a reachable tree takes one rotation, single or double, and one level
more at most.  One that goes takes a rotation for every two levels above the last at most, and
one level less.  A tree without records has no levels, so that its height counts as one less
than that of a tree with one record. -/
theorem rotations_of_reachable (reachable : Reachable tree) :
    (∀ order record journal later,
      Tree.insert order record ⟨tree, journal⟩ = .ok (.ok ()) later →
        tree.counters.RotatedWithin later.state.counters 1 ∧
          ∃ before after, tree.height = .ok before ∧ later.state.height = .ok after ∧
            levels before ≤ levels after ∧ levels after ≤ levels before + 1) ∧
      ∀ order key journal later,
        Tree.remove order key ⟨tree, journal⟩ = .ok (.ok ()) later →
          ∃ h after, tree.height = .ok (some h) ∧ later.state.height = .ok after ∧
            tree.counters.RotatedWithin later.state.counters (h / 2) ∧
              levels after ≤ levels (some h) ∧ levels (some h) ≤ levels after + 1 := by
  obtain ⟨shape, sound⟩ := reachable.sound
  constructor
  · intro order record journal later ran
    obtain ⟨answer, after, whole, log, yields, inserts⟩ := sound.exists_inserts order record
    obtain ⟨rfl, rfl, _⟩ := final_of_yields yields rfl ran
    obtain ⟨rotated, heights⟩ := inserts.economy sound
    refine ⟨rotated, _, _, sound.height_eq rfl, (inserts.sound sound).height_eq rfl, ?_⟩
    rwa [levels_height?, levels_height?]
  · intro order key journal later ran
    obtain ⟨answer, after, whole, log, yields, removes⟩ := sound.exists_removes order key
    obtain ⟨rfl, rfl, _⟩ := final_of_yields yields rfl ran
    obtain ⟨used, rotated, heights⟩ := removes.economy sound
    have reported := sound.height_eq rfl
    cases top : shape.height? with
    | none =>
        rw [← levels_height?, top] at used
        contradiction
    | some h =>
        rw [← levels_height? shape, top] at rotated heights
        rw [top] at reported
        refine ⟨h, _, reported, (removes.sound sound).height_eq rfl, rotated, ?_⟩
        rwa [levels_height?]

/-- From a tree of five records and three levels, one more record takes a rotation and no level,
and one record less takes a rotation and a level. -/
theorem rotations_of_reachable_once :
    ∃ later longer shorter,
      grown? { maxNodes := 8, nodeSize := 2, keySize := 1 } Host.plain (.leading 1)
          [[1, 0], [2, 0], [3, 0], [4, 0], [5, 0]] = some later ∧
        later.state.counters.singleRotations = 2 ∧ later.state.height = .ok (some 2) ∧
        Tree.insert (.leading 1) [6, 0] ⟨later.state, {}⟩ = .ok (.ok ()) longer ∧
          longer.state.counters.singleRotations = 3 ∧
          (later.state.counters.RotatedWithin longer.state.counters 1 ∧
            ∃ before after, later.state.height = .ok before ∧ longer.state.height = .ok after ∧
              levels before ≤ levels after ∧ levels after ≤ levels before + 1) ∧
          Tree.remove (.leading 1) [1] ⟨later.state, {}⟩ = .ok (.ok ()) shorter ∧
            shorter.state.counters.singleRotations = 3 ∧
            ∃ h after, later.state.height = .ok (some h) ∧ shorter.state.height = .ok after ∧
              later.state.counters.RotatedWithin shorter.state.counters (h / 2) ∧
                levels after ≤ levels (some h) ∧ levels (some h) ≤ levels after + 1 := by
  have run :
      (grown? { maxNodes := 8, nodeSize := 2, keySize := 1 } Host.plain (.leading 1)
          [[1, 0], [2, 0], [3, 0], [4, 0], [5, 0]]).any (fun later : Session Tree =>
        match Tree.insert (.leading 1) [6, 0] ⟨later.state, {}⟩ with
        | .ok (.ok ()) longer =>
            match Tree.remove (.leading 1) [1] ⟨later.state, {}⟩ with
            | .ok (.ok ()) shorter =>
                decide (later.state.counters.singleRotations = 2 ∧
                  later.state.height = .ok (some 2) ∧
                    longer.state.counters.singleRotations = 3 ∧
                      shorter.state.counters.singleRotations = 3)
            | .ok (.error _) _ => false
            | .error _ _ => false
        | .ok (.error _) _ => false
        | .error _ _ => false) = true := by
    decide +kernel
  obtain ⟨later, grown, told⟩ := (Option.any_eq_true _ _).mp run
  obtain ⟨inserts, removes⟩ := rotations_of_reachable (.of_grown grown)
  split at told
  case h_1 longer inserted =>
    split at told
    case h_1 shorter removed =>
      obtain ⟨two, height, third, alsoThird⟩ := of_decide_eq_true told
      exact ⟨later, longer, shorter, grown, two, height, inserted, third,
        inserts _ _ _ _ inserted, removed, alsoThird, removes _ _ _ _ removed⟩
    all_goals exact absurd told Bool.false_ne_true
  all_goals exact absurd told Bool.false_ne_true

end Tree

end SlabTree
