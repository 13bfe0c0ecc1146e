import SlabTree.Proofs.Tree.Soundness
import SlabTree.Tree.Cursor

/-!
# Walking through a linked shape

Going to one side as far as possible leads to the first or the last slot of a
shape, and the links lead from every slot to the one that comes next in order.
-/

namespace SlabTree

namespace Shape

/-- The slot at one end. -/
def end? (side : Side) (shape : Shape) : Option Slot :=
  match side with
  | .left => shape.slots.head?
  | .right => shape.slots.getLast?

theorem end?_join {side : Side} {near far : Shape} {slot : Slot} :
    (join side near slot far).end? side = (near.end? side).or (some slot) := by
  cases side
  · exact List.head?_append
  · change (far.slots ++ slot :: near.slots).getLast? = near.slots.getLast?.or (some slot)
    rw [List.getLast?_append, List.getLast?_cons]
    cases near.slots.getLast? <;> rfl

theorem mem_slots_of_end? {side : Side} {shape : Shape} {slot : Slot}
    (last : shape.end? side = some slot) : slot ∈ shape.slots := by
  cases side
  · exact List.mem_of_head? last
  · exact List.mem_of_getLast? last

/-- The first slot of a shape stands at the end of the way to the left. -/
theorem exists_first {shape : Shape} (used : shape ≠ leaf) :
    ∃ context slot right, shape = Context.fill context (node leaf slot right) ∧
      Context.before context = [] := by
  induction shape with
  | leaf => contradiction
  | node left slot right onLeft onRight =>
      cases left with
      | leaf => exact ⟨[], slot, right, rfl, rfl⟩
      | node inner middle outer =>
          obtain ⟨context, first, beyond, split, nothing⟩ := onLeft (by simp)
          refine ⟨context ++ [⟨.left, slot, right⟩], first, beyond, ?_, ?_⟩
          · rw [Context.fill_append, ← split]
            rfl
          · rw [Context.before_append, nothing]
            rfl

end Shape

namespace Tree.Graph

variable {graph : Graph} {tree : Tree} {shape : Shape} {context : Context} {slot : Slot}

/-- Going to one side leads to the end of the shape there. -/
theorem outermostWithin_eq {parent : Option Slot} (side : Side) (usable : graph.Usable)
    (linked : Linked graph.headers parent shape) (live : ∀ slot ∈ shape.slots, slot < graph.live)
    (looks : tree.graph = graph) (top : shape.root? = some slot) {fuel : Nat}
    (enough : shape.height ≤ fuel) :
    ∃ last, shape.end? side = some last ∧ tree.outermostWithin side fuel slot = .ok last := by
  induction fuel generalizing shape slot parent with
  | zero =>
      rw [Shape.height_eq_zero_iff.mp (Nat.le_zero.mp enough)] at top
      contradiction
  | succ fuel inductionHypothesis =>
      have used : shape ≠ .leaf := by
        rintro rfl
        contradiction
      obtain ⟨near, middle, far, rfl⟩ := Shape.exists_join side used
      rw [Shape.root?_join] at top
      cases top
      obtain ⟨_, toNear, _, nearLinked, _⟩ := linked_join.mp linked
      have here : slot < graph.live := live slot (Shape.mem_slots_join.mpr (Or.inl rfl))
      rw [Shape.height_join] at enough
      rw [Shape.end?_join]
      simp only [outermostWithin, child_eq_ok usable here looks, toNear, Bind.bind, Except.bind]
      cases nearTop : near.root? with
      | none =>
          rw [Shape.root?_eq_none_iff] at nearTop
          subst nearTop
          exact ⟨slot, by cases side <;> rfl, rfl⟩
      | some next =>
          obtain ⟨last, isEnd, walk⟩ := inductionHypothesis nearLinked
            (fun inner member => live inner (Shape.mem_slots_join.mpr (Or.inr (Or.inl member))))
            nearTop (by omega)
          exact ⟨last, by rw [isEnd]; rfl, walk⟩

/-- Going to one side below a live slot. -/
theorem outermost_eq {parent : Option Slot} (side : Side) (usable : graph.Usable)
    (linked : Linked graph.headers parent shape) (live : ∀ slot ∈ shape.slots, slot < graph.live)
    (few : shape.slots.length ≤ graph.live) (looks : tree.graph = graph)
    (top : shape.root? = some slot) :
    ∃ last, shape.end? side = some last ∧ tree.outermost side slot = .ok last := by
  have sameLive : tree.arena.live = graph.live := by
    rw [← looks]
    rfl
  rw [outermost, sameLive]
  exact outermostWithin_eq side usable linked live looks top
    (Nat.le_succ_of_le (Nat.le_trans shape.height_le_length few))

/-- Climbing from a place leads to the slot right behind it. -/
theorem Focused.climbWithin_eq (focused : graph.Focused context shape) (usable : graph.Usable)
    (looks : tree.graph = graph) (top : shape.root? = some slot) {fuel : Nat}
    (enough : context.length ≤ fuel) :
    tree.climbWithin fuel slot (Context.parent? context) =
      .ok (Context.after context).head? := by
  induction context generalizing shape slot fuel with
  | nil => cases fuel <;> rfl
  | cons frame rest inductionHypothesis =>
      rcases frame with ⟨side, parent, sibling⟩
      have node := focused_cons.mp focused
      have live : parent < graph.live := focused.liveAbove parent List.mem_cons_self
      obtain ⟨up, toHole, toSibling, _⟩ := focused.above
      have atTop : slot ∈ shape.slots := Shape.mem_slots_of_root? top
      cases fuel with
      | zero => contradiction
      | succ fuel =>
          simp only [Context.parent?_cons, climbWithin, child_eq_ok usable live looks, Bind.bind,
            Except.bind]
          cases side with
          | left =>
              rw [if_pos (toHole.trans top)]
              rfl
          | right =>
              have notLeft : (graph.headers parent).child .left ≠ some slot := by
                intro same
                have inSibling := Shape.mem_slots_of_root? (toSibling.symm.trans same)
                exact focused.apart (List.mem_cons_of_mem _ (List.mem_append_left _ inSibling))
                  atTop
              rw [if_neg notLeft, link_eq_ok usable live looks]
              have onward := inductionHypothesis node Shape.root?_join
                (Nat.le_of_succ_le_succ enough)
              rw [← up] at onward
              exact onward

/-- The slot that comes next in order, found through the links. -/
theorem Sound.successor_eq (sound : graph.Sound shape) (looks : tree.graph = graph)
    {earlier later : List Slot} (order : shape.slots = earlier ++ slot :: later) :
    tree.successor slot = .ok later.head? := by
  obtain ⟨context, left, right, split⟩ :=
    Context.exists_fill_of_mem (show slot ∈ shape.slots by simp [order])
  have focused := sound.focused split.symm
  have live : slot < graph.live := focused.liveBelow slot (by simp [Shape.slots])
  have around := Context.slots_fill_node context left slot right
  rw [← split] at around
  obtain ⟨_, sameLater⟩ := split_unique (around ▸ sound.spans.nodup) (around.symm.trans order)
  obtain ⟨up, _, rightLink, _, rightLinked⟩ := focused.below
  have toRight : (graph.headers slot).child .right = right.root? := rightLink
  have sameLive : tree.arena.live = graph.live := by
    rw [← looks]
    rfl
  simp only [successor, child_eq_ok sound.usable live looks, toRight, Bind.bind, Except.bind]
  rw [← sameLater]
  cases top : right.root? with
  | none =>
      rw [Shape.root?_eq_none_iff.mp top]
      have enough : context.length ≤ tree.arena.live + 1 := by
        have few := focused.length_le
        have short := Context.length_le_slots context
        omega
      simp only [link_eq_ok sound.usable live looks, Header.link_parent, up]
      exact focused.climbWithin_eq sound.usable looks rfl enough
  | some next =>
      have few : right.slots.length ≤ graph.live := by
        rw [← sound.length_eq, around]
        simp only [List.length_append, List.length_cons]
        omega
      obtain ⟨last, isFirst, walk⟩ := outermost_eq .left sound.usable rightLinked
        (fun inner member => focused.liveBelow inner (by simp [Shape.slots, member])) few looks top
      have isHead : right.slots.head? = some last := isFirst
      simp only [leftmost, walk, List.head?_append, isHead]
      rfl

/-! ## All records -/

theorem Sound.root_eq (sound : graph.Sound shape) (looks : tree.graph = graph) :
    tree.root = shape.root? := by
  rw [← sound.spans.root_eq, ← looks]
  rfl

/-- From a slot on, the links lead through the slots behind it. -/
theorem Sound.recordsFrom_eq (sound : graph.Sound shape) (looks : tree.graph = graph)
    {earlier later : List Slot} (order : shape.slots = earlier ++ later) :
    Cursor.recordsFrom tree later.length later.head? = .ok (later.map graph.payloads) := by
  induction later generalizing earlier with
  | nil => rfl
  | cons slot later inductionHypothesis =>
      have live : slot < graph.live := sound.spans.live slot (by simp [order])
      have onward : shape.slots = (earlier ++ [slot]) ++ later := by simp [order]
      simp only [List.length_cons, List.head?_cons, Cursor.recordsFrom,
        sound.successor_eq looks order, payload_eq_ok sound.usable live looks,
        inductionHypothesis onward, Bind.bind, Except.bind, List.map_cons]

/-- The cursor starts at the first slot. -/
theorem Sound.cursor_eq (sound : graph.Sound shape) (looks : tree.graph = graph) :
    tree.cursor = .ok ⟨shape.slots.head?, shape.slots.length⟩ := by
  have count : tree.count = shape.slots.length := by
    rw [sound.length_eq, ← sound.count_eq, ← looks]
    rfl
  rw [cursor, sound.root_eq looks, count]
  cases top : shape.root? with
  | none =>
      rw [Shape.root?_eq_none_iff.mp top]
      rfl
  | some slot =>
      obtain ⟨first, isFirst, walk⟩ := outermost_eq .left sound.usable sound.spans.linked
        sound.spans.live sound.spans.length_le looks top
      have isHead : shape.slots.head? = some first := isFirst
      simp only [leftmost, walk, isHead]
      rfl

/-- Walking through a sound tree yields its records in order. -/
theorem Sound.records_eq (sound : graph.Sound shape) (looks : tree.graph = graph) :
    tree.records = .ok (graph.records shape) := by
  simp only [Tree.records, sound.cursor_eq looks, Bind.bind, Except.bind]
  exact sound.recordsFrom_eq looks (List.nil_append shape.slots).symm

/-- The record at an end of a sound tree is the first or the last one in order. -/
theorem Sound.extreme_eq (sound : graph.Sound shape) (looks : tree.graph = graph) (side : Side) :
    tree.extreme side = .ok ((shape.end? side).elim (.error .emptyTree)
      fun slot => .ok (graph.payloads slot)) := by
  rw [extreme, sound.root_eq looks]
  cases top : shape.root? with
  | none =>
      rw [Shape.root?_eq_none_iff.mp top]
      cases side <;> rfl
  | some slot =>
      obtain ⟨last, isEnd, walk⟩ := outermost_eq side sound.usable sound.spans.linked
        sound.spans.live sound.spans.length_le looks top
      have live : last < graph.live := sound.spans.live last (Shape.mem_slots_of_end? isEnd)
      simp only [walk, payload_eq_ok sound.usable live looks, isEnd, Bind.bind, Except.bind]
      rfl

end Tree.Graph

end SlabTree
