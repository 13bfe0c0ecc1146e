import SlabTree.Proofs.Tree.Tour

/-!
# Damage that leaves the links alone

Where the links still spell out a shape, a tour goes over that shape once.  What it finds are
cached heights other than the real ones, slots with too much weight on one side, and records
that do not come after those before them.  It recomputes the heights from the leaves and asks
for every two neighbours once, so nothing that it finds at one slot depends on what is wrong at
another.
-/

namespace SlabTree

namespace Shape

variable {left right : Shape} {top slot : Slot}

/-- What stands on the two sides of a slot of the shape. -/
def sides : Shape → Slot → Shape × Shape
  | leaf, _ => (leaf, leaf)
  | node left top right, slot =>
      if slot = top then (left, right)
      else if slot ∈ left.slots then left.sides slot
      else right.sides slot

/-- The height of a slot of the shape above the leaves. -/
def heightAt (shape : Shape) (slot : Slot) : Int :=
  max ((shape.sides slot).1.height : Int) (shape.sides slot).2.height

/-- How many levels more there are on the right of a slot of the shape than on its left. -/
def balanceAt (shape : Shape) (slot : Slot) : Int :=
  (shape.sides slot).2.height - (shape.sides slot).1.height

theorem sides_top : (node left top right).sides top = (left, right) :=
  if_pos rfl

theorem sides_of_mem_left (nodup : (node left top right).slots.Nodup) (member : slot ∈ left.slots) :
    (node left top right).sides slot = left.sides slot := by
  have apart : slot ≠ top :=
    (List.nodup_append.mp nodup).2.2 slot member top List.mem_cons_self
  rw [sides, if_neg apart, if_pos member]

theorem sides_of_mem_right (nodup : (node left top right).slots.Nodup)
    (member : slot ∈ right.slots) : (node left top right).sides slot = right.sides slot := by
  obtain ⟨_, fromTop, apart⟩ := List.nodup_append.mp nodup
  have notTop : slot ≠ top := ne_of_mem_of_not_mem member (List.nodup_cons.mp fromTop).1
  have notLeft : slot ∉ left.slots := fun within =>
    apart slot within slot (List.mem_cons_of_mem _ member) rfl
  rw [sides, if_neg notTop, if_neg notLeft]

end Shape

/-- The progress after going over slots that are linked to one another. -/
def Progress.through (progress : Progress) (slots : List Slot) : Progress where
  reached := progress.reached + slots.length
  previous := (progress.previous.toList ++ slots).getLast?
  comparisons := progress.comparisons + ((progress.previous.toList ++ slots).length - 1)
  linksFollowed := progress.linksFollowed + slots.length

/-- The progress after going over slots and comparing one more with the last of them. -/
def Progress.past (progress : Progress) (slots : List Slot) (slot : Slot) : Progress :=
  { progress.through slots with
    previous := some slot
    comparisons := progress.comparisons + (progress.previous.toList ++ slots).length }

/-- Going over the left side, the top and the right side is going over the whole. -/
theorem Progress.through_node {progress : Progress} {slot : Slot} {left right : Shape} :
    (progress.enter.past left.slots slot).through right.slots =
      progress.through (Shape.node left slot right).slots := by
  have last : (slot :: right.slots).getLast? =
      (progress.previous.toList ++ (left.slots ++ slot :: right.slots)).getLast? := by
    rw [← List.append_assoc, List.getLast?_append_cons]
  simp only [past, through, enter, follow, Shape.slots, Option.toList_some, List.singleton_append,
    last, List.length_append, List.length_cons, Progress.mk.injEq, true_and]
  omega

namespace Finding

variable {finding : Finding} {wrong : Prop} [Decidable wrong] {slot : Option Slot} {issue : Issue}

theorem mem_noted :
    finding ∈ noted (decide wrong) slot issue ↔ wrong ∧ finding = ⟨slot, issue⟩ := by
  by_cases found : wrong <;> simp [noted, found]

theorem nodup_noted : (noted (decide wrong) slot issue).Nodup := by
  unfold noted
  split <;> simp

end Finding

namespace Tree

variable {tree damaged : Tree} {order : KeyOrder} {headers : Slot → Header} {shape : Shape}
  {slot : Slot} {finding : Finding}

/-! ## Flaws -/

/-- What there is to find in a tree whose links are right: one finding for each slot whose cached
height is not the real one, one for each slot that is out of balance, and one for each slot whose
record does not compare as greater than the one before it.  Two neighbours are compared when as
many comparisons were made as there are slots before them. -/
inductive Flaw (tree : Tree) (order : KeyOrder) (headers : Slot → Header) (shape : Shape) :
    Finding → Prop
  | wrongHeight {slot : Slot} (member : slot ∈ shape.slots)
      (wrong : (headers slot).height ≠ shape.heightAt slot) :
      Flaw tree order headers shape
        ⟨some slot, .wrongHeight (headers slot).height (shape.heightAt slot)⟩
  | outOfBalance {slot : Slot} (member : slot ∈ shape.slots)
      (wrong : shape.balanceAt slot < -1 ∨ 1 < shape.balanceAt slot) :
      Flaw tree order headers shape ⟨some slot, .outOfBalance (shape.balanceAt slot)⟩
  | keyNotGreater {index : Nat} {previous slot : Slot} {before stored : Bytes}
      (first : shape.slots[index]? = some previous) (second : shape.slots[index + 1]? = some slot)
      (readFirst : tree.payload previous = .ok before) (readSecond : tree.payload slot = .ok stored)
      (wrong : order.compare index before stored ≠ .lt) :
      Flaw tree order headers shape ⟨some slot, .keyNotGreater previous⟩

/-! ## Findings about heights and balance -/

/-- What there is to find about the cached heights and the balance of a shape's slots. -/
def sizeFindings (headers : Slot → Header) : Shape → List Finding
  | .leaf => []
  | .node left slot right =>
      sizeFindings headers left ++ sizeFindings headers right ++
        shapeFindings slot (headers slot).height left.height right.height

theorem mem_shapeFindings {cached left right : Int} :
    finding ∈ shapeFindings slot cached left right ↔
      (cached ≠ max left right ∧ finding = ⟨some slot, .wrongHeight cached (max left right)⟩) ∨
        ((right - left < -1 ∨ 1 < right - left) ∧
          finding = ⟨some slot, .outOfBalance (right - left)⟩) := by
  simp only [shapeFindings, List.mem_append, Finding.mem_noted]

theorem nodup_shapeFindings {cached left right : Int} :
    (shapeFindings slot cached left right).Nodup := by
  refine List.nodup_append.mpr ⟨Finding.nodup_noted, Finding.nodup_noted, ?_⟩
  intro first height second balance
  rw [(Finding.mem_noted.mp height).2, (Finding.mem_noted.mp balance).2]
  simp

/-- What is found about a slot's size. -/
def SizeFlaw (headers : Slot → Header) (shape : Shape) (slot : Slot) (finding : Finding) : Prop :=
  ((headers slot).height ≠ shape.heightAt slot ∧
      finding = ⟨some slot, .wrongHeight (headers slot).height (shape.heightAt slot)⟩) ∨
    ((shape.balanceAt slot < -1 ∨ 1 < shape.balanceAt slot) ∧
      finding = ⟨some slot, .outOfBalance (shape.balanceAt slot)⟩)

theorem SizeFlaw.slot_eq (flaw : SizeFlaw headers shape slot finding) :
    finding.slot = some slot := by
  rcases flaw with ⟨_, rfl⟩ | ⟨_, rfl⟩ <;> rfl

theorem mem_sizeFindings (nodup : shape.slots.Nodup) :
    finding ∈ sizeFindings headers shape ↔
      ∃ slot ∈ shape.slots, SizeFlaw headers shape slot finding := by
  induction shape with
  | leaf => simp [sizeFindings, Shape.slots]
  | node left top right onLeft onRight =>
      obtain ⟨leftNodup, fromTop, _⟩ := List.nodup_append.mp nodup
      have atTop : finding ∈ shapeFindings top (headers top).height left.height right.height ↔
          SizeFlaw headers (.node left top right) top finding := by
        rw [SizeFlaw, Shape.heightAt, Shape.balanceAt, Shape.sides_top]
        exact mem_shapeFindings
      have inLeft : ∀ slot ∈ left.slots,
          (SizeFlaw headers (.node left top right) slot finding ↔
            SizeFlaw headers left slot finding) := by
        intro slot member
        simp only [SizeFlaw, Shape.heightAt, Shape.balanceAt, Shape.sides_of_mem_left nodup member]
      have inRight : ∀ slot ∈ right.slots,
          (SizeFlaw headers (.node left top right) slot finding ↔
            SizeFlaw headers right slot finding) := by
        intro slot member
        simp only [SizeFlaw, Shape.heightAt, Shape.balanceAt, Shape.sides_of_mem_right nodup member]
      rw [sizeFindings, List.mem_append, List.mem_append, onLeft leftNodup,
        onRight (List.nodup_cons.mp fromTop).2, atTop]
      constructor
      · rintro ((⟨slot, member, flaw⟩ | ⟨slot, member, flaw⟩) | flaw)
        · exact ⟨slot, Shape.mem_slots_node.mpr (.inr (.inl member)),
            (inLeft slot member).mpr flaw⟩
        · exact ⟨slot, Shape.mem_slots_node.mpr (.inr (.inr member)),
            (inRight slot member).mpr flaw⟩
        · exact ⟨top, Shape.mem_slots_node.mpr (.inl rfl), flaw⟩
      · rintro ⟨slot, member, flaw⟩
        rcases Shape.mem_slots_node.mp member with rfl | within | within
        · exact .inr flaw
        · exact .inl (.inl ⟨slot, within, (inLeft slot within).mp flaw⟩)
        · exact .inl (.inr ⟨slot, within, (inRight slot within).mp flaw⟩)

theorem nodup_sizeFindings (nodup : shape.slots.Nodup) : (sizeFindings headers shape).Nodup := by
  induction shape with
  | leaf => exact List.nodup_nil
  | node left top right onLeft onRight =>
      obtain ⟨leftNodup, fromTop, apart⟩ := List.nodup_append.mp nodup
      obtain ⟨notRight, rightNodup⟩ := List.nodup_cons.mp fromTop
      -- Findings about different slots are different.
      have atTop {found : Finding} (here : found ∈ shapeFindings top (headers top).height
          left.height right.height) : found.slot = some top := by
        rcases mem_shapeFindings.mp here with ⟨_, rfl⟩ | ⟨_, rfl⟩ <;> rfl
      refine List.nodup_append.mpr ⟨List.nodup_append.mpr
        ⟨onLeft leftNodup, onRight rightNodup, ?_⟩, nodup_shapeFindings, ?_⟩
      · rintro first inLeft _ inRight rfl
        obtain ⟨slot, member, flaw⟩ := (mem_sizeFindings leftNodup).mp inLeft
        obtain ⟨other, otherMember, otherFlaw⟩ := (mem_sizeFindings rightNodup).mp inRight
        have same := flaw.slot_eq.symm.trans otherFlaw.slot_eq
        exact apart slot member other (List.mem_cons_of_mem _ otherMember) (Option.some.inj same)
      · rintro first inSides _ here rfl
        rcases List.mem_append.mp inSides with inLeft | inRight
        · obtain ⟨slot, member, flaw⟩ := (mem_sizeFindings leftNodup).mp inLeft
          have same := flaw.slot_eq.symm.trans (atTop here)
          exact apart slot member top List.mem_cons_self (Option.some.inj same)
        · obtain ⟨slot, member, flaw⟩ := (mem_sizeFindings rightNodup).mp inRight
          have same := flaw.slot_eq.symm.trans (atTop here)
          exact notRight (Option.some.inj same ▸ member)

/-! ## Findings about records -/

namespace Graph

variable {graph : Graph} {earlier later slots : List Slot} {asked : Nat}

/-- What there is to find about two neighbours when `asked` comparisons were made before. -/
def pairFindings (graph : Graph) (order : KeyOrder) (asked : Nat) (previous slot : Slot) :
    List Finding :=
  Finding.noted (order.compare asked (graph.payloads previous) (graph.payloads slot) ≠ .lt)
    (some slot) (.keyNotGreater previous)

/-- What there is to find about the records of slots in a row, when `asked` comparisons were made
before. -/
def keyFindings (graph : Graph) (order : KeyOrder) : Nat → List Slot → List Finding
  | asked, previous :: slot :: rest =>
      graph.pairFindings order asked previous slot ++
        graph.keyFindings order (asked + 1) (slot :: rest)
  | _, _ => []

/-- What there is to find where a slot meets those before it, when `asked` comparisons were made
before these. -/
def meetFindings (graph : Graph) (order : KeyOrder) (asked : Nat) (earlier : List Slot)
    (slot : Slot) : List Finding :=
  match earlier.getLast? with
  | none => []
  | some previous => graph.pairFindings order (asked + (earlier.length - 1)) previous slot

/-- What is found about slots in a row is found about those before a slot, where they meet it,
and from it on. -/
theorem keyFindings_append :
    graph.keyFindings order asked (earlier ++ slot :: later) =
      graph.keyFindings order asked earlier ++
        graph.meetFindings order asked earlier slot ++
          graph.keyFindings order (asked + earlier.length) (slot :: later) := by
  induction earlier generalizing asked with
  | nil => rfl
  | cons first rest inductionHypothesis =>
      cases rest with
      | nil => simp [keyFindings, meetFindings]
      | cons second rest =>
          have index : asked + 1 + (rest.length + 1 - 1) = asked + (rest.length + 1 + 1 - 1) := by
            omega
          have count : asked + 1 + (rest.length + 1) = asked + (rest.length + 1 + 1) := by
            omega
          have tail := @inductionHypothesis (asked + 1)
          simp only [List.cons_append, keyFindings, meetFindings, List.length_cons,
            List.getLast?_cons_cons, List.append_assoc, index, count] at tail ⊢
          rw [tail]

/-- What is found about slots in a row is found about two neighbours. -/
theorem mem_keyFindings :
    finding ∈ graph.keyFindings order asked slots ↔
      ∃ index previous slot, slots[index]? = some previous ∧ slots[index + 1]? = some slot ∧
        order.compare (asked + index) (graph.payloads previous) (graph.payloads slot) ≠ .lt ∧
          finding = ⟨some slot, .keyNotGreater previous⟩ := by
  induction slots generalizing asked with
  | nil => simp [keyFindings]
  | cons first rest inductionHypothesis =>
      cases rest with
      | nil => simp [keyFindings]
      | cons second rest =>
          rw [keyFindings, List.mem_append, inductionHypothesis, pairFindings, Finding.mem_noted]
          constructor
          · rintro (⟨wrong, rfl⟩ | ⟨index, previous, slot, atFirst, atSecond, wrong, rfl⟩)
            · exact ⟨0, first, second, rfl, rfl, wrong, rfl⟩
            · rw [Nat.add_assoc, Nat.add_comm 1] at wrong
              exact ⟨index + 1, previous, slot, atFirst, atSecond, wrong, rfl⟩
          · rintro ⟨index, previous, slot, atFirst, atSecond, wrong, rfl⟩
            cases index with
            | zero =>
                cases atFirst
                cases atSecond
                exact .inl ⟨wrong, rfl⟩
            | succ index =>
                rw [Nat.add_comm index, ← Nat.add_assoc] at wrong
                exact .inr ⟨index, previous, slot, atFirst, atSecond, wrong, rfl⟩

theorem nodup_keyFindings (nodup : slots.Nodup) :
    (graph.keyFindings order asked slots).Nodup := by
  induction slots generalizing asked with
  | nil => exact List.nodup_nil
  | cons first rest inductionHypothesis =>
      cases rest with
      | nil => exact List.nodup_nil
      | cons second rest =>
          obtain ⟨absent, restNodup⟩ := List.nodup_cons.mp nodup
          refine List.nodup_append.mpr ⟨Finding.nodup_noted, inductionHypothesis restNodup, ?_⟩
          rintro found here _ further rfl
          obtain ⟨_, previous, slot, atFirst, _, _, about⟩ := mem_keyFindings.mp further
          rw [(Finding.mem_noted.mp here).2] at about
          cases about
          exact absent (List.mem_of_getElem? atFirst)

/-! ## Tours of linked slots -/

variable {progress : Progress} {parent : Option Slot} {fuel : Nat}

/-- Comparing a slot with the last of those before it. -/
theorem tourKey_through (usable : tree.graph.Usable) (live : slot < tree.graph.live)
    (behind : ∀ previous ∈ progress.previous, previous < tree.graph.live)
    (inside : ∀ slot ∈ slots, slot < tree.graph.live) :
    tree.tourKey order slot (progress.through slots) =
      .ok (progress.past slots slot, tree.graph.meetFindings order progress.comparisons
        (progress.previous.toList ++ slots) slot) := by
  have all : ∀ earlier ∈ progress.previous.toList ++ slots, earlier < tree.graph.live := by
    intro earlier member
    rcases List.mem_append.mp member with before | within
    · exact behind earlier (Option.mem_toList.mp before)
    · exact inside earlier within
  cases last : (progress.previous.toList ++ slots).getLast? with
  | none =>
      have nothing := List.getLast?_eq_none_iff.mp last
      simp only [tourKey, meetFindings, Progress.past, Progress.through, nothing]
      rfl
  | some previous =>
      have member := List.mem_of_getLast? last
      have used : 0 < (progress.previous.toList ++ slots).length := List.length_pos_of_mem member
      have one : progress.comparisons + ((progress.previous.toList ++ slots).length - 1) + 1 =
          progress.comparisons + (progress.previous.toList ++ slots).length := by
        omega
      simp only [tourKey, meetFindings, Progress.past, Progress.through, last,
        payload_eq_ok usable (all previous member) rfl, payload_eq_ok usable live rfl, Bind.bind,
        Except.bind, one]
      rfl

/-- A tour of a node is one of its left side, of its key and of its right side. -/
theorem tourWithin_node {left right : Int} {afterLeft afterKey afterRight : Progress}
    {onLeft atKey onRight : List Finding} (usable : tree.graph.Usable)
    (live : slot < tree.graph.live) (room : progress.reached < tree.count)
    (leftTour : tree.tourWithin order fuel (tree.graph.headers slot).left (some slot)
      progress.enter = .ok (left, afterLeft, onLeft))
    (keyTour : tree.tourKey order slot afterLeft = .ok (afterKey, atKey))
    (rightTour : tree.tourWithin order fuel (tree.graph.headers slot).right (some slot) afterKey =
      .ok (right, afterRight, onRight)) :
    tree.tourWithin order (fuel + 1) (some slot) parent progress =
      .ok (max left right + 1, afterRight,
        parentFindings slot (tree.graph.headers slot).parent parent ++ onLeft ++ atKey ++ onRight ++
          shapeFindings slot (tree.graph.headers slot).height left right) := by
  have inside : ¬tree.arena.live ≤ slot := Nat.not_le_of_lt live
  have fits : ¬tree.count ≤ progress.reached := Nat.not_le_of_lt room
  rw [tourWithin, if_neg inside, if_neg fits, header_eq_ok usable live rfl]
  simp only [Bind.bind, Except.bind, leftTour, keyTour, rightTour]

/-- What is found at a node and on its sides, put in order: first what is found about records in
a row, and then what is found about sizes. -/
theorem findings_perm {left right : Shape} {onLeft onRight : List Finding}
    (permLeft : onLeft.Perm (graph.keyFindings order asked (earlier ++ left.slots) ++
      sizeFindings graph.headers left))
    (permRight : onRight.Perm (graph.keyFindings order (asked + (earlier ++ left.slots).length)
      (slot :: right.slots) ++ sizeFindings graph.headers right)) :
    (onLeft ++ graph.meetFindings order asked (earlier ++ left.slots) slot ++ onRight ++
        shapeFindings slot (graph.headers slot).height left.height right.height).Perm
      (graph.keyFindings order asked (earlier ++ (Shape.node left slot right).slots) ++
        sizeFindings graph.headers (.node left slot right)) := by
  rw [Shape.slots, ← List.append_assoc earlier, keyFindings_append]
  refine (((permLeft.append_right _).append permRight).append_right _).trans ?_
  rw [List.perm_iff_count]
  intro finding
  simp only [sizeFindings, List.count_append]
  omega

/-- Where links spell out a shape, a tour goes over the shape, and it finds what there is to find
about its records in a row and about its sizes. -/
theorem tourWithin_of_linked (usable : tree.graph.Usable)
    (linked : Linked tree.graph.headers parent shape)
    (behind : ∀ previous ∈ progress.previous, previous < tree.graph.live)
    (live : ∀ slot ∈ shape.slots, slot < tree.graph.live)
    (room : progress.reached + shape.slots.length ≤ tree.count) (enough : shape.height ≤ fuel) :
    ∃ found,
      tree.tourWithin order fuel shape.root? parent progress =
          .ok ((shape.height : Int), progress.through shape.slots, found) ∧
        found.Perm (tree.graph.keyFindings order progress.comparisons
          (progress.previous.toList ++ shape.slots) ++ sizeFindings tree.graph.headers shape) := by
  induction shape generalizing parent fuel progress with
  | leaf =>
      have still : progress.through Shape.leaf.slots = progress := by
        cases progress with
        | mk reached previous => cases previous <;> rfl
      refine ⟨[], ?_, ?_⟩
      · rw [still]
        cases fuel <;> rfl
      · cases progress.previous <;> exact List.Perm.nil
  | node left slot right onLeft onRight =>
      obtain ⟨up, toLeft, toRight, leftLinked, rightLinked⟩ := linked
      have here : slot < tree.graph.live := live slot (by simp [Shape.slots])
      have inLeft : ∀ inner ∈ left.slots, inner < tree.graph.live := fun inner member =>
        live inner (by simp [Shape.slots, member])
      have inRight : ∀ inner ∈ right.slots, inner < tree.graph.live := fun inner member =>
        live inner (by simp [Shape.slots, member])
      rw [Shape.slots, List.length_append, List.length_cons] at room
      cases fuel with
      | zero => exact absurd enough (Nat.not_succ_le_zero _)
      | succ fuel =>
          have lower := Nat.max_le.mp (Nat.le_of_succ_le_succ enough)
          have entered : progress.enter.reached = progress.reached + 1 := rfl
          have passed : (progress.enter.past left.slots slot).reached =
            progress.enter.reached + left.slots.length := rfl
          obtain ⟨foundLeft, leftTour, permLeft⟩ := @onLeft progress.enter (some slot) fuel
            leftLinked behind inLeft (by omega) lower.1
          have keyTour := @tourKey_through _ order slot left.slots progress.enter usable here
            behind inLeft
          obtain ⟨foundRight, rightTour, permRight⟩ :=
            @onRight (progress.enter.past left.slots slot) (some slot) fuel rightLinked
              (by rintro _ ⟨⟩; exact here) inRight (by omega) lower.2
          rw [← toLeft] at leftTour
          rw [← toRight] at rightTour
          have toured := @tourWithin_node _ order slot progress parent fuel _ _ _ _ _ _ _ _ usable
            here (by omega) leftTour keyTour rightTour
          have back : parentFindings slot (tree.graph.headers slot).parent parent = [] := by
            rw [up, parentFindings, decide_eq_false (not_not.mpr rfl)]
            rfl
          rw [back, List.nil_append, Progress.through_node, ← height_node] at toured
          exact ⟨_, toured, findings_perm permLeft permRight⟩

end Graph

/-! ## Verifying threaded trees -/

/-- The findings about sizes come from the headers of the shape's own slots. -/
theorem sizeFindings_congr {other : Slot → Header}
    (same : ∀ slot ∈ shape.slots, headers slot = other slot) :
    sizeFindings headers shape = sizeFindings other shape := by
  induction shape with
  | leaf => rfl
  | node left slot right onLeft onRight =>
      rw [sizeFindings, sizeFindings, same slot (Shape.mem_slots_node.mpr (.inl rfl)),
        onLeft fun inner member => same inner (Shape.mem_slots_node.mpr (.inr (.inl member))),
        onRight fun inner member => same inner (Shape.mem_slots_node.mpr (.inr (.inr member)))]

/-- The flaws are what there is to find about records in a row and about sizes. -/
theorem flaw_iff (usable : tree.graph.Usable) (threaded : Threaded tree headers shape) :
    Flaw tree order headers shape finding ↔
      finding ∈ tree.graph.keyFindings order 0 shape.slots ∨
        finding ∈ sizeFindings headers shape := by
  have spans := threaded.spans usable
  have read {slot : Slot} {index : Nat} (stands : shape.slots[index]? = some slot) :
      tree.payload slot = .ok (tree.graph.payloads slot) :=
    Graph.payload_eq_ok usable (spans.live slot (List.mem_of_getElem? stands)) rfl
  rw [Graph.mem_keyFindings, mem_sizeFindings threaded.nodup]
  constructor
  · rintro (⟨member, wrong⟩ | ⟨member, wrong⟩ | ⟨first, second, readFirst, readSecond, wrong⟩)
    · exact .inr ⟨_, member, .inl ⟨wrong, rfl⟩⟩
    · exact .inr ⟨_, member, .inr ⟨wrong, rfl⟩⟩
    · rw [read first] at readFirst
      rw [read second] at readSecond
      cases readFirst
      cases readSecond
      exact .inl ⟨_, _, _, first, second, by rwa [Nat.zero_add], rfl⟩
  · rintro (⟨index, previous, slot, first, second, wrong, rfl⟩ |
      ⟨slot, member, ⟨wrong, rfl⟩ | ⟨wrong, rfl⟩⟩)
    · rw [Nat.zero_add] at wrong
      exact .keyNotGreater first second (read first) (read second) wrong
    · exact .wrongHeight member wrong
    · exact .outOfBalance member wrong

/-- A tour of a threaded tree enters every node, it comes to the height of the shape, and it
finds every flaw once. -/
theorem tourWithin_of_threaded (usable : tree.graph.Usable)
    (threaded : Threaded tree headers shape) (order : KeyOrder) :
    ∃ after found,
      tree.tourWithin order (tree.count + 1) tree.root none {} =
          .ok ((shape.height : Int), after, found) ∧
        after.reached = tree.count ∧ found.Nodup ∧
          ∀ finding, finding ∈ found ↔ Flaw tree order headers shape finding := by
  have spans := threaded.spans usable
  have full : shape.slots.length = tree.count :=
    threaded.length_eq.trans threaded.count_eq.symm
  have tall := shape.height_le_length
  have start : ({} : Progress).reached = 0 := rfl
  obtain ⟨found, toured, same⟩ := @Graph.tourWithin_of_linked tree order shape {} none
    (tree.count + 1) usable spans.linked nofun spans.live (by omega) (by omega)
  rw [sizeFindings_congr (threaded.headers_eq usable)] at same
  refine ⟨_, found, threaded.root_eq ▸ toured, ?_, ?_, ?_⟩
  · exact (Nat.zero_add _).trans full
  · refine same.nodup_iff.mpr (List.nodup_append.mpr
      ⟨Graph.nodup_keyFindings threaded.nodup, nodup_sizeFindings threaded.nodup, ?_⟩)
    rintro _ about other size rfl
    obtain ⟨_, _, _, _, _, _, rfl⟩ := Graph.mem_keyFindings.mp about
    obtain ⟨_, _, ⟨_, kind⟩ | ⟨_, kind⟩⟩ := (mem_sizeFindings threaded.nodup).mp size
    · cases kind
    · cases kind
  · intro finding
    rw [same.mem_iff, List.mem_append, flaw_iff usable threaded]
    rfl

/-- A threaded tree has nothing wrong with its count. -/
theorem Threaded.allFindings_eq {found : List Finding} (threaded : Threaded tree headers shape) :
    tree.allFindings tree.count found = found := by
  simp [allFindings, countFindings, threaded.count_eq, Finding.noted]

/-- Whatever comes to stand in the cached heights and the records of a tree, as long as its links
spell out a shape over its live slots: a verification enters all nodes and recomputes the height
of the root.  It finds nothing but flaws, none of them twice, and unless its report was cut short
it finds all of them. -/
theorem verify_of_threaded (reachable : Reachable tree)
    (numbers : damaged.arena.ledger = tree.arena.ledger)
    (options : damaged.options = tree.options) (threaded : Threaded damaged headers shape)
    (order : KeyOrder) :
    ∃ report, damaged.verify order = .ok report ∧ report.nodesReached = damaged.count ∧
      report.height = shape.height - 1 ∧ report.findings.Nodup ∧
        (∀ finding ∈ report.findings, Flaw damaged order headers shape finding) ∧
          (report.truncated = false → ∀ finding,
            finding ∈ report.findings ↔ Flaw damaged order headers shape finding) := by
  have usable := reachable.usable_of_damage numbers options
  obtain ⟨after, found, ran, full, nodup, flaws⟩ := tourWithin_of_threaded usable threaded order
  have verified := verify_eq_of_tourWithin ran
  rw [full, threaded.allFindings_eq] at verified
  refine ⟨_, verified, rfl, rfl, nodup.sublist (List.take_sublist _ _), ?_, ?_⟩
  · intro finding kept
    exact (flaws finding).mp (List.mem_of_mem_take kept)
  · intro whole finding
    have short := Nat.not_lt.mp (of_decide_eq_false whole)
    rw [List.take_of_length_le short]
    exact flaws finding

/-- In a tree of five records, a node with a wrong height cached in it and another whose record was
overwritten are found to be flawed in just this, and no other node is. -/
theorem verify_of_threaded_stale :
    ∃ later stale hurt report headers,
      grown? { maxNodes := 8, nodeSize := 2, keySize := 1 } Host.plain (.leading 1)
          [[1, 0], [2, 0], [3, 0], [4, 0], [5, 0]] = some later ∧
        Tree.setCachedHeight 3 9 ⟨later.state, {}⟩ = .ok () stale ∧
          Tree.setPayload 2 [0, 0] ⟨stale.state, {}⟩ = .ok () hurt ∧
            Threaded hurt.state headers (.node (.node .leaf 0 .leaf) 1
              (.node (.node .leaf 2 .leaf) 3 (.node .leaf 4 .leaf))) ∧
              hurt.state.verify (.leading 1) = .ok report ∧ report.nodesReached = 5 ∧
                report.height = 2 ∧
                  report.findings = [⟨some 2, .keyNotGreater 1⟩, ⟨some 3, .wrongHeight 9 1⟩] ∧
                    ∀ finding,
                      finding ∈ [⟨some 2, .keyNotGreater 1⟩, ⟨some 3, .wrongHeight 9 1⟩] ↔
                        Flaw hurt.state (.leading 1) headers (.node (.node .leaf 0 .leaf) 1
                          (.node (.node .leaf 2 .leaf) 3 (.node .leaf 4 .leaf))) finding := by
  let headers : Slot → Header
    | 0 => ⟨some 1, none, none, 0⟩
    | 1 => ⟨none, some 0, some 3, 2⟩
    | 2 => ⟨some 3, none, none, 0⟩
    | 3 => ⟨some 1, some 2, some 4, 9⟩
    | _ => ⟨some 3, none, none, 0⟩
  have run :
      (grown? { maxNodes := 8, nodeSize := 2, keySize := 1 } Host.plain (.leading 1)
          [[1, 0], [2, 0], [3, 0], [4, 0], [5, 0]]).any (fun later =>
        match Tree.setCachedHeight 3 9 ⟨later.state, {}⟩ with
        | .ok () stale =>
            match Tree.setPayload 2 [0, 0] ⟨stale.state, {}⟩ with
            | .ok () hurt =>
                match hurt.state.verify (.leading 1) with
                | .ok report =>
                    decide (later.state.arena.live = 5 ∧ later.state.options.nodeSize = 2 ∧
                      hurt.state.arena.live = 5 ∧ hurt.state.root = some 1 ∧
                        hurt.state.count = 5 ∧
                          (∀ slot < 5, hurt.state.header slot = .ok (headers slot)) ∧
                            report.truncated = false ∧ report.findings =
                              [⟨some 2, .keyNotGreater 1⟩, ⟨some 3, .wrongHeight 9 1⟩])
                | .error _ => false
            | .error _ _ => false
        | .error _ _ => false) = true := by
    decide +kernel
  obtain ⟨later, grown, told⟩ := (Option.any_eq_true _ _).mp run
  split at told
  case h_1 stale damage =>
    split at told
    case h_1 hurt further =>
      split at told
      case h_1 report verified =>
        obtain ⟨five, long, still, root, count, header, whole, found⟩ := of_decide_eq_true told
        have reachable : Reachable later.state := .of_grown grown
        have usable : later.state.graph.Usable := reachable.usable_of_damage rfl rfl
        have live : ∀ slot < 5, slot < later.state.graph.live := fun slot low =>
          Nat.lt_of_lt_of_eq low five.symm
        obtain ⟨_, looks, _⟩ := final_of_yields (@Graph.yields_setCachedHeight
          later.state.graph 3 9 usable (live 3 (by decide)) (by decide) (by decide)) rfl damage
        obtain ⟨_, looks, _⟩ := final_of_yields (@Graph.yields_setPayload
          (later.state.graph.setHeight 3 9) 2 [0, 0] usable (live 2 (by decide)) long.symm) looks
          further
        have threaded : Threaded hurt.state headers (.node (.node .leaf 0 .leaf) 1
            (.node (.node .leaf 2 .leaf) 3 (.node .leaf 4 .leaf))) :=
          { header_eq := fun slot low => header slot (still ▸ low)
            root_eq := root
            linked := ⟨rfl, rfl, rfl, ⟨rfl, rfl, rfl, trivial, trivial⟩, rfl, rfl, rfl,
              ⟨rfl, rfl, rfl, trivial, trivial⟩, rfl, rfl, rfl, trivial, trivial⟩
            nodup := by decide
            mem_iff := fun slot => by
              rw [still]
              change slot ∈ [0, 1, 2, 3, 4] ↔ slot < 5
              simp only [List.mem_cons, List.not_mem_nil, or_false]
              lia
            count_eq := count.trans still.symm }
        obtain ⟨same, again, reached, height, _, _, exact⟩ :=
          @verify_of_threaded _ hurt.state _ _ reachable (congrArg Graph.ledger looks)
            (congrArg Graph.options looks) threaded (.leading 1)
        rw [verified] at again
        cases again
        have flaws := exact whole
        rw [found] at flaws
        exact ⟨later, stale, hurt, report, headers, grown, damage, further, threaded, verified,
          reached.trans count, height, found, flaws⟩
      all_goals exact absurd told Bool.false_ne_true
    all_goals exact absurd told Bool.false_ne_true
  all_goals exact absurd told Bool.false_ne_true

end Tree

end SlabTree
