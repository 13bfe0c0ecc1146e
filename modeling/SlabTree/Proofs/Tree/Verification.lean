import SlabTree.Proofs.Tree.Inspection
import SlabTree.Proofs.Tree.Reachable

/-!
# Verification

A verification succeeds on exactly the trees that are what they are supposed to be.  Nothing
is asked of the slots but that they can be read: their links may form any graph, and their
cached heights and records may be anything.  The order has to rank the records that are
stored; it is the order of the keys that tells a slot that is reached a second time from one
that is reached for the first.
-/

namespace SlabTree.Tree

variable {tree : Tree} {order : KeyOrder} {shape : Shape}

/-- Some slot has the record. -/
def Stores (tree : Tree) (record : Bytes) : Prop :=
  ∃ slot, tree.payload slot = .ok record

/-- A tree that is all that a tree is supposed to be, with its slots in a shape: its
structure is intact, and its records are in order from left to right. -/
structure Valid (tree : Tree) (order : KeyOrder) (shape : Shape) : Prop where
  intact : ∃ headers, Intact tree headers shape
  ascends : ∃ records, tree.walk = .ok records ∧ records.Pairwise order.Less

/-! ## Slots in order -/

namespace Graph

variable {graph : Graph} {slots : List Slot} {stored : Bytes → Prop}

/-- Slots of which each is below the next are below one another. -/
theorem pairwise_of_isChain (ranks : order.Ranks stored)
    (kept : ∀ slot < graph.live, stored (graph.payloads slot))
    (chain : slots.IsChain (graph.Below order)) : slots.Pairwise (graph.Below order) := by
  have trans : Trans (graph.Below order) (graph.Below order) (graph.Below order) := by
    constructor
    rintro first second third ⟨firstLive, secondLive, less⟩ ⟨_, thirdLive, more⟩
    exact ⟨firstLive, thirdLive, ranks.trans _ _ _ (kept first firstLive)
      (kept second secondLive) (kept third thirdLive) less more⟩
  exact chain.pairwise

/-- A slot does not come twice in a list that is in order. -/
theorem nodup_of_pairwise (ranks : order.Ranks stored)
    (kept : ∀ slot < graph.live, stored (graph.payloads slot))
    (pairwise : slots.Pairwise (graph.Below order)) : slots.Nodup := by
  refine pairwise.imp ?_
  rintro first _ ⟨live, _, less⟩ rfl
  exact ranks.irrefl _ (kept first live) less

/-- Live slots are in order when their records are. -/
theorem pairwise_below_iff (live : ∀ slot ∈ slots, slot < graph.live) :
    slots.Pairwise (graph.Below order) ↔ (slots.map graph.payloads).Pairwise order.Less := by
  rw [List.pairwise_map]
  constructor
  · exact fun pairwise => pairwise.imp fun below => below.2.2
  · intro pairwise
    exact pairwise.imp_of_mem fun first second less => ⟨live _ first, live _ second, less⟩

end Graph

/-- The record that a usable tree's graph has in a live slot is stored. -/
theorem stores_payloads (usable : tree.graph.Usable) :
    ∀ slot < tree.graph.live, tree.Stores (tree.graph.payloads slot) :=
  fun slot live => ⟨slot, Graph.payload_eq_ok usable live rfl⟩

/-- Whatever comes to stand in the slots of a reachable tree, in its root and in its count,
its slots can still be read: that depends on the numbers of its arena and its options. -/
theorem Reachable.usable_of_damage {damaged : Tree} (reachable : Reachable tree)
    (numbers : damaged.arena.ledger = tree.arena.ledger)
    (options : damaged.options = tree.options) : damaged.graph.Usable := by
  obtain ⟨_, sound⟩ := reachable.sound
  show Tree.Usable damaged.arena.ledger damaged.options
  rw [numbers, options]
  exact sound.usable

/-! ## Valid trees -/

/-- The links read from the live slots of a tree spell out a shape over exactly these slots, and
the tree counts them.  Cached heights and records may be anything. -/
structure Threaded (tree : Tree) (headers : Slot → Header) (shape : Shape) : Prop where
  header_eq : ∀ slot, slot < tree.arena.live → tree.header slot = .ok (headers slot)
  root_eq : tree.root = shape.root?
  linked : Linked headers none shape
  nodup : shape.slots.Nodup
  mem_iff : ∀ slot, slot ∈ shape.slots ↔ slot < tree.arena.live
  count_eq : tree.count = tree.arena.live

namespace Threaded

variable {headers : Slot → Header}

theorem headers_eq (usable : tree.graph.Usable) (threaded : Threaded tree headers shape) :
    ∀ slot ∈ shape.slots, tree.graph.headers slot = headers slot := by
  intro slot member
  have live := (threaded.mem_iff slot).mp member
  have read := Graph.header_eq_ok usable live rfl
  rw [threaded.header_eq slot live] at read
  exact (Except.ok.inj read).symm

theorem spans (usable : tree.graph.Usable) (threaded : Threaded tree headers shape) :
    tree.graph.Spans shape where
  root_eq := threaded.root_eq
  linked := threaded.linked.congr fun slot member _ => by
    rw [threaded.headers_eq usable slot member]
  nodup := threaded.nodup
  live := fun slot member => (threaded.mem_iff slot).mp member

theorem length_eq (threaded : Threaded tree headers shape) :
    shape.slots.length = tree.graph.live := by
  have all : shape.slots.Perm (List.range tree.arena.live) := by
    rw [List.perm_ext_iff_of_nodup threaded.nodup List.nodup_range]
    intro slot
    rw [threaded.mem_iff, List.mem_range]
  exact all.length_eq.trans List.length_range

end Threaded

/-- An intact tree is threaded, and its heights and its balance are right. -/
theorem Intact.threaded {headers : Slot → Header} (intact : Intact tree headers shape) :
    Threaded tree headers shape where
  header_eq := intact.header_eq
  root_eq := intact.root_eq
  linked := intact.linked
  nodup := intact.nodup
  mem_iff := intact.mem_iff
  count_eq := intact.count_eq

/-- An intact tree is sound as a graph. -/
theorem Intact.sound {headers : Slot → Header} (usable : tree.graph.Usable)
    (intact : Intact tree headers shape) : tree.graph.Sound shape where
  usable := usable
  spans := intact.threaded.spans usable
  length_eq := intact.threaded.length_eq
  measured := intact.measured.congr fun slot member => by
    rw [intact.threaded.headers_eq usable slot member]
  balanced := intact.balanced
  count_eq := intact.count_eq

/-- Valid trees are the sound ones whose slots are in order. -/
theorem valid_iff_sound (usable : tree.graph.Usable) (ranks : order.Ranks tree.Stores) :
    tree.Valid order shape ↔
      tree.graph.Sound shape ∧ shape.slots.IsChain (tree.graph.Below order) := by
  constructor
  · rintro ⟨⟨headers, intact⟩, records, walked, ascending⟩
    have sound := intact.sound usable
    rw [sound.walk_eq rfl] at walked
    cases walked
    exact ⟨sound, ((Graph.pairwise_below_iff sound.spans.live).mpr ascending).isChain⟩
  · rintro ⟨sound, chain⟩
    have pairwise := Graph.pairwise_of_isChain ranks (stores_payloads usable) chain
    exact ⟨⟨_, sound.intact⟩, _, sound.walk_eq rfl,
      (Graph.pairwise_below_iff sound.spans.live).mp pairwise⟩

/-! ## Verification -/

/-- The inspection that a verification starts with. -/
def opening (tree : Tree) : Inspection :=
  Inspection.addIf {} (tree.count ≠ tree.arena.live) none
    (.countDiffers tree.count tree.arena.live)

theorem clean_opening : tree.opening.Clean ↔ tree.count = tree.arena.live := by
  rw [opening, Inspection.clean_addIf, decide_eq_false_iff_not, not_not]
  exact and_iff_right ⟨rfl, rfl⟩

@[simp]
theorem reached_opening : tree.opening.reached = 0 :=
  Inspection.reached_addIf

@[simp]
theorem previous_opening : tree.opening.previous = none :=
  Inspection.previous_addIf

/-- A verification reports on the inspection from the root. -/
theorem verify_of_inspectWithin {contribution : Int} {walked : Inspection}
    (ran : tree.inspectWithin order (tree.count + 1) tree.root none tree.opening =
      .ok (contribution, walked)) :
    ∃ report, tree.verify order = .ok report ∧
      (report.success = true ↔ walked.Clean ∧ walked.reached = tree.count) ∧
        report.nodesReached = walked.reached ∧ report.height = contribution - 1 := by
  let final := walked.addIf (walked.reached ≠ tree.count) none
    (.reachedDiffers walked.reached tree.count)
  have verdict : (final.findings.isEmpty && !final.truncated) = true ↔
      walked.Clean ∧ walked.reached = tree.count := by
    rw [← Inspection.clean_iff_success, Inspection.clean_addIf, decide_eq_false_iff_not, not_not]
  have entered : final.reached = walked.reached := Inspection.reached_addIf
  unfold opening at ran
  exact ⟨_, by simp only [verify, ran, Bind.bind, Except.bind]; rfl, verdict, entered, rfl⟩

/-- A verification of a sound tree whose slots are in order succeeds. -/
theorem verify_of_sound (usable : tree.graph.Usable) (ranks : order.Ranks tree.Stores)
    (sound : tree.graph.Sound shape) (chain : shape.slots.IsChain (tree.graph.Below order)) :
    ∃ report, tree.verify order = .ok report ∧ report.success = true ∧
      report.nodesReached = tree.count ∧ report.height = shape.height - 1 := by
  have all : shape.slots.length = tree.count := sound.length_eq.trans sound.count_eq.symm
  have behind : ∀ previous ∈ tree.opening.previous, previous < tree.graph.live := by
    simp
  have room : tree.opening.reached + shape.slots.length ≤ tree.count := by
    rw [reached_opening]
    omega
  have tall := shape.height_le_length
  have ran := @Graph.inspectWithin_eq_survey tree order tree.opening shape none (tree.count + 1)
    usable sound.spans.linked behind sound.spans.live room (by omega)
  rw [← sound.spans.root_eq] at ran
  obtain ⟨report, verified, success, reached, height⟩ := verify_of_inspectWithin ran
  have full : (tree.graph.survey order shape tree.opening).reached = tree.count := by
    rw [Graph.reached_survey, reached_opening, all, Nat.zero_add]
  have clean := (Graph.clean_survey ranks (stores_payloads usable) behind sound.spans.live).mpr
    ⟨clean_opening.mpr sound.count_eq, sound.measured, sound.balanced, by simpa using chain⟩
  exact ⟨report, verified, success.mpr ⟨clean, full⟩, reached.trans full, height⟩

/-- A verification that succeeds has gone over a sound tree whose slots are in order. -/
theorem sound_of_verify (usable : tree.graph.Usable) (ranks : order.Ranks tree.Stores)
    {contribution : Int} {walked : Inspection}
    (ran : tree.inspectWithin order (tree.count + 1) tree.root none tree.opening =
      .ok (contribution, walked)) (clean : walked.Clean) (full : walked.reached = tree.count) :
    ∃ shape, tree.graph.Sound shape ∧ shape.slots.IsChain (tree.graph.Below order) := by
  obtain ⟨opened, shape, top, linked, live, -, rfl⟩ :=
    Graph.shape_of_inspectWithin usable ran clean
  have behind : ∀ previous ∈ tree.opening.previous, previous < tree.graph.live := by
    simp
  obtain ⟨-, measured, balanced, chain⟩ :=
    (Graph.clean_survey ranks (stores_payloads usable) behind live).mp clean
  have counted : tree.count = tree.arena.live := clean_opening.mp opened
  have chain : shape.slots.IsChain (tree.graph.Below order) := by simpa using chain
  have nodup := Graph.nodup_of_pairwise ranks (stores_payloads usable)
    (Graph.pairwise_of_isChain ranks (stores_payloads usable) chain)
  rw [Graph.reached_survey, reached_opening, Nat.zero_add] at full
  exact ⟨shape, ⟨usable, ⟨top.symm, linked, nodup, live⟩, full.trans counted, measured, balanced,
    counted⟩, chain⟩

/-- The height of a sound tree is the one cached at its root. -/
theorem Graph.Sound.height_root (sound : tree.graph.Sound shape) :
    (tree.root = none → shape.height = 0) ∧ ∀ root, tree.root = some root →
      tree.cachedHeight root = .ok (shape.height - 1) := by
  have top : tree.root = shape.root? := sound.spans.root_eq
  cases shape with
  | leaf =>
      rw [top]
      exact ⟨fun _ => rfl, nofun⟩
  | node left slot right =>
      rw [top]
      refine ⟨nofun, ?_⟩
      rintro _ ⟨⟩
      have live : slot < tree.graph.live := sound.spans.live slot (by simp [Shape.slots])
      rw [Graph.cachedHeight_eq_ok sound.usable live rfl, sound.measured.1, Graph.height_node]
      congr 1
      omega

/-- Whatever the live slots contain, a verification answers, and it succeeds on exactly the
valid trees.  Then it has entered as many nodes as there are records, and it reports the
height of the root, which is `-1` where there is none. -/
theorem verify_success_iff_valid (usable : tree.graph.Usable)
    (ranks : order.Ranks tree.Stores) :
    ∃ report, tree.verify order = .ok report ∧
      (report.success = true ↔ ∃ shape, tree.Valid order shape) ∧
        (report.success = true → report.nodesReached = tree.count ∧
          (tree.root = none → report.height = -1) ∧
            ∀ root, tree.root = some root → tree.cachedHeight root = .ok report.height) ∧
          ∀ shape, tree.Valid order shape → report.height = shape.height - 1 := by
  have behind : ∀ previous ∈ tree.opening.previous, previous < tree.graph.live := by
    simp
  obtain ⟨contribution, walked, ran, _⟩ := @Graph.inspectWithin_answers tree order tree.opening
    tree.root none (tree.count + 1) usable behind (by simp) (by simp)
  obtain ⟨report, verified, success, _⟩ := verify_of_inspectWithin ran
  have ofSound : ∀ shape, tree.graph.Sound shape ∧ shape.slots.IsChain (tree.graph.Below order) →
      report.success = true ∧ report.nodesReached = tree.count ∧
        report.height = shape.height - 1 := by
    rintro shape ⟨sound, chain⟩
    obtain ⟨same, alsoVerified, facts⟩ := verify_of_sound usable ranks sound chain
    rw [verified] at alsoVerified
    cases alsoVerified
    exact facts
  have toSound : report.success = true →
      ∃ shape, tree.graph.Sound shape ∧ shape.slots.IsChain (tree.graph.Below order) := by
    intro successful
    obtain ⟨clean, full⟩ := success.mp successful
    exact sound_of_verify usable ranks ran clean full
  simp only [valid_iff_sound usable ranks]
  refine ⟨report, verified, ⟨toSound, fun ⟨shape, found⟩ => (ofSound shape found).1⟩, ?_,
    fun shape found => (ofSound shape found).2.2⟩
  intro successful
  obtain ⟨shape, sound, chain⟩ := toSound successful
  obtain ⟨_, reached, height⟩ := ofSound shape ⟨sound, chain⟩
  obtain ⟨empty, top⟩ := sound.height_root
  refine ⟨reached, fun noRoot => ?_, fun root atRoot => ?_⟩
  · rw [height, empty noRoot]
    rfl
  · rw [height]
    exact top root atRoot

/-- A tree of five records is found valid, and after one of them was overwritten with one that is
too large for its place it is not. -/
theorem verify_success_iff_valid_overwritten :
    ∃ later report hurt damage,
      grown? { maxNodes := 8, nodeSize := 2, keySize := 1 } Host.plain (.leading 1)
          [[1, 0], [2, 0], [3, 0], [4, 0], [5, 0]] = some later ∧
        later.state.verify (.leading 1) = .ok report ∧ report.success = true ∧
          report.height = 2 ∧ (∃ shape, later.state.Valid (.leading 1) shape) ∧
            Tree.setPayload 2 [9, 0] ⟨later.state, {}⟩ = .ok () hurt ∧
              hurt.state.verify (.leading 1) = .ok damage ∧
                damage.findings = [⟨some 3, .keyNotGreater 2⟩] ∧
                  ¬∃ shape, hurt.state.Valid (.leading 1) shape := by
  have run :
      (grown? { maxNodes := 8, nodeSize := 2, keySize := 1 } Host.plain (.leading 1)
          [[1, 0], [2, 0], [3, 0], [4, 0], [5, 0]]).any (fun later =>
        match later.state.verify (.leading 1), Tree.setPayload 2 [9, 0] ⟨later.state, {}⟩ with
        | .ok report, .ok () hurt =>
            match hurt.state.verify (.leading 1) with
            | .ok damage =>
                decide (report.success = true ∧ report.height = 2 ∧ 2 < later.state.arena.live ∧
                  later.state.options.nodeSize = 2 ∧
                    damage.findings = [⟨some 3, .keyNotGreater 2⟩] ∧ damage.success = false)
            | .error _ => false
        | .ok _, .error _ _ => false
        | .error _, _ => false) = true := by
    decide +kernel
  obtain ⟨later, grown, told⟩ := (Option.any_eq_true _ _).mp run
  split at told
  case h_1 report hurt verified damaging =>
    split at told
    case h_1 damage found =>
      obtain ⟨success, height, live, long, findings, failure⟩ := of_decide_eq_true told
      have reachable : Reachable later.state := .of_grown grown
      have usable : later.state.graph.Usable := reachable.usable_of_damage rfl rfl
      have written := @Graph.yields_setPayload later.state.graph 2 [9, 0] usable live long.symm
      obtain ⟨_, looks, _⟩ := final_of_yields written rfl damaging
      obtain ⟨same, again, valid, _⟩ :=
        verify_success_iff_valid usable ((KeyOrder.leading_by 1).ranks later.state.Stores)
      rw [verified] at again
      cases again
      obtain ⟨other, onceMore, invalid, _⟩ :=
        @verify_success_iff_valid hurt.state (.leading 1)
          (reachable.usable_of_damage (congrArg Graph.ledger looks) (congrArg Graph.options looks))
          ((KeyOrder.leading_by 1).ranks _)
      rw [found] at onceMore
      cases onceMore
      refine ⟨later, report, hurt, damage, grown, verified, success, height, valid.mp success,
        damaging, found, findings, fun kept => ?_⟩
      rw [invalid.mpr kept] at failure
      cases failure
    all_goals exact absurd told Bool.false_ne_true
  all_goals exact absurd told Bool.false_ne_true

end SlabTree.Tree
