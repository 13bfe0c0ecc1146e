import SlabTree.Proofs.Shared.LineUp

/-!
# Sections under way

Without the locks there is little to be seen of workers that share trees: which sections
are under way, what is left of each and which guards it has, and what the finished ones
answered.  Sections begin, take guards, look at trees and change them, and end.

If guards of different sections never clash, all this comes to the same as doing the
finished sections one after the other, as they are lined up.  A section that ends finds
behind it in the line only sections whose guards do not clash with its own, so it might as
well have been done before them.
-/

namespace SlabTree.Shared

open SlabTree.Lock (Mode)

variable {α : Type}

/-- How far a section has got. -/
structure Progress (α : Type) where
  rest : Work α
  guards : List Guard

/-- What is to be seen of trees and of the workers that share them. -/
@[ext]
structure Scene (α : Type) where
  trees : Trees
  /-- The section that a worker is in the middle of. -/
  inside : Nat → Option (Progress α)
  /-- The sections that a worker has still to begin. -/
  upcoming : Nat → List (Section α)
  answers : Nat → List α

namespace Scene

variable {start scene before after : Scene α} {got trace : List Acquisition} {i j t : Nat}
  {progress : Progress α} {ticket other : Ticket} {answer : α} {guard : Guard} {locks : Trees}

/-- The ticket of the section that a worker is in the middle of, or begins next. -/
def current (scene : Scene α) (i : Nat) : Ticket :=
  ⟨i, (scene.answers i).length⟩

/-- What a section answered, if it is finished. -/
def answer? (scene : Scene α) (ticket : Ticket) : Option α :=
  (scene.answers ticket.worker)[ticket.number]?

/-- A section that is still to begin. -/
def section? (scene : Scene α) (ticket : Ticket) : Option (Section α) :=
  (scene.upcoming ticket.worker)[ticket.number]?

/-- The finished sections and their answers, as they are lined up. -/
def history (scene : Scene α) (order : List Ticket) : List (Ticket × α) :=
  order.filterMap fun ticket => (scene.answer? ticket).map (Prod.mk ticket)

/-- The scene with a worker further on in its section. -/
def proceed (scene : Scene α) (i : Nat) (progress : Progress α) : Scene α :=
  { scene with inside := Function.update scene.inside i (some progress) }

/-- The scene after a section of a worker ended with an answer. -/
def finish (scene : Scene α) (i : Nat) (answer : α) : Scene α :=
  { scene with
    inside := Function.update scene.inside i none
    answers := Function.update scene.answers i (scene.answers i ++ [answer]) }

/-- A change of scene, and the guard that a section gets with it, if any. -/
inductive Becomes (before : Scene α) : List Acquisition → Scene α → Prop
  | same : Becomes before [] before
  | begin {i : Nat} {part : Section α} {rest : List (Section α)}
      (outside : before.inside i = none) (first : before.upcoming i = part :: rest) :
      Becomes before []
        { before.proceed i ⟨part.whole, []⟩ with
          upcoming := Function.update before.upcoming i rest }
  | take {i : Nat} {guards : List Guard} {guard : Guard} {next : Work α}
      (within : before.inside i = some ⟨.take guard next, guards⟩) :
      Becomes before [⟨before.current i, guard⟩] (before.proceed i ⟨next, guard :: guards⟩)
  | look {i tree : Nat} {guards : List Guard} {next : SharedTree → Work α} {shared : SharedTree}
      (within : before.inside i = some ⟨.look tree next, guards⟩)
      (guarded : Guarded guards tree) (there : before.trees tree = some shared) :
      Becomes before [] (before.proceed i ⟨next shared, guards⟩)
  | change {i tree : Nat} {guards : List Guard} {f : Tree → Tree} {next : Work α}
      (within : before.inside i = some ⟨.change tree f next, guards⟩)
      (own : ⟨tree, .exclusive⟩ ∈ guards) :
      Becomes before []
        { before.proceed i ⟨next, guards⟩ with trees := before.trees.modify tree f }
  | finish {i : Nat} {guards : List Guard} {answer : α}
      (within : before.inside i = some ⟨.done answer, guards⟩) :
      Becomes before [] (before.finish i answer)

/-- Guards that clash are the same worker's, and of one mode. -/
def Apart (scene : Scene α) (locks : Trees) : Prop :=
  ∀ i j mine theirs, scene.inside i = some mine → scene.inside j = some theirs →
    ∀ guard ∈ mine.guards, ∀ other ∈ theirs.guards, locks.Clash guard other →
      i = j ∧ guard.mode = other.mode

theorem Apart.congr {scene : Scene α} {locks others : Trees} (apart : scene.Apart locks)
    (same : locks.lock? = others.lock?) : scene.Apart others := by
  intro i j mine theirs inside insideToo guard member other memberToo clash
  refine apart i j mine theirs inside insideToo guard member other memberToo ?_
  rw [Trees.Clash, same]
  exact clash

/-- Nobody who is inside may change the tree. -/
def Quiet (scene : Scene α) (t : Nat) : Prop :=
  ∀ i progress, scene.inside i = some progress → ⟨t, .exclusive⟩ ∉ progress.guards

/-! ## Tickets and answers -/

theorem inside_proceed_self : (scene.proceed i progress).inside i = some progress :=
  Function.update_self _ _ _

theorem inside_proceed_of_ne (different : j ≠ i) :
    (scene.proceed i progress).inside j = scene.inside j :=
  Function.update_of_ne different _ _

theorem inside_finish_self : (scene.finish i answer).inside i = none :=
  Function.update_self _ _ _

theorem inside_finish_of_ne (different : j ≠ i) :
    (scene.finish i answer).inside j = scene.inside j :=
  Function.update_of_ne different _ _

theorem ne_of_inside_finish (inside : (scene.finish i answer).inside j = some progress) :
    j ≠ i := by
  rintro rfl
  cases inside_finish_self.symm.trans inside

theorem current_ne (different : j ≠ i) : scene.current i ≠ scene.current j := fun same =>
  different (congrArg Ticket.worker same).symm

theorem answer?_current (scene : Scene α) (i : Nat) : scene.answer? (scene.current i) = none :=
  List.getElem?_eq_none (Nat.le_refl _)

theorem answer?_finish_self : (scene.finish i answer).answer? (scene.current i) = some answer := by
  simp [answer?, current, finish]

theorem answer?_finish_of_ne (different : ticket ≠ scene.current i) :
    (scene.finish i answer).answer? ticket = scene.answer? ticket := by
  obtain ⟨worker, number⟩ := ticket
  by_cases here : worker = i
  · subst here
    have elsewhere : number ≠ (scene.answers worker).length := by
      rintro rfl
      exact different rfl
    simp only [answer?, finish, Function.update_self]
    rcases Nat.lt_or_gt_of_ne elsewhere with below | above
    · exact List.getElem?_append_left below
    · rw [List.getElem?_eq_none (Nat.le_of_lt above), List.getElem?_eq_none]
      rw [List.length_append, List.length_singleton]
      exact above
  · simp only [answer?, finish, Function.update_of_ne here]

theorem current_finish_of_ne (different : j ≠ i) :
    (scene.finish i answer).current j = scene.current j := by
  simp only [current, finish, Function.update_of_ne different]

theorem mem_history {order : List Ticket} :
    (ticket, answer) ∈ scene.history order ↔
      ticket ∈ order ∧ scene.answer? ticket = some answer := by
  simp only [history, List.mem_filterMap, Option.map_eq_some_iff, Prod.mk.injEq]
  constructor
  · rintro ⟨_, member, _, answered, rfl, rfl⟩
    exact ⟨member, answered⟩
  · rintro ⟨member, answered⟩
    exact ⟨ticket, member, answer, answered, rfl, rfl⟩

theorem history_append (order rest : List Ticket) :
    scene.history (order ++ rest) = scene.history order ++ scene.history rest :=
  List.filterMap_append

theorem history_cons_of_none {order : List Ticket} (unfinished : scene.answer? ticket = none) :
    scene.history (ticket :: order) = scene.history order :=
  List.filterMap_cons_none (by rw [unfinished, Option.map_none])

theorem history_cons_of_some {order : List Ticket} (answered : scene.answer? ticket = some answer) :
    scene.history (ticket :: order) = (ticket, answer) :: scene.history order :=
  List.filterMap_cons_some (by rw [answered, Option.map_some])

/-- A section that is not finished can stand anywhere. -/
theorem history_moved {order : List Ticket} (unfinished : scene.answer? ticket = none) :
    scene.history (order.filter (· ≠ ticket) ++ [ticket]) = scene.history order := by
  have alone : scene.history [ticket] = [] := history_cons_of_none unfinished
  rw [history_append, alone, List.append_nil, history, List.filterMap_filter, history]
  congr 1
  funext other
  by_cases same : other = ticket
  · simp [same, unfinished]
  · simp [same]

theorem history_finish {order : List Ticket} (elsewhere : scene.current i ∉ order) :
    (scene.finish i answer).history order = scene.history order := by
  refine List.filterMap_congr fun ticket member => ?_
  rw [answer?_finish_of_ne]
  rintro rfl
  exact elsewhere member

/-- A section that ends takes its place among the finished ones. -/
theorem exists_history_finish {order : List Ticket} (inLine : scene.current i ∈ order)
    (distinct : order.Nodup) (answer : α) :
    ∃ front back, order = front ++ scene.current i :: back ∧
      scene.history order = scene.history front ++ scene.history back ∧
      (scene.finish i answer).history order =
        scene.history front ++ (scene.current i, answer) :: scene.history back := by
  obtain ⟨front, back, rfl⟩ := List.append_of_mem inLine
  have alone := (List.nodup_cons.mp (List.nodup_middle.mp distinct)).1
  have notFront : scene.current i ∉ front := fun member => alone (List.mem_append_left _ member)
  have notBack : scene.current i ∉ back := fun member => alone (List.mem_append_right _ member)
  refine ⟨front, back, rfl, ?_, ?_⟩
  · rw [history_append, history_cons_of_none (answer?_current scene i)]
  · rw [history_append, history_cons_of_some answer?_finish_self, history_finish notFront,
      history_finish notBack]

/-- While someone reads a tree it stays as it is. -/
theorem Becomes.trees_eq (becomes : before.Becomes got after) (apart : before.Apart locks)
    (within : before.inside i = some progress) (reads : ⟨t, .shared⟩ ∈ progress.guards) :
    after.trees t = before.trees t := by
  cases becomes with
  | same | begin | take | look | finish => rfl
  | @change j changed guards f next withinOther own =>
      refine Trees.modify_of_ne ?_ f
      rintro rfl
      have modes := (apart j i _ progress withinOther within _ own _ reads ⟨rfl, Or.inl rfl⟩).2
      cases modes

theorem Becomes.lock?_trees (becomes : before.Becomes got after) :
    after.trees.lock? = before.trees.lock? := by
  cases becomes with
  | same | begin | take | look | finish => rfl
  | change => exact Trees.lock?_modify _ _

/-! ## Who does what -/

/-- Each worker goes through its sections, and what it got for them is on record. -/
structure Filed (start : Scene α) (trace : List Acquisition) (scene : Scene α) : Prop where
  idle : ∀ i, scene.inside i = none →
    (start.upcoming i).drop (scene.answers i).length = scene.upcoming i
  busy : ∀ i progress, scene.inside i = some progress →
    (start.upcoming i).drop ((scene.answers i).length + 1) = scene.upcoming i
  guards : ∀ i progress, scene.inside i = some progress →
    progress.guards = guardsOf trace (scene.current i)
  begun : ∀ acquisition ∈ trace, (∃ answer, scene.answer? acquisition.ticket = some answer) ∨
    ∃ i progress, scene.inside i = some progress ∧ acquisition.ticket = scene.current i
  placed : ∀ ticket answer, scene.answer? ticket = some answer → ticket ∈ lineUp trace

namespace Filed

theorem proceed {next : Progress α} (filed : Filed start trace scene)
    (within : scene.inside i = some progress)
    (mine : ∀ acquisition ∈ got, acquisition.ticket = scene.current i)
    (guards : next.guards = guardsOf (trace ++ got) (scene.current i)) :
    Filed start (trace ++ got) (scene.proceed i next) where
  idle := by
    intro j outside
    have different : j ≠ i := by
      rintro rfl
      cases inside_proceed_self.symm.trans outside
    exact filed.idle j ((inside_proceed_of_ne different).symm.trans outside)
  busy := by
    intro j other inside
    by_cases same : j = i
    · subst same
      exact filed.busy j progress within
    · exact filed.busy j other ((inside_proceed_of_ne same).symm.trans inside)
  guards := by
    intro j other inside
    by_cases same : j = i
    · subst same
      cases inside_proceed_self.symm.trans inside
      exact guards
    · rw [filed.guards j other ((inside_proceed_of_ne same).symm.trans inside)]
      refine (guardsOf_append_of_ne fun acquisition member => ?_).symm
      rw [mine acquisition member]
      exact current_ne same
  begun := by
    intro acquisition member
    rcases List.mem_append.mp member with old | new
    · rcases filed.begun acquisition old with finished | ⟨j, other, inside, named⟩
      · exact Or.inl finished
      · by_cases same : j = i
        · subst same
          exact Or.inr ⟨j, next, inside_proceed_self, named⟩
        · exact Or.inr ⟨j, other, (inside_proceed_of_ne same).trans inside, named⟩
    · exact Or.inr ⟨i, next, inside_proceed_self, mine acquisition new⟩
  placed := by
    intro ticket answer answered
    obtain ⟨acquisition, member, named⟩ := mem_lineUp.mp (filed.placed ticket answer answered)
    exact mem_lineUp.mpr ⟨acquisition, List.mem_append_left _ member, named⟩

theorem work {next : Progress α} (filed : Filed start trace scene)
    (within : scene.inside i = some progress) (guards : next.guards = progress.guards) :
    Filed start trace (scene.proceed i next) := by
  have nobody : ∀ acquisition ∈ ([] : List Acquisition), acquisition.ticket = scene.current i := by
    intro acquisition member
    cases member
  have recorded : next.guards = guardsOf (trace ++ []) (scene.current i) := by
    rw [List.append_nil, guards, filed.guards i progress within]
  have filed := filed.proceed within nobody recorded
  rwa [List.append_nil] at filed

theorem begin {part : Section α} {rest : List (Section α)} (filed : Filed start trace scene)
    (outside : scene.inside i = none) (first : scene.upcoming i = part :: rest) :
    start.section? (scene.current i) = some part ∧
      Filed start trace
        { scene.proceed i ⟨part.whole, []⟩ with
          upcoming := Function.update scene.upcoming i rest } := by
  have left := filed.idle i outside
  rw [first] at left
  have found : start.section? (scene.current i) = some part := by
    rw [section?, current, ← List.head?_drop, left]
    rfl
  have fresh : guardsOf trace (scene.current i) = [] := by
    by_contra some
    obtain ⟨guard, member⟩ := List.exists_mem_of_ne_nil _ some
    rcases filed.begun _ (mem_guardsOf.mp member) with ⟨answer, answered⟩ | ⟨j, _, inside, named⟩
    · rw [answer?_current] at answered
      cases answered
    · obtain rfl : i = j := congrArg Ticket.worker named
      rw [outside] at inside
      cases inside
  refine ⟨found, ?_, ?_, ?_, ?_, filed.placed⟩
  · intro j none
    have different : j ≠ i := by
      rintro rfl
      cases inside_proceed_self.symm.trans none
    exact (filed.idle j ((inside_proceed_of_ne different).symm.trans none)).trans
      (Function.update_of_ne different _ _).symm
  · intro j other inside
    by_cases same : j = i
    · subst same
      change (start.upcoming j).drop ((scene.answers j).length + 1) =
        Function.update scene.upcoming j rest j
      rw [Function.update_self, ← List.drop_drop, left]
      rfl
    · exact (filed.busy j other ((inside_proceed_of_ne same).symm.trans inside)).trans
        (Function.update_of_ne same _ _).symm
  · intro j other inside
    by_cases same : j = i
    · subst same
      cases inside_proceed_self.symm.trans inside
      exact fresh.symm
    · exact filed.guards j other ((inside_proceed_of_ne same).symm.trans inside)
  · intro acquisition member
    rcases filed.begun acquisition member with finished | ⟨j, other, inside, named⟩
    · exact Or.inl finished
    · have different : j ≠ i := by
        rintro rfl
        cases outside.symm.trans inside
      exact Or.inr ⟨j, other, (inside_proceed_of_ne different).trans inside, named⟩

theorem finish (filed : Filed start trace scene) (within : scene.inside i = some progress)
    (some : progress.guards ≠ []) : Filed start trace (scene.finish i answer) where
  idle := by
    intro j outside
    by_cases same : j = i
    · subst same
      have left := filed.busy j progress within
      simpa only [Scene.finish, Function.update_self, List.length_append,
        List.length_singleton] using left
    · have left := filed.idle j ((inside_finish_of_ne same).symm.trans outside)
      simpa only [Scene.finish, Function.update_of_ne same] using left
  busy := by
    intro j other inside
    have different := ne_of_inside_finish inside
    have left := filed.busy j other ((inside_finish_of_ne different).symm.trans inside)
    simpa only [Scene.finish, Function.update_of_ne different] using left
  guards := by
    intro j other inside
    have different := ne_of_inside_finish inside
    rw [current_finish_of_ne different]
    exact filed.guards j other ((inside_finish_of_ne different).symm.trans inside)
  begun := by
    intro acquisition member
    by_cases mine : acquisition.ticket = scene.current i
    · rw [mine]
      exact Or.inl ⟨answer, answer?_finish_self⟩
    · rw [answer?_finish_of_ne mine]
      rcases filed.begun acquisition member with finished | ⟨j, other, inside, named⟩
      · exact Or.inl finished
      · have different : j ≠ i := by
          rintro rfl
          exact mine named
        refine Or.inr ⟨j, other, (inside_finish_of_ne different).trans inside, ?_⟩
        rw [named, current_finish_of_ne different]
  placed := by
    intro ticket reply answered
    by_cases mine : ticket = scene.current i
    · rw [filed.guards i progress within, mine.symm] at some
      obtain ⟨guard, member⟩ := List.exists_mem_of_ne_nil _ some
      exact mem_lineUp.mpr ⟨_, mem_guardsOf.mp member, rfl⟩
    · rw [answer?_finish_of_ne mine] at answered
      exact filed.placed ticket reply answered

end Filed

/-! ## The line -/

/-- Sections whose guards clash are lined up as they got these guards. -/
structure Ordered (locks : Trees) (trace : List Acquisition) (scene : Scene α) : Prop where
  /-- The guards of those behind a section that is not finished do not clash with its own. -/
  ahead : ∀ i progress other, scene.inside i = some progress →
    [scene.current i, other].Sublist (lineUp trace) → ∀ guard ∈ progress.guards,
      ∀ theirs ∈ guardsOf trace other, ¬ locks.Clash guard theirs
  /-- Whoever had a guard that clashes with a later one was finished by then. -/
  clashed : ∀ before later after, trace = before ++ later :: after → ∀ earlier ∈ before,
    earlier.ticket ≠ later.ticket → locks.Clash earlier.guard later.guard →
      (∃ answer, scene.answer? earlier.ticket = some answer) ∧
        ∀ acquisition ∈ later :: after, acquisition.ticket ≠ earlier.ticket

namespace Ordered

/-- The line stays as it is if nobody gets a guard. -/
theorem of_inside (ordered : Ordered locks trace before)
    (inside : ∀ i progress, after.inside i = some progress → progress.guards = [] ∨
      ∃ was, before.inside i = some was ∧ was.guards = progress.guards ∧
        before.current i = after.current i)
    (answered : ∀ ticket answer, before.answer? ticket = some answer →
      after.answer? ticket = some answer) : Ordered locks trace after where
  ahead := by
    intro i progress other within sublist guard member
    rcases inside i progress within with none | ⟨was, earlier, same, sameTicket⟩
    · rw [none] at member
      cases member
    · rw [← sameTicket] at sublist
      rw [← same] at member
      exact ordered.ahead i was other earlier sublist guard member
  clashed := by
    intro front later back parts earlier member different clash
    obtain ⟨⟨answer, finished⟩, none⟩ :=
      ordered.clashed front later back parts earlier member different clash
    exact ⟨⟨answer, answered _ _ finished⟩, none⟩

theorem work {next : Progress α} (ordered : Ordered locks trace scene)
    (within : scene.inside i = some progress) (guards : next.guards = progress.guards) :
    Ordered locks trace (scene.proceed i next) := by
  refine ordered.of_inside (fun j other inside => ?_) fun _ _ answered => answered
  by_cases same : j = i
  · subst same
    cases inside_proceed_self.symm.trans inside
    exact Or.inr ⟨progress, within, guards.symm, rfl⟩
  · exact Or.inr ⟨other, (inside_proceed_of_ne same).symm.trans inside, rfl, rfl⟩

theorem take {guards : List Guard} {next : Work α} (ordered : Ordered locks trace scene)
    (filed : Filed start trace scene)
    (within : scene.inside i = some ⟨.take guard next, guards⟩)
    (apart : (scene.proceed i ⟨next, guard :: guards⟩).Apart locks) :
    Ordered locks (trace ++ [⟨scene.current i, guard⟩])
      (scene.proceed i ⟨next, guard :: guards⟩) := by
  -- The new guard clashes with none that another section has.
  have clear : ∀ {j other}, j ≠ i → scene.inside j = some other → ∀ theirs ∈ other.guards,
      ∀ mine ∈ guard :: guards, ¬ locks.Clash theirs mine := by
    intro j other different within theirs member mine own clash
    exact different (apart j i _ _ ((inside_proceed_of_ne different).trans within)
      inside_proceed_self theirs member mine own clash).1
  constructor
  · intro j progress other inside sublist mine member theirs theirsMember
    obtain ⟨notLast, place⟩ := sublist_lineUp_concat sublist
    have different : j ≠ i := by
      rintro rfl
      exact notLast rfl
    have before := (inside_proceed_of_ne different).symm.trans inside
    by_cases newest : other = scene.current i
    · subst newest
      rw [guardsOf_concat_self, ← filed.guards i _ within] at theirsMember
      exact clear different before mine member theirs theirsMember
    · rw [guardsOf_append_of_ne (by simpa using Ne.symm newest)] at theirsMember
      exact ordered.ahead j progress other before (place.resolve_left newest) mine member theirs
        theirsMember
  · intro front later back parts earlier member different clash
    rcases List.eq_nil_or_concat back with rfl | ⟨rest, last, rfl⟩
    · obtain ⟨rfl, isLast⟩ := List.append_inj' parts rfl
      cases isLast
      have finished : ∃ answer, scene.answer? earlier.ticket = some answer := by
        refine (filed.begun earlier member).resolve_right ?_
        rintro ⟨j, progress, within, named⟩
        have other : j ≠ i := by
          rintro rfl
          exact different named
        refine clear other within earlier.guard ?_ guard List.mem_cons_self clash
        rw [filed.guards j progress within, ← named]
        exact mem_guardsOf.mpr member
      refine ⟨finished, fun acquisition isNew => ?_⟩
      rw [List.mem_singleton.mp isNew]
      exact different.symm
    · rw [List.concat_eq_append, ← List.cons_append, ← List.append_assoc] at parts
      obtain ⟨rfl, isLast⟩ := List.append_inj' parts rfl
      obtain ⟨⟨answer, finished⟩, none⟩ := ordered.clashed front later rest rfl earlier member
        different clash
      refine ⟨⟨answer, finished⟩, fun acquisition inBack => ?_⟩
      rw [List.concat_eq_append, ← List.cons_append] at inBack
      rcases List.mem_append.mp inBack with old | new
      · exact none acquisition old
      · cases isLast
        rw [List.mem_singleton.mp new]
        rintro same
        rw [← same, answer?_current] at finished
        cases finished

end Ordered

/-! ## The trees -/

/-- The trees are what comes of the finished sections, one after the other, and of what has been
done so far in the others. -/
structure Agrees (start : Scene α) (trace : List Acquisition) (scene : Scene α)
    (trees : Trees) : Prop where
  turns : InTurn (DoesUnder start.section? (guardsOf trace)) start.trees
    (scene.history (lineUp trace)) trees
  quiet : ∀ t, scene.Quiet t → scene.trees t = trees t
  busy : ∀ i progress, scene.inside i = some progress → ∃ part now,
    start.section? (scene.current i) = some part ∧
      Passes part.whole trees progress.guards progress.rest now ∧
      ∀ t, Guarded progress.guards t → now t = scene.trees t

/-- What one worker has a guard on, no other one may change. -/
theorem Apart.spares {theirs : Progress α} (apart : scene.Apart locks)
    (within : scene.inside i = some progress) (other : scene.inside j = some theirs)
    (different : j ≠ i) (guarded : Guarded theirs.guards t) :
    ⟨t, .exclusive⟩ ∉ progress.guards := by
  rintro own
  obtain ⟨guard, member, rfl⟩ := guarded
  exact different (apart j i theirs progress other within guard member _ own
    ⟨rfl, Or.inr rfl⟩).1

namespace Agrees

variable {trees : Trees}

/-- A section that goes on may come to something else as long as the others are left alone. -/
theorem proceed {next : Progress α} {later now : Trees} {part : Section α}
    (agrees : Agrees start trace scene trees) (within : scene.inside i = some progress)
    (guards : next.guards = progress.guards) (found : start.section? (scene.current i) = some part)
    (passes : Passes part.whole trees next.guards next.rest now)
    (there : ∀ t, Guarded next.guards t → now t = later t)
    (apart : scene.Apart locks)
    (frame : ∀ t, ⟨t, .exclusive⟩ ∉ progress.guards → later t = scene.trees t) :
    Agrees start trace { scene.proceed i next with trees := later } trees where
  turns := agrees.turns
  quiet := by
    intro t quiet
    have foreign := quiet i next inside_proceed_self
    rw [guards] at foreign
    refine (frame t foreign).trans (agrees.quiet t fun j other inside => ?_)
    by_cases same : j = i
    · subst same
      cases within.symm.trans inside
      exact foreign
    · exact quiet j other ((inside_proceed_of_ne same).trans inside)
  busy := by
    intro j other inside
    by_cases same : j = i
    · subst same
      cases inside_proceed_self.symm.trans inside
      exact ⟨part, now, found, passes, there⟩
    · have before := (inside_proceed_of_ne same).symm.trans inside
      obtain ⟨theirs, reached, sectionFound, passed, agreed⟩ := agrees.busy j other before
      refine ⟨theirs, reached, sectionFound, passed, fun t guarded => ?_⟩
      rw [agreed t guarded]
      exact (frame t (apart.spares within before same guarded)).symm

theorem begin {part : Section α} {rest : List (Section α)}
    (agrees : Agrees start trace scene trees) (outside : scene.inside i = none)
    (found : start.section? (scene.current i) = some part) :
    Agrees start trace
      { scene.proceed i ⟨part.whole, []⟩ with
        upcoming := Function.update scene.upcoming i rest } trees where
  turns := agrees.turns
  quiet := by
    intro t quiet
    refine agrees.quiet t fun j other inside => ?_
    have different : j ≠ i := by
      rintro rfl
      cases outside.symm.trans inside
    exact quiet j other ((inside_proceed_of_ne different).trans inside)
  busy := by
    intro j other inside
    by_cases same : j = i
    · subst same
      cases inside_proceed_self.symm.trans inside
      refine ⟨part, trees, found, .refl, fun t guarded => ?_⟩
      obtain ⟨_, member, _⟩ := guarded
      cases member
    · exact agrees.busy j other ((inside_proceed_of_ne same).symm.trans inside)

theorem take {guards : List Guard} {next : Work α} (agrees : Agrees start trace scene trees)
    (within : scene.inside i = some ⟨.take guard next, guards⟩)
    (apart : (scene.proceed i ⟨next, guard :: guards⟩).Apart locks) :
    Agrees start (trace ++ [⟨scene.current i, guard⟩])
      (scene.proceed i ⟨next, guard :: guards⟩) trees where
  turns := by
    have moved : (scene.proceed i ⟨next, guard :: guards⟩).history
        (lineUp (trace ++ [⟨scene.current i, guard⟩])) = scene.history (lineUp trace) := by
      rw [lineUp_concat]
      exact history_moved (answer?_current scene i)
    rw [moved]
    refine agrees.turns.mono fun entry member first last done => ?_
    have finished := (mem_history.mp member).2
    have different : entry.1 ≠ scene.current i := by
      intro same
      rw [same, answer?_current] at finished
      cases finished
    rw [DoesUnder, guardsOf_append_of_ne (by simpa using different.symm)]
    exact done
  quiet := by
    intro t quiet
    refine agrees.quiet t fun j other inside => ?_
    by_cases same : j = i
    · subst same
      cases within.symm.trans inside
      exact fun own => quiet j _ inside_proceed_self (List.mem_cons_of_mem _ own)
    · exact quiet j other ((inside_proceed_of_ne same).trans inside)
  busy := by
    intro j other inside
    by_cases same : j = i
    · subst same
      cases inside_proceed_self.symm.trans inside
      obtain ⟨part, now, found, passes, there⟩ := agrees.busy j _ within
      refine ⟨part, now, found, passes.take, fun t guarded => ?_⟩
      by_cases old : Guarded guards t
      · exact there t old
      · -- So far nobody else has the tree for itself, since the new guard is on it.
        rw [passes.eq_of_not_guarded old]
        refine (agrees.quiet t fun k theirs busy => ?_).symm
        by_cases mine : k = j
        · subst mine
          cases within.symm.trans busy
          exact fun own => old ⟨_, own, rfl⟩
        · exact apart.spares ((inside_proceed_of_ne mine).trans busy) inside_proceed_self
            (Ne.symm mine) guarded
    · exact agrees.busy j other ((inside_proceed_of_ne same).symm.trans inside)

theorem look {tree : Nat} {guards : List Guard} {next : SharedTree → Work α} {shared : SharedTree}
    (agrees : Agrees start trace scene trees) (apart : scene.Apart locks)
    (within : scene.inside i = some ⟨.look tree next, guards⟩) (guarded : Guarded guards tree)
    (seen : scene.trees tree = some shared) :
    Agrees start trace (scene.proceed i ⟨next shared, guards⟩) trees := by
  obtain ⟨part, now, found, passes, there⟩ := agrees.busy i _ within
  exact agrees.proceed within rfl found
    (passes.look guarded ((there tree guarded).trans seen)) there apart fun _ _ => rfl

theorem change {tree : Nat} {guards : List Guard} {f : Tree → Tree} {next : Work α}
    (agrees : Agrees start trace scene trees) (apart : scene.Apart locks)
    (within : scene.inside i = some ⟨.change tree f next, guards⟩)
    (own : ⟨tree, .exclusive⟩ ∈ guards) :
    Agrees start trace
      { scene.proceed i ⟨next, guards⟩ with trees := scene.trees.modify tree f } trees := by
  obtain ⟨part, now, found, passes, there⟩ := agrees.busy i _ within
  refine agrees.proceed within rfl found (passes.change own)
    (fun t guarded => Trees.modify_congr (there t guarded) tree f) apart fun t foreign => ?_
  refine Trees.modify_of_ne ?_ f
  rintro rfl
  exact foreign own

/-- A section that ends can be put in its place in the line. -/
theorem finish {guards : List Guard} (agrees : Agrees start trace scene trees)
    (filed : Filed start trace scene) (ordered : Ordered locks trace scene)
    (apart : scene.Apart locks) (within : scene.inside i = some ⟨.done answer, guards⟩)
    (some : guards ≠ []) : ∃ later, Agrees start trace (scene.finish i answer) later := by
  obtain ⟨part, now, found, passes, there⟩ := agrees.busy i _ within
  have recorded : guards = guardsOf trace (scene.current i) := filed.guards i _ within
  have inLine : scene.current i ∈ lineUp trace := by
    obtain ⟨guard, member⟩ := List.exists_mem_of_ne_nil _ some
    rw [recorded] at member
    exact mem_lineUp.mpr ⟨_, mem_guardsOf.mp member, rfl⟩
  obtain ⟨front, back, line, before, after⟩ :=
    exists_history_finish inLine (nodup_lineUp trace) answer
  obtain ⟨middle, head, tail⟩ := (before ▸ agrees.turns).exists_of_append
  obtain ⟨between, ahead, rest⟩ := tail.swap passes fun entry member theirs theirsMember mine
      mineMember clash => by
    have behind : [scene.current i, entry.1].Sublist (lineUp trace) := by
      have inBack := (mem_history.mp member).1
      rw [line]
      exact ((List.singleton_sublist.mpr inBack).cons_cons _).trans
        (List.sublist_append_right _ _)
    exact ordered.ahead i _ entry.1 within behind mine mineMember theirs theirsMember clash.symm
  refine ⟨now, ?_, ?_, ?_⟩
  · rw [after]
    refine head.append (.cons ⟨part, found, ?_⟩ rest)
    rwa [← recorded]
  · intro t quiet
    by_cases guarded : Guarded guards t
    · exact (there t guarded).symm
    · rw [passes.eq_of_not_guarded guarded]
      refine agrees.quiet t fun j other inside => ?_
      by_cases same : j = i
      · subst same
        cases within.symm.trans inside
        exact fun own => guarded ⟨_, own, rfl⟩
      · exact quiet j other ((inside_finish_of_ne same).trans inside)
  · intro j other inside
    have different := ne_of_inside_finish inside
    have inside := (inside_finish_of_ne different).symm.trans inside
    obtain ⟨theirs, reached, theirsFound, passed, agreed⟩ := agrees.busy j other inside
    obtain ⟨reachedNow, passedNow, same⟩ := passed.frame fun t guarded =>
      passes.eq_of_not_mem (apart.spares within inside different guarded)
    refine ⟨theirs, reachedNow, ?_, passedNow, fun t guarded => ?_⟩
    · rwa [current_finish_of_ne different]
    · exact (same t guarded).trans (agreed t guarded)

end Agrees

/-! ## All together -/

/-- What a scene has to do with the one that it came from and the guards that were got on the
way. -/
structure Follows (start : Scene α) (trace : List Acquisition) (scene : Scene α) : Prop where
  lock?_trees : scene.trees.lock? = start.trees.lock?
  filed : Filed start trace scene
  ordered : Ordered start.trees trace scene
  agrees : ∃ trees, Agrees start trace scene trees

theorem follows_self (nobody : ∀ i, start.inside i = none) (nothing : ∀ i, start.answers i = []) :
    Follows start [] start := by
  have unanswered : ∀ ticket, start.answer? ticket = none := fun ticket => by
    rw [answer?, nothing]
    rfl
  refine ⟨rfl, ⟨?_, ?_, ?_, nofun, ?_⟩, ⟨?_, ?_⟩, start.trees, .nil, fun _ _ => rfl, ?_⟩
  · intro i _
    rw [nothing]
    rfl
  · intro i progress inside
    cases (nobody i).symm.trans inside
  · intro i progress inside
    cases (nobody i).symm.trans inside
  · intro ticket answer answered
    cases (unanswered ticket).symm.trans answered
  · intro i progress other inside
    cases (nobody i).symm.trans inside
  · intro before later after parts
    cases before <;> cases parts
  · intro i progress inside
    cases (nobody i).symm.trans inside

theorem Follows.becomes (follows : Follows start trace before)
    (becomes : before.Becomes got after) (apart : before.Apart start.trees)
    (apartAfter : after.Apart start.trees) : Follows start (trace ++ got) after := by
  obtain ⟨lock, filed, ordered, trees, agrees⟩ := follows
  have lock := becomes.lock?_trees.trans lock
  cases becomes with
  | same =>
      rw [List.append_nil]
      exact ⟨lock, filed, ordered, trees, agrees⟩
  | @begin i part rest outside first =>
      rw [List.append_nil]
      obtain ⟨found, filed⟩ := filed.begin outside first
      refine ⟨lock, filed, ordered.of_inside ?_ fun _ _ answered => answered, trees,
        agrees.begin outside found⟩
      intro j progress inside
      by_cases same : j = i
      · subst same
        cases inside_proceed_self.symm.trans inside
        exact Or.inl rfl
      · exact Or.inr ⟨progress, (inside_proceed_of_ne same).symm.trans inside, rfl, rfl⟩
  | take within =>
      refine ⟨lock, filed.proceed within (by simp) ?_, ordered.take filed within apartAfter, trees,
        agrees.take within apartAfter⟩
      rw [guardsOf_concat_self, ← filed.guards _ _ within]
  | look within guarded there =>
      rw [List.append_nil]
      exact ⟨lock, filed.work within rfl, ordered.work within rfl, trees,
        agrees.look apart within guarded there⟩
  | @change i _ guards _ next within own =>
      rw [List.append_nil]
      have filed : Filed start trace (before.proceed i ⟨next, guards⟩) := filed.work within rfl
      have ordered : Ordered start.trees trace (before.proceed i ⟨next, guards⟩) :=
        ordered.work within rfl
      exact ⟨lock, ⟨filed.idle, filed.busy, filed.guards, filed.begun, filed.placed⟩,
        ⟨ordered.ahead, ordered.clashed⟩, trees, agrees.change apart within own⟩
  | @finish i guards answer within =>
      rw [List.append_nil]
      have some : guards ≠ [] := by
        rintro rfl
        obtain ⟨_, _, _, passes, _⟩ := agrees.busy i _ within
        cases passes.rest_eq_of_nil
      obtain ⟨later, agrees⟩ := agrees.finish filed ordered apart within some
      refine ⟨lock, filed.finish within some, ordered.of_inside ?_ ?_, later, agrees⟩
      · intro j progress inside
        have different := ne_of_inside_finish inside
        exact Or.inr ⟨progress, (inside_finish_of_ne different).symm.trans inside, rfl,
          (current_finish_of_ne different).symm⟩
      · intro ticket reply answered
        rw [answer?_finish_of_ne]
        · exact answered
        · rintro rfl
          cases (answer?_current before i).symm.trans answered

end Scene

end SlabTree.Shared
