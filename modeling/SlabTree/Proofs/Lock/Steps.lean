import Mathlib.Data.List.Basic
import SlabTree.Lock.System

/-!
# Steps of a system

Whatever steps, one thread moves from where it stands, and the word and the mutex
become what the move leaves behind.  A count over the threads changes by what that
one thread counts for, before and after.
-/

namespace SlabTree.Lock

/-- What a thread that stands at `point` can do. -/
inductive Point.Moves (point : Point) (core : Core) : Move → Prop
  | start {call : Call} {next : Point} (started : point.start? call = some next) :
      Moves point core ⟨next, core, false⟩
  | step {move : Move} (stepped : point.step? core = some move) : Moves point core move
  | misfire {next : Point} (misfired : point.misfire? core = some next) :
      Moves point core ⟨next, core, false⟩

variable {system after : System} {thread : Nat} {point : Point} {n : Nat}

/-- A step of a system is a move of one of its threads. -/
theorem Step.moves (next : Step system after) :
    ∃ thread point move, system.threads[thread]? = some point ∧
      point.Moves system.core move ∧ after = system.apply thread move := by
  cases next with
  | @start thread call _ started =>
      obtain ⟨point, there, rest⟩ := Option.bind_eq_some_iff.mp started
      obtain ⟨next, starts, result⟩ := Option.bind_eq_some_iff.mp rest
      exact ⟨thread, point, _, there, .start starts, (Option.some.inj result).symm⟩
  | @step thread _ stepped =>
      obtain ⟨point, there, rest⟩ := Option.bind_eq_some_iff.mp stepped
      obtain ⟨move, moves, result⟩ := Option.bind_eq_some_iff.mp rest
      exact ⟨thread, point, move, there, .step moves, (Option.some.inj result).symm⟩
  | @misfire thread _ misfired =>
      obtain ⟨point, there, rest⟩ := Option.bind_eq_some_iff.mp misfired
      obtain ⟨next, misfires, result⟩ := Option.bind_eq_some_iff.mp rest
      exact ⟨thread, point, _, there, .misfire misfires, (Option.some.inj result).symm⟩

/-- What the initial system has and every move of a thread preserves, all reachable
systems have. -/
theorem Reachable.induct {P : System → Prop} (reachable : Reachable n system)
    (start : P (System.initial n))
    (moves : ∀ system thread point move, P system → system.threads[thread]? = some point →
      point.Moves system.core move → P (system.apply thread move)) : P system := by
  induction reachable with
  | initial => exact start
  | step _ next holds =>
      obtain ⟨thread, point, move, there, moved, rfl⟩ := next.moves
      exact moves _ thread point move holds there moved

namespace System

theorem threads_apply (move : Move) :
    (system.apply thread move).threads = if move.notifies then
      (system.threads.set thread move.point).map Point.woken
    else system.threads.set thread move.point :=
  rfl

/-- Moves neither make threads nor end them. -/
theorem length_apply (move : Move) :
    (system.apply thread move).threads.length = system.threads.length := by
  rw [threads_apply]
  split <;> simp

/-- Where a thread stands after a move: the one that moved where the move leads, the
others where they stood, and if the move notifies, whoever is parked is woken. -/
theorem point_apply (move : Move) (there : system.threads[thread]? = some point) (other : Nat) :
    (system.apply thread move).point other =
      if move.notifies then (if other = thread then move.point else system.point other).woken
      else if other = thread then move.point else system.point other := by
  have inside : thread < system.threads.length := (List.getElem?_eq_some_iff.mp there).1
  have moved : (system.threads.set thread move.point)[other]?.getD .outside =
      if other = thread then move.point else system.point other := by
    by_cases same : other = thread
    · rw [if_pos same, same, List.getElem?_set_self inside, Option.getD_some]
    · rw [if_neg same, List.getElem?_set_ne (Ne.symm same), System.point]
  rw [System.point, threads_apply]
  split
  · rw [List.getElem?_map, ← moved]
    cases (system.threads.set thread move.point)[other]? <;> rfl
  · exact moved

/-- What is true of all threads and of the place to which one moves stays true of all. -/
theorem forall_apply (P : Point → Prop) {move : Move} (woken : ∀ point, P point → P point.woken)
    (all : ∀ point ∈ system.threads, P point) (moved : P move.point) :
    ∀ point ∈ (system.apply thread move).threads, P point := by
  have rest : ∀ point ∈ system.threads.set thread move.point, P point := by
    intro point member
    rcases List.mem_or_eq_of_mem_set member with old | rfl
    · exact all point old
    · exact moved
  rw [threads_apply]
  split
  · intro point member
    obtain ⟨before, inside, rfl⟩ := List.mem_map.mp member
    exact woken before (rest before inside)
  · exact rest

/-- The number of threads that stand at points of a kind. -/
def tally (system : System) (kind : Point → Bool) : Nat :=
  system.threads.countP kind

/-- A count changes by what the moving thread counts for. -/
theorem tally_apply (kind : Point → Bool) (move : Move)
    (woken : ∀ point, kind point.woken = kind point)
    (there : system.threads[thread]? = some point) :
    (system.apply thread move).tally kind + (if kind point then 1 else 0) =
      system.tally kind + if kind move.point then 1 else 0 := by
  obtain ⟨inside, here⟩ := List.getElem?_eq_some_iff.mp there
  have counted : (kind point = true) → 0 < system.threads.countP kind := fun counts =>
    List.countP_pos_iff.mpr ⟨point, List.mem_of_getElem? there, counts⟩
  have changed : (system.apply thread move).tally kind =
      (system.threads.set thread move.point).countP kind := by
    rw [tally, threads_apply]
    split
    · rw [List.countP_map]
      exact congrArg (List.countP · _) (funext woken)
    · rfl
  rw [changed, List.countP_set inside, here, tally]
  by_cases counts : kind point = true
  · have positive := counted counts
    simp only [counts, if_true]
    omega
  · simp only [counts]
    simp

theorem tally_pos {kind : Point → Bool} (there : system.threads[thread]? = some point)
    (counts : kind point) : 0 < system.tally kind :=
  List.countP_pos_iff.mpr ⟨point, List.mem_of_getElem? there, counts⟩

/-- Where one thread at most stands at points of a kind, two that do are the same. -/
theorem eq_of_tally_le_one {kind : Point → Bool} {other : Nat} {elsewhere : Point}
    (few : system.tally kind ≤ 1) (woken : ∀ point, kind point.woken = kind point)
    (outside : kind .outside = false) (there : system.threads[thread]? = some point)
    (counts : kind point = true) (alsoThere : system.threads[other]? = some elsewhere)
    (alsoCounts : kind elsewhere = true) : other = thread := by
  by_contra apart
  -- Without the first, the second is still there.
  have changed := system.tally_apply kind ⟨.outside, system.core, false⟩ woken there
  have still : (system.apply thread ⟨.outside, system.core, false⟩).threads[other]? =
      some elsewhere := (List.getElem?_set_ne (Ne.symm apart)).trans alsoThere
  have positive := tally_pos still alsoCounts
  rw [if_pos counts, if_neg (by rw [outside]; exact Bool.false_ne_true)] at changed
  omega

end System

/-! ## Runs by schedule -/

/-- Letting everything calm down is a run. -/
theorem Reachable.settle (reachable : Reachable n system) : Reachable n system.settle := by
  have rests : ∀ fuel system, Reachable n system →
      Reachable n (settleWith System.next? fuel system) := by
    intro fuel
    induction fuel with
    | zero => exact fun _ reached => reached
    | succ fuel inductionHypothesis =>
        intro system reached
        rw [settleWith]
        cases next : system.next? with
        | none => exact reached
        | some after =>
            obtain ⟨thread, _, stepped⟩ := List.exists_of_findSome?_eq_some next
            exact inductionHypothesis after (.step reached (.step stepped))
  exact rests system.patience system reachable

/-- Making a call and letting everything calm down is a run. -/
theorem Reachable.perform (reachable : Reachable n system) (thread : Nat) (call : Call) :
    Reachable n (system.perform thread call) := by
  rw [System.perform]
  cases started : system.start? thread call with
  | none => exact reachable.settle
  | some after => exact (Reachable.step reachable (.start started)).settle

end SlabTree.Lock
