import SlabTree.Session

/-!
# Runs of actions

Journals only grow, and what a run adds to one is itself a journal.  Most of a
state is of no interest to the reader of a theorem, so runs are described
through a view of it: an action yields an answer, a new view and a log from a
view when it does so from every state that looks like that.
-/

namespace SlabTree

namespace Journal

/-- The journal followed by what a run adds to it. -/
def append (first second : Journal) : Journal where
  events := first.events ++ second.events
  comparisons := first.comparisons + second.comparisons

instance : Append Journal := ⟨append⟩

theorem append_eq (first second : Journal) :
    first ++ second =
      ⟨first.events ++ second.events, first.comparisons + second.comparisons⟩ :=
  rfl

@[simp]
theorem comparisons_append (first second : Journal) :
    (first ++ second).comparisons = first.comparisons + second.comparisons :=
  rfl

@[simp]
theorem append_empty (journal : Journal) : journal ++ ({} : Journal) = journal := by
  simp [append_eq]

@[simp]
theorem empty_append (journal : Journal) : ({} : Journal) ++ journal = journal := by
  simp [append_eq]

theorem append_assoc (first second third : Journal) :
    first ++ second ++ third = first ++ (second ++ third) := by
  simp [append_eq, Nat.add_assoc]

end Journal

/-- An answer that takes two steps is the answer of the second. -/
theorem exists_of_bind_eq_ok {α β : Type} {outcome : Except Fault α} {f : α → Except Fault β}
    {answer : β} (answered : (outcome >>= f) = .ok answer) :
    ∃ first, outcome = .ok first ∧ f first = .ok answer := by
  cases outcome with
  | ok first => exact ⟨first, rfl, answered⟩
  | error fault => cases answered

/-- A list is gone through without a fault when none of its items leads to one. -/
theorem mapM_eq_ok {α β : Type} {f : α → Except Fault β} {g : α → β} {items : List α}
    (told : ∀ item ∈ items, f item = .ok (g item)) : items.mapM f = .ok (items.map g) := by
  induction items with
  | nil => rfl
  | cons item rest inductionHypothesis =>
      rw [List.mapM_cons, told item List.mem_cons_self,
        inductionHypothesis fun other member => told other (List.mem_cons_of_mem item member)]
      rfl

namespace Action

variable {σ τ ν ω α β : Type} {view : σ → ν} {before middle after : ν}

/-- Seen through `view`, the action takes `before` to `after`, answers `answer`
and adds `log` to the journal.  In particular it does not fault. -/
def Yields (view : σ → ν) (action : Action σ α) (before : ν) (answer : α) (after : ν)
    (log : Journal) : Prop :=
  ∀ state journal, view state = before →
    ∃ final, action ⟨state, journal⟩ = .ok answer ⟨final, journal ++ log⟩ ∧
      view final = after

/-! ## Sequences -/

/-- A step that answers hands its answer and its session to the next. -/
theorem bind_run {action : Action σ α} {next : α → Action σ β} {answer : α}
    {session final : Session σ} (ran : action session = .ok answer final) :
    (action >>= next) session = next answer final := by
  simp only [Bind.bind, EStateM.bind, ran]

/-- A look at the state hands what it sees and the same session to the rest. -/
theorem read_bind_run {f : σ → Except Fault α} {next : α → Action σ β} {answer : α}
    {session : Session σ} (told : f session.state = .ok answer) :
    (Action.read f >>= next) session = next answer session :=
  bind_run (by simp only [Action.read, told])

theorem view_bind_run {f : σ → α} {next : α → Action σ β} {answer : α}
    {session : Session σ} (told : f session.state = answer) :
    (Action.view f >>= next) session = next answer session :=
  bind_run (by simp only [Action.view, told])

theorem Yields.bind {action : Action σ α} {next : α → Action σ β} {first : α} {second : β}
    {log rest : Journal} (head : Yields view action before first middle log)
    (tail : Yields view (next first) middle second after rest) :
    Yields view (action >>= next) before second after (log ++ rest) := by
  intro state journal seen
  obtain ⟨between, ran, seenBetween⟩ := head state journal seen
  obtain ⟨final, finished, seenFinal⟩ := tail between (journal ++ log) seenBetween
  refine ⟨final, ?_, seenFinal⟩
  rw [bind_run ran, finished, Journal.append_assoc]

/-- A last step that logs nothing leaves the log as the first wrote it. -/
theorem Yields.concluding {action : Action σ α} {next : α → Action σ β} {first : α}
    {second : β} {log : Journal} (head : Yields view action before first middle log)
    (tail : Yields view (next first) middle second after {}) :
    Yields view (action >>= next) before second after log := by
  have both := head.bind tail
  rwa [Journal.append_empty] at both

/-- An answer of one's own choice after a step. -/
theorem Yields.answering {action : Action σ α} {first : α} {log : Journal} (answer : β)
    (head : Yields view action before first after log) :
    Yields view (action >>= fun _ => Pure.pure answer) before answer after log := by
  intro state journal seen
  obtain ⟨final, ran, seenFinal⟩ := head state journal seen
  exact ⟨final, by rw [bind_run ran]; rfl, seenFinal⟩

/-- A first step that logs nothing leaves the log to the second. -/
theorem Yields.silently {action : Action σ α} {next : α → Action σ β} {first : α}
    {second : β} {log : Journal} (head : Yields view action before first middle {})
    (tail : Yields view (next first) middle second after log) :
    Yields view (action >>= next) before second after log := by
  have both := head.bind tail
  rwa [Journal.empty_append] at both

/-! ## Single steps -/

theorem yields_pure (answer : α) (seen : ν) :
    Yields view (Pure.pure answer) seen answer seen {} := by
  intro state journal looks
  exact ⟨state, by simp [Pure.pure, EStateM.pure], looks⟩

theorem yields_view {f : σ → α} (answer : α)
    (told : ∀ state, view state = before → f state = answer) :
    Yields view (Action.view f) before answer before {} := by
  intro state journal looks
  exact ⟨state, by simp [Action.view, told state looks], looks⟩

theorem yields_read {f : σ → Except Fault α} (answer : α)
    (told : ∀ state, view state = before → f state = .ok answer) :
    Yields view (Action.read f) before answer before {} := by
  intro state journal looks
  exact ⟨state, by simp [Action.read, told state looks], looks⟩

theorem yields_update {f : σ → σ}
    (changed : ∀ state, view state = before → view (f state) = after) :
    Yields view (Action.update f) before () after {} := by
  intro state journal looks
  exact ⟨f state, by simp [Action.update], changed state looks⟩

theorem yields_log (event : Event) :
    Yields view (Action.log event) before () before ⟨#[event], 0⟩ := by
  intro state journal looks
  refine ⟨state, ?_, looks⟩
  rcases journal with ⟨events, comparisons⟩
  simp [Action.log, Journal.append_eq]

theorem yields_noteComparisons (times : Nat) :
    Yields view (Action.noteComparisons times) before () before ⟨#[], times⟩ := by
  intro state journal looks
  refine ⟨state, ?_, looks⟩
  rcases journal with ⟨events, comparisons⟩
  simp [Action.noteComparisons, Journal.append_eq]

/-! ## Runs that may fault -/

/-- What a run comes to: its answer or its fault, and the session that it leaves behind. -/
def ending (result : Except Fault α) (final : Session σ) : EStateM.Result Fault (Session σ) α :=
  match result with
  | .ok answer => .ok answer final
  | .error fault => .error fault final

/-- Seen through `view`, the action takes `before` to `after`, adds `log` to the journal, and
comes to an answer or a fault. -/
def Ends (view : σ → ν) (action : Action σ α) (before : ν) (result : Except Fault α) (after : ν)
    (log : Journal) : Prop :=
  ∀ state journal, view state = before →
    ∃ final, action ⟨state, journal⟩ = ending result ⟨final, journal ++ log⟩ ∧ view final = after

theorem Yields.ends {action : Action σ α} {answer : α} {log : Journal}
    (yields : Yields view action before answer after log) :
    Ends view action before (.ok answer) after log :=
  yields

/-- A fault in a first step is the fault of the sequence. -/
theorem Ends.breaking {action : Action σ α} {next : α → Action σ β} {fault : Fault} {log : Journal}
    (head : Ends view action before (.error fault) after log) :
    Ends view (action >>= next) before (.error fault) after log := by
  intro state journal seen
  obtain ⟨final, ran, seenFinal⟩ := head state journal seen
  refine ⟨final, ?_, seenFinal⟩
  simp only [Bind.bind, EStateM.bind, ran, ending]

/-- After a first step that answers, a sequence comes to what the rest comes to. -/
theorem Yields.onward {action : Action σ α} {next : α → Action σ β} {first : α}
    {result : Except Fault β} {log rest : Journal}
    (head : Yields view action before first middle log)
    (tail : Ends view (next first) middle result after rest) :
    Ends view (action >>= next) before result after (log ++ rest) := by
  intro state journal seen
  obtain ⟨between, ran, seenBetween⟩ := head state journal seen
  obtain ⟨final, finished, seenFinal⟩ := tail between (journal ++ log) seenBetween
  refine ⟨final, ?_, seenFinal⟩
  rw [bind_run ran, finished, Journal.append_assoc]

/-- A first step that logs nothing leaves the log to the rest. -/
theorem Yields.quietly {action : Action σ α} {next : α → Action σ β} {first : α}
    {result : Except Fault β} {log : Journal}
    (head : Yields view action before first middle {})
    (tail : Ends view (next first) middle result after log) :
    Ends view (action >>= next) before result after log := by
  have both := head.onward tail
  rwa [Journal.empty_append] at both

/-- What is done with the answer of a run changes neither its fault nor its log. -/
theorem Ends.mapping {action : Action σ α} {result : Except Fault α} {log : Journal} (f : α → β)
    (head : Ends view action before result after log) :
    Ends view (action >>= fun answer => Pure.pure (f answer)) before (result.map f) after log := by
  cases result with
  | ok answer => exact Yields.concluding head (yields_pure (f answer) after)
  | error fault => exact head.breaking

theorem ends_read {f : σ → Except Fault α} {fault : Fault}
    (told : ∀ state, view state = before → f state = .error fault) :
    Ends view (Action.read f) before (.error fault) before {} := by
  intro state journal looks
  exact ⟨state, by simp [Action.read, told state looks, ending], looks⟩

theorem ends_fail (fault : Fault) :
    Ends view (Action.fail fault : Action σ α) before (.error fault) before {} := by
  intro state journal looks
  exact ⟨state, by simp [Action.fail, ending], looks⟩

/-! ## Runs of which only the kind of end is known -/

/-- Seen through `view`, the action takes `before` to an end of this kind. -/
def Comes (view : σ → ν) (action : Action σ α) (before : ν) (kind : Except Fault α → ν → Prop) :
    Prop :=
  ∃ result after log, Ends view action before result after log ∧ kind result after

section Comes

variable {action : Action σ α} {next : α → Action σ β} {kind other : Except Fault α → ν → Prop}
  {last : Except Fault β → ν → Prop}

theorem Ends.comes {result : Except Fault α} {log : Journal}
    (ends : Ends view action before result after log) (this : kind result after) :
    Comes view action before kind :=
  ⟨result, after, log, ends, this⟩

theorem Comes.mono (comes : Comes view action before kind)
    (weaker : ∀ result after, kind result after → other result after) :
    Comes view action before other := by
  obtain ⟨result, after, log, ends, this⟩ := comes
  exact ⟨result, after, log, ends, weaker result after this⟩

/-- A sequence comes to where its first step faults, or to where the rest does. -/
theorem Comes.bind (head : Comes view action before kind)
    (broken : ∀ fault after, kind (.error fault) after → last (.error fault) after)
    (onward : ∀ answer middle, kind (.ok answer) middle → Comes view (next answer) middle last) :
    Comes view (action >>= next) before last := by
  obtain ⟨result, middle, log, ends, this⟩ := head
  cases result with
  | error fault => exact ⟨_, _, _, ends.breaking, broken fault middle this⟩
  | ok answer =>
      obtain ⟨result, after, rest, finishes, reached⟩ := onward answer middle this
      exact ⟨result, after, log ++ rest, Yields.onward ends finishes, reached⟩

/-- After a first step that answers, a sequence comes to where the rest comes. -/
theorem Yields.comes {first : α} {log : Journal}
    (head : Yields view action before first middle log)
    (tail : Comes view (next first) middle last) : Comes view (action >>= next) before last := by
  obtain ⟨result, after, rest, finishes, reached⟩ := tail
  exact ⟨result, after, log ++ rest, head.onward finishes, reached⟩

/-- A look at the state comes to what is seen. -/
theorem comes_read {f : σ → Except Fault α} {result : Except Fault α}
    (told : ∀ state, view state = before → f state = result) (this : kind result before) :
    Comes view (Action.read f) before kind := by
  cases result with
  | ok answer => exact ⟨.ok answer, before, {}, (yields_read answer told).ends, this⟩
  | error fault => exact ⟨.error fault, before, {}, ends_read told, this⟩

end Comes

/-! ## Two runs side by side -/

/-- From sessions whose states are related both actions answer, and they give answers that are
alike and leave states that are related again. -/
def Tandem (related : σ → σ → Prop) (alike : α → β → Prop) (action : Action σ α)
    (other : Action σ β) : Prop :=
  ∀ first second : Session σ, related first.state second.state →
    ∃ answer given after later, action first = .ok answer after ∧ other second = .ok given later ∧
      alike answer given ∧ related after.state later.state

section Tandem

variable {γ δ ι : Type} {related : σ → σ → Prop} {alike : α → β → Prop} {also : γ → δ → Prop}
  {action : Action σ α} {other : Action σ β} {next : α → Action σ γ} {onward : β → Action σ δ}

theorem tandem_pure {answer : α} {given : β} (same : alike answer given) :
    Tandem related alike (Pure.pure answer) (Pure.pure given) :=
  fun first second pair => ⟨answer, given, first, second, rfl, rfl, same, pair⟩

theorem Tandem.bind (head : Tandem related alike action other)
    (tail : ∀ answer given, alike answer given → Tandem related also (next answer) (onward given)) :
    Tandem related also (action >>= next) (other >>= onward) := by
  intro first second pair
  obtain ⟨answer, given, middle, between, ran, alsoRan, same, still⟩ := head first second pair
  rw [bind_run ran, bind_run alsoRan]
  exact tail answer given same middle between still

/-- What is made of the answers of both runs. -/
theorem Tandem.map {f : α → γ} {g : β → δ} (head : Tandem related alike action other)
    (same : ∀ answer given, alike answer given → also (f answer) (g given)) :
    Tandem related also (action >>= fun answer => Pure.pure (f answer))
      (other >>= fun given => Pure.pure (g given)) :=
  head.bind fun answer given this => tandem_pure (same answer given this)

theorem tandem_view {f : σ → α} {g : σ → β}
    (seen : ∀ state opposite, related state opposite → alike (f state) (g opposite)) :
    Tandem related alike (Action.view f) (Action.view g) :=
  fun first second pair => ⟨_, _, first, second, rfl, rfl, seen _ _ pair, pair⟩

theorem tandem_read {f : σ → Except Fault α} {g : σ → Except Fault β}
    (seen : ∀ state opposite, related state opposite →
      ∃ answer given, f state = .ok answer ∧ g opposite = .ok given ∧ alike answer given) :
    Tandem related alike (Action.read f) (Action.read g) := by
  intro first second pair
  obtain ⟨answer, given, told, toldOther, same⟩ := seen _ _ pair
  exact ⟨answer, given, first, second, by simp only [Action.read, told],
    by simp only [Action.read, toldOther], same, pair⟩

theorem tandem_noteComparisons (times others : Nat) :
    Tandem related Eq (Action.noteComparisons times) (Action.noteComparisons others) :=
  fun _ _ pair => ⟨(), (), _, _, rfl, rfl, rfl, pair⟩

/-- Both runs go through the same list, step by step. -/
theorem tandem_mapM {items : List ι} {f g : ι → Action σ α}
    (each : ∀ item ∈ items, Tandem related Eq (f item) (g item)) :
    Tandem related Eq (items.mapM f) (items.mapM g) := by
  induction items with
  | nil => exact tandem_pure rfl
  | cons item rest inductionHypothesis =>
      rw [List.mapM_cons, List.mapM_cons]
      refine (each item List.mem_cons_self).bind ?_
      rintro answer _ rfl
      refine (inductionHypothesis fun later member =>
        each later (List.mem_cons_of_mem item member)).map ?_
      rintro answers _ rfl
      rfl

end Tandem

/-! ## What an action leaves alone -/

/-- A sequence that answers is a first step that answers and a rest that does. -/
theorem exists_of_bind_run {action : Action σ α} {next : α → Action σ β} {second : β}
    {session final : Session σ} (ran : (action >>= next) session = .ok second final) :
    ∃ first between, action session = .ok first between ∧
      next first between = .ok second final := by
  cases head : action session with
  | ok first between =>
      rw [bind_run head] at ran
      exact ⟨first, between, rfl, ran⟩
  | error fault between =>
      simp only [Bind.bind, EStateM.bind, head] at ran
      cases ran

/-- What a sequence answers after a look at the state. -/
theorem run_of_bind_view {f : σ → α} {next : α → Action σ β} {answer : β}
    {session final : Session σ} (ran : (Action.view f >>= next) session = .ok answer final) :
    next (f session.state) session = .ok answer final :=
  ran

/-- So does a look that may fault. -/
theorem run_of_bind_read {f : σ → Except Fault α} {next : α → Action σ β} {answer : β}
    {session final : Session σ} (ran : (Action.read f >>= next) session = .ok answer final) :
    ∃ seen, f session.state = .ok seen ∧ next seen session = .ok answer final := by
  cases told : f session.state with
  | ok seen => exact ⟨seen, rfl, (read_bind_run told).symm.trans ran⟩
  | error fault =>
      simp only [Bind.bind, EStateM.bind, Action.read, told] at ran
      cases ran

/-- Whenever the action answers, it gives this answer. -/
def Always (action : Action σ α) (answer : α) : Prop :=
  ∀ session given later, action session = .ok given later → given = answer

theorem always_pure (answer : α) : Always (Pure.pure answer : Action σ α) answer := by
  intro session given later ran
  cases ran
  rfl

/-- A sequence answers what its end answers. -/
theorem always_bind {action : Action σ α} {next : α → Action σ β} {answer : β}
    (tail : ∀ first, Always (next first) answer) : Always (action >>= next) answer := by
  intro session given later ran
  obtain ⟨first, between, _, tailRan⟩ := exists_of_bind_run ran
  exact tail first between given later tailRan

/-- Whenever the action answers, this part of the state is what it was. -/
def Keeps (part : σ → ν) (action : Action σ α) : Prop :=
  ∀ session answer later, action session = .ok answer later →
    part later.state = part session.state

variable {part : σ → ν}

theorem Keeps.bind {action : Action σ α} {next : α → Action σ β} (head : Keeps part action)
    (tail : ∀ first, Keeps part (next first)) : Keeps part (action >>= next) := by
  intro session answer later ran
  obtain ⟨first, between, headRan, tailRan⟩ := exists_of_bind_run ran
  exact (tail first between answer later tailRan).trans (head session first between headRan)

theorem keeps_pure (answer : α) : Keeps part (Pure.pure answer : Action σ α) := by
  intro session given later ran
  cases ran
  rfl

theorem keeps_view (f : σ → α) : Keeps part (Action.view f) := by
  intro session given later ran
  cases ran
  rfl

theorem keeps_read (f : σ → Except Fault α) : Keeps part (Action.read f) := by
  intro session given later ran
  unfold Action.read at ran
  split at ran <;> cases ran
  rfl

theorem keeps_update {f : σ → σ} (same : ∀ state, part (f state) = part state) :
    Keeps part (Action.update f) := by
  intro session given later ran
  cases ran
  exact same session.state

theorem keeps_log (event : Event) : Keeps part (Action.log event) := by
  intro session given later ran
  cases ran
  rfl

theorem keeps_fail (fault : Fault) : Keeps part (Action.fail fault : Action σ α) := by
  intro session given later ran
  cases ran

/-- The session that a run leaves behind. -/
def left : EStateM.Result Fault (Session σ) α → Session σ
  | .ok _ final | .error _ final => final

@[simp]
theorem left_ending (result : Except Fault α) (final : Session σ) :
    left (ending result final) = final := by
  cases result <;> rfl

end Action

end SlabTree
