import Mathlib.Data.List.Basic
import Mathlib.Order.Lattice
import SlabTree.Bytes
import SlabTree.Options

/-!
# Catalogues

A catalogue is what a tree stands for: a list of records in ascending order of their
keys, of which no two are equal, no longer than the options allow.  What it answers
to a request is read off the list.
-/

namespace SlabTree

universe u

/-- A call on a tree. -/
inductive Request
  | insert (record : Bytes)
  | remove (probe : Bytes)
  | get (probe : Bytes)
  | contains (probe : Bytes)
  | first
  | last
  | next (probe : Bytes)
  | prev (probe : Bytes)
  | records
  | count
  deriving DecidableEq, Repr

/-- What a call comes back with. -/
inductive Reply
  | change (answer : Except Refusal Unit)
  | record (answer : Except Refusal Bytes)
  | stored (answer : Bool)
  | records (answer : List Bytes)
  | count (answer : Nat)

/-- Records in ascending order of their keys, no more than there may be. -/
structure Catalogue {κ : Type u} [LinearOrder κ] (key : Bytes → κ) (options : Options) where
  records : List Bytes
  sorted : records.Pairwise fun earlier later => key earlier < key later
  bounded : records.length ≤ options.maxNodes

namespace Catalogue

variable {κ : Type u} [LinearOrder κ] {key : Bytes → κ} {options : Options}

/-- The catalogue without records. -/
def empty (key : Bytes → κ) (options : Options) : Catalogue key options :=
  ⟨[], List.Pairwise.nil, Nat.zero_le _⟩

/-! ## Looking up -/

/-- The records whose keys are below the one of a probe. -/
def below (catalogue : Catalogue key options) (probe : Bytes) : List Bytes :=
  catalogue.records.filter fun record => key record < key probe

/-- The records whose keys are above the one of a probe. -/
def above (catalogue : Catalogue key options) (probe : Bytes) : List Bytes :=
  catalogue.records.filter fun record => key probe < key record

/-- The record with the key of a probe. -/
def equal? (catalogue : Catalogue key options) (probe : Bytes) : Option Bytes :=
  catalogue.records.find? fun record => key record = key probe

variable {catalogue : Catalogue key options} {probe record : Bytes}

theorem lt_of_mem_below (member : record ∈ catalogue.below probe) : key record < key probe :=
  of_decide_eq_true (List.mem_filter.mp member).2

theorem lt_of_mem_above (member : record ∈ catalogue.above probe) : key probe < key record :=
  of_decide_eq_true (List.mem_filter.mp member).2

theorem eq_of_equal? (found : catalogue.equal? probe = some record) : key record = key probe := by
  have chosen := List.find?_some found
  exact of_decide_eq_true chosen

/-- The answer to a probe that is long enough to have a key. -/
def answerFor (options : Options) (probe : Bytes) (found : Option Bytes) :
    Except Refusal Bytes :=
  if probe.length < options.keySize then
    .error (.invalidArgument .shortKey)
  else
    found.elim (.error .notFound) .ok

/-- The answer of a list that may be empty. -/
def answerAt (found : Option Bytes) : Except Refusal Bytes :=
  found.elim (.error .emptyTree) .ok

/-! ## Changing -/

/-- Records below and above a probe follow each other. -/
theorem sorted_around (catalogue : Catalogue key options) (probe : Bytes) :
    (catalogue.below probe ++ probe :: catalogue.above probe).Pairwise
      fun earlier later => key earlier < key later := by
  have lower : ∀ record ∈ catalogue.below probe, key record < key probe := fun record member =>
    lt_of_mem_below member
  have higher : ∀ record ∈ catalogue.above probe, key probe < key record := fun record member =>
    lt_of_mem_above member
  rw [List.pairwise_append, List.pairwise_cons]
  refine ⟨catalogue.sorted.filter _, ⟨higher, catalogue.sorted.filter _⟩, ?_⟩
  intro earlier early later late
  rcases List.mem_cons.mp late with rfl | late
  · exact lower earlier early
  · exact lt_trans (lower earlier early) (higher later late)

/-- No record is below and above a probe at once. -/
theorem length_around_le (catalogue : Catalogue key options) (probe : Bytes) :
    (catalogue.below probe).length + (catalogue.above probe).length ≤
      catalogue.records.length := by
  rw [below, above, ← List.countP_eq_length_filter, ← List.countP_eq_length_filter,
    List.length_eq_countP_add_countP fun record => key record < key probe]
  apply Nat.add_le_add_left
  apply List.countP_mono_left
  intro record _ higher
  simpa using (of_decide_eq_true higher).le

/-- The catalogue with a further record, which takes the place of one with its key. -/
def add (catalogue : Catalogue key options) (record : Bytes)
    (room : catalogue.records.length < options.maxNodes) : Catalogue key options where
  records := catalogue.below record ++ record :: catalogue.above record
  sorted := catalogue.sorted_around record
  bounded := by
    have few := catalogue.length_around_le record
    rw [List.length_append, List.length_cons]
    omega

/-- The catalogue without the record that has the key of a probe. -/
def without (catalogue : Catalogue key options) (probe : Bytes) : Catalogue key options where
  records := catalogue.records.filter fun record => key record ≠ key probe
  sorted := catalogue.sorted.filter _
  bounded := Nat.le_trans (List.length_filter_le _ _) catalogue.bounded

/-- The catalogue after an insertion, or the reason why there was none. -/
def insert (catalogue : Catalogue key options) (record : Bytes) :
    Except Refusal (Catalogue key options) :=
  if record.length ≠ options.nodeSize then
    .error (.invalidArgument .recordLength)
  else if (catalogue.equal? record).isSome then
    .error .duplicateKey
  else if room : catalogue.records.length < options.maxNodes then
    .ok (catalogue.add record room)
  else
    .error .capacityExceeded

/-- The catalogue after a removal, or the reason why there was none. -/
def remove (catalogue : Catalogue key options) (probe : Bytes) :
    Except Refusal (Catalogue key options) :=
  if probe.length < options.keySize then
    .error (.invalidArgument .shortKey)
  else if catalogue.records.isEmpty then
    .error .emptyTree
  else if (catalogue.equal? probe).isNone then
    .error .notFound
  else
    .ok (catalogue.without probe)

/-! ## Requests -/

/-- The reply to a change, and the catalogue afterwards. -/
def changed (catalogue : Catalogue key options) :
    Except Refusal (Catalogue key options) → Reply × Catalogue key options
  | .error refusal => (.change (.error refusal), catalogue)
  | .ok after => (.change (.ok ()), after)

/-- The reply to a request, and the catalogue afterwards. -/
def serve (catalogue : Catalogue key options) : Request → Reply × Catalogue key options
  | .insert record => catalogue.changed (catalogue.insert record)
  | .remove probe => catalogue.changed (catalogue.remove probe)
  | .get probe => (.record (answerFor options probe (catalogue.equal? probe)), catalogue)
  | .contains probe =>
      (.stored (options.keySize ≤ probe.length ∧ (catalogue.equal? probe).isSome), catalogue)
  | .first => (.record (answerAt catalogue.records.head?), catalogue)
  | .last => (.record (answerAt catalogue.records.getLast?), catalogue)
  | .next probe => (.record (answerFor options probe (catalogue.above probe).head?), catalogue)
  | .prev probe => (.record (answerFor options probe (catalogue.below probe).getLast?), catalogue)
  | .records => (.records catalogue.records, catalogue)
  | .count => (.count catalogue.records.length, catalogue)

/-- The replies to requests made one after the other. -/
def replies (catalogue : Catalogue key options) : List Request → List Reply
  | [] => []
  | request :: rest => (catalogue.serve request).1 :: (catalogue.serve request).2.replies rest

/-! ## Around a probe -/

/-- Records in order are the ones below a probe, the one that equals it and the ones above it. -/
theorem split_around (key : Bytes → κ) (probe : Bytes) {records : List Bytes}
    (sorted : records.Pairwise fun earlier later => key earlier < key later) :
    records = records.filter (fun record => key record < key probe) ++
      (records.find? fun record => key record = key probe).toList ++
        records.filter fun record => key probe < key record := by
  induction records with
  | nil => rfl
  | cons record rest inductionHypothesis =>
      obtain ⟨first, sortedRest⟩ := List.pairwise_cons.mp sorted
      have onward := inductionHypothesis sortedRest
      rcases lt_trichotomy (key record) (key probe) with lower | same | higher
      · rw [List.filter_cons_of_pos (by simpa using lower),
          List.find?_cons_of_neg (by simpa using lower.ne),
          List.filter_cons_of_neg (by simpa using lower.le), List.cons_append, List.cons_append,
          ← onward]
      · have behind : ∀ other ∈ rest, key probe < key other := fun other member =>
          same ▸ first other member
        rw [List.filter_cons_of_neg (by simpa using same.ge),
          List.find?_cons_of_pos (by simpa using same),
          List.filter_cons_of_neg (by simpa using same.le),
          List.filter_eq_nil_iff.mpr fun other member => by simpa using (behind other member).le,
          List.filter_eq_self.mpr fun other member => decide_eq_true (behind other member)]
        rfl
      · have behind : ∀ other ∈ record :: rest, key probe < key other := by
          intro other member
          rcases List.mem_cons.mp member with rfl | late
          · exact higher
          · exact lt_trans higher (first other late)
        rw [List.filter_eq_nil_iff.mpr fun other member => by simpa using (behind other member).le,
          List.find?_eq_none.mpr fun other member => by simpa using (behind other member).ne',
          List.filter_eq_self.mpr fun other member => decide_eq_true (behind other member)]
        rfl

theorem records_around (catalogue : Catalogue key options) (probe : Bytes) :
    catalogue.records =
      catalogue.below probe ++ (catalogue.equal? probe).toList ++ catalogue.above probe :=
  split_around key probe catalogue.sorted

/-- Without the record that equals a probe, the ones below and above it are left. -/
theorem records_without (catalogue : Catalogue key options) (probe : Bytes) :
    (catalogue.without probe).records = catalogue.below probe ++ catalogue.above probe := by
  have front : (catalogue.below probe).filter (fun other => key other ≠ key probe) =
      catalogue.below probe :=
    List.filter_eq_self.mpr fun other member => decide_eq_true (lt_of_mem_below member).ne
  have back : (catalogue.above probe).filter (fun other => key other ≠ key probe) =
      catalogue.above probe :=
    List.filter_eq_self.mpr fun other member => decide_eq_true (lt_of_mem_above member).ne'
  have middle : (catalogue.equal? probe).toList.filter (fun other => key other ≠ key probe) =
      [] := by
    refine List.filter_eq_nil_iff.mpr fun other member => ?_
    simpa using eq_of_equal? (Option.mem_toList.mp member)
  change catalogue.records.filter _ = _
  rw [catalogue.records_around probe, List.filter_append, List.filter_append, front, middle, back,
    List.append_nil]

end Catalogue

end SlabTree
