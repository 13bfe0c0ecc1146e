import Mathlib.Data.List.Lex
import Mathlib.Order.Compare
import Mathlib.Order.Lattice
import SlabTree.KeyOrder

/-!
# Orders by a key

An order that deserves the name compares a key of the probe with a key of the
payload.  The order of leading bytes is one.
-/

namespace SlabTree.KeyOrder

universe u

/-- The order compares keys, which are linearly ordered. -/
def By {κ : Type u} [LinearOrder κ] (order : KeyOrder) (key : Bytes → κ) : Prop :=
  ∀ asked probe stored, order.compare asked probe stored = cmp (key probe) (key stored)

section By

variable {κ : Type u} [LinearOrder κ] {order : KeyOrder} {key : Bytes → κ}
  {asked : Nat} {probe stored : Bytes}

theorem By.lt_iff (by_ : order.By key) :
    order.compare asked probe stored = .lt ↔ key probe < key stored := by
  rw [by_, cmp_eq_lt_iff]

theorem By.eq_iff (by_ : order.By key) :
    order.compare asked probe stored = .eq ↔ key probe = key stored := by
  rw [by_, cmp_eq_eq_iff]

theorem By.gt_iff (by_ : order.By key) :
    order.compare asked probe stored = .gt ↔ key stored < key probe := by
  rw [by_, cmp_eq_gt_iff]

end By

/-! ## Orders on what is stored -/

/-- The order calls one payload less than another. -/
def Less (order : KeyOrder) (first second : Bytes) : Prop :=
  order.compare 0 first second = .lt

instance (order : KeyOrder) : DecidableRel order.Less := fun first second =>
  inferInstanceAs (Decidable (order.compare 0 first second = .lt))

/-- Among the payloads that are stored, the order always calls the same ones less, and
"less" is irreflexive and transitive. -/
structure Ranks (order : KeyOrder) (stored : Bytes → Prop) : Prop where
  steady : ∀ asked first second, stored first → stored second →
    (order.compare asked first second = .lt ↔ order.Less first second)
  irrefl : ∀ payload, stored payload → ¬order.Less payload payload
  trans : ∀ first second third, stored first → stored second → stored third →
    order.Less first second → order.Less second third → order.Less first third

/-- An order by a key ranks whatever is stored. -/
theorem By.ranks {κ : Type u} [LinearOrder κ] {order : KeyOrder} {key : Bytes → κ}
    (by_ : order.By key) (stored : Bytes → Prop) : order.Ranks stored where
  steady := fun _ _ _ _ _ => by_.lt_iff.trans by_.lt_iff.symm
  irrefl := fun payload _ below => lt_irrefl (key payload) (by_.lt_iff.mp below)
  trans := fun _ _ _ _ _ _ below above =>
    by_.lt_iff.mpr (lt_trans (by_.lt_iff.mp below) (by_.lt_iff.mp above))

/-! ## Leading bytes -/

/-- Bytes as numbers, of which lists are ordered from left to right. -/
def numbers (bytes : Bytes) : List Nat :=
  bytes.map UInt8.toNat

theorem compares_byte (first second : UInt8) :
    (Ord.compare first second).Compares first.toNat second.toNat := by
  cases outcome : Ord.compare first second with
  | lt => exact UInt8.lt_iff_toNat_lt.mp (compareOfLessAndEq_eq_lt.mp outcome)
  | eq => exact congrArg UInt8.toNat (Std.LawfulEqOrd.eq_of_compare outcome)
  | gt =>
      have swapped := Std.OrientedCmp.gt_iff_lt.mp outcome
      exact UInt8.lt_iff_toNat_lt.mp (compareOfLessAndEq_eq_lt.mp swapped)

theorem compares_numbers (first second : Bytes) :
    (Ord.compare first second).Compares (numbers first) (numbers second) := by
  induction first generalizing second with
  | nil =>
      cases second with
      | nil => exact rfl
      | cons head tail => exact List.Lex.nil
  | cons head tail inductionHypothesis =>
      cases second with
      | nil => exact List.Lex.nil
      | cons other rest =>
          have heads := compares_byte head other
          have tails := inductionHypothesis rest
          have split : Ord.compare (head :: tail) (other :: rest) =
              (Ord.compare head other).then (Ord.compare tail rest) :=
            List.compareLex_cons_cons
          rw [split]
          cases outcome : Ord.compare head other with
          | lt =>
              rw [outcome] at heads
              exact List.Lex.rel heads
          | gt =>
              rw [outcome] at heads
              exact List.Lex.rel heads
          | eq =>
              rw [outcome] at heads
              have same : head.toNat = other.toNat := heads
              have equal : numbers (head :: tail) = other.toNat :: numbers tail :=
                congrArg (· :: numbers tail) same
              rw [equal]
              change (Ord.compare tail rest).Compares _ (other.toNat :: numbers rest)
              cases onward : Ord.compare tail rest with
              | lt =>
                  rw [onward] at tails
                  exact List.Lex.cons tails
              | eq =>
                  rw [onward] at tails
                  exact congrArg (other.toNat :: ·) tails
              | gt =>
                  rw [onward] at tails
                  exact List.Lex.cons tails

/-- The order of the leading bytes compares these bytes. -/
theorem leading_by (keySize : Nat) :
    (leading keySize).By fun bytes => numbers (bytes.take keySize) :=
  fun _ probe stored => (compares_numbers (probe.take keySize) (stored.take keySize)).cmp_eq.symm

end SlabTree.KeyOrder
