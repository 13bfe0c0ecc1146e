import Mathlib.Data.Nat.Bitwise
import SlabTree.Lock.Word

/-!
# What a lock shows after a change of its word

The four parts of a word do not mix: as long as the number of holders neither runs
over nor below zero, each change of a word changes the parts it is meant to.
-/

namespace SlabTree.Lock.Word

variable {word first second flag : Word} {i : Nat}

/-! ## Parts of a word -/

/-- Bit `i` of a word. -/
def bit (word : Word) (i : Nat) : Bool :=
  word.toNat.testBit i

/-- The number in the low 29 bits of a word. -/
def low (word : Word) : Nat :=
  word.toNat % 2 ^ 29

theorem and_ne_zero_eq_bit (single : flag.toNat = 2 ^ i) : (word &&& flag != 0) = word.bit i := by
  have masked : (word &&& flag).toNat = (word.toNat.testBit i).toNat * 2 ^ i := by
    rw [UInt32.toNat_and, single, Nat.and_two_pow]
  cases set : word.toNat.testBit i with
  | false =>
      rw [set] at masked
      have nothing : word &&& flag = 0 := UInt32.toNat_inj.mp (masked.trans (Nat.zero_mul _))
      rw [bit, set, nothing]
      rfl
  | true =>
      rw [set] at masked
      have something : word &&& flag ≠ 0 := by
        intro nothing
        rw [nothing, Bool.toNat_true, Nat.one_mul] at masked
        exact (Nat.two_pow_pos i).ne masked
      rw [bit, set]
      exact bne_iff_ne.mpr something

theorem holders_eq_low (word : Word) : word.holders = word.low := by
  rw [holders, UInt32.toNat_and, low]
  exact Nat.and_two_pow_sub_one_eq_mod word.toNat 29

theorem owned_eq_bit (word : Word) : word.owned = word.bit 31 :=
  and_ne_zero_eq_bit rfl

theorem waiting_eq_bit (word : Word) : word.waiting = word.bit 30 :=
  and_ne_zero_eq_bit rfl

theorem queued_eq_bit (word : Word) : word.queued = word.bit 29 :=
  and_ne_zero_eq_bit rfl

theorem snapshot_eq (word : Word) :
    word.snapshot = ⟨word.low, word.bit 31, word.bit 30, word.bit 29⟩ := by
  rw [snapshot, holders_eq_low, owned_eq_bit, waiting_eq_bit, queued_eq_bit]

/-! ## Parts of combined words -/

theorem bit_or : (first ||| second).bit i = (first.bit i || second.bit i) := by
  rw [bit, UInt32.toNat_or, Nat.testBit_or, bit, bit]

theorem bit_and : (first &&& second).bit i = (first.bit i && second.bit i) := by
  rw [bit, UInt32.toNat_and, Nat.testBit_and, bit, bit]

theorem low_or : (first ||| second).low = first.low ||| second.low := by
  rw [low, UInt32.toNat_or, Nat.or_mod_two_pow, low, low]

theorem low_and : (first &&& second).low = first.low &&& second.low := by
  rw [low, UInt32.toNat_and, Nat.and_mod_two_pow, low, low]

theorem bit_not (inside : i < 32) : (~~~word).bit i = !word.bit i := by
  have bits : (~~~word.toBitVec).getLsbD i = (decide (i < 32) && !word.toBitVec.getLsbD i) :=
    BitVec.getLsbD_not
  rw [decide_eq_true inside, Bool.true_and] at bits
  exact bits

theorem bit_flag {n : Nat} (single : flag.toNat = 2 ^ n) : flag.bit i = decide (n = i) := by
  rw [bit, single, Nat.testBit_two_pow]

@[simp]
theorem bit_ownedFlag : ownedFlag.bit i = decide (31 = i) :=
  bit_flag rfl

@[simp]
theorem bit_waitingFlag : waitingFlag.bit i = decide (30 = i) :=
  bit_flag rfl

@[simp]
theorem bit_queuedFlag : queuedFlag.bit i = decide (29 = i) :=
  bit_flag rfl

/-- Flags have no part in the number of holders. -/
theorem low_or_of_low_eq_zero (high : flag.low = 0) : (word ||| flag).low = word.low := by
  rw [low_or, high, Nat.or_zero]

/-- Masks of flags leave the number of holders as it is. -/
theorem low_and_of_low_eq (full : flag.low = 2 ^ 29 - 1) : (word &&& flag).low = word.low := by
  rw [low_and, full]
  exact Nat.and_two_pow_sub_one_of_lt_two_pow (Nat.mod_lt _ (Nat.two_pow_pos 29))

/-- Words that differ in the low bits only show the same flags. -/
theorem snapshot_of_parts {n : Nat} (high : first.toNat / 2 ^ 29 = second.toNat / 2 ^ 29)
    (few : first.low = n) : first.snapshot = { second.snapshot with holders := n } := by
  have flags : ∀ i, first.bit (i + 29) = second.bit (i + 29) := by
    intro i
    have shifted := @Nat.testBit_div_two_pow 29 first.toNat i
    rw [high, Nat.testBit_div_two_pow] at shifted
    exact shifted.symm
  rw [snapshot_eq, snapshot_eq, few, flags 2, flags 1, flags 0]

/-- A word shows all of itself. -/
theorem snapshot_injective (same : first.snapshot = second.snapshot) : first = second := by
  rw [snapshot_eq, snapshot_eq, Snapshot.mk.injEq] at same
  obtain ⟨few, owned, waiting, queued⟩ := same
  apply UInt32.toNat_inj.mp
  apply Nat.eq_of_testBit_eq
  intro i
  rcases Nat.lt_or_ge i 29 with small | large
  · have bits : ∀ word : Word, word.toNat.testBit i = word.low.testBit i := by
      intro word
      rw [low, Nat.testBit_mod_two_pow, decide_eq_true small, Bool.true_and]
    rw [bits, bits, few]
  rcases Nat.lt_or_ge i 32 with flag | beyond
  · have which : i = 29 ∨ i = 30 ∨ i = 31 := by omega
    rcases which with rfl | rfl | rfl
    · exact queued
    · exact waiting
    · exact owned
  · have wide : 2 ^ 32 ≤ 2 ^ i := Nat.pow_le_pow_right (by decide) beyond
    have none : ∀ word : Word, word.toNat.testBit i = false := fun word =>
      Nat.testBit_lt_two_pow (Nat.lt_of_lt_of_le word.toNat_lt wide)
    rw [none, none]

/-! ## What the changes show -/

/-- A reader more, as long as there is room for it. -/
theorem snapshot_join (room : word.holders + 1 < 2 ^ 29) :
    word.join.snapshot = { word.snapshot with holders := word.holders + 1 } := by
  have bounded : word.toNat < 2 ^ 32 := word.toNat_lt
  have sum : word.join.toNat = (word.toNat + 1) % 2 ^ 32 := UInt32.toNat_add word 1
  rw [holders_eq_low, low] at room ⊢
  apply snapshot_of_parts
  · omega
  · rw [low]
    omega

/-- A hold less, as long as there is one. -/
theorem snapshot_leave (used : 0 < word.holders) :
    word.leave.snapshot = { word.snapshot with holders := word.holders - 1 } := by
  have bounded : word.toNat < 2 ^ 32 := word.toNat_lt
  have difference : word.leave.toNat = (2 ^ 32 - 1 + word.toNat) % 2 ^ 32 :=
    UInt32.toNat_sub word 1
  rw [holders_eq_low, low] at used ⊢
  apply snapshot_of_parts
  · omega
  · rw [low]
    omega

/-- A writer comes in. -/
theorem snapshot_claim (word : Word) :
    word.claim.snapshot = ⟨1, true, word.waiting, false⟩ := by
  have few : word.claim.low = 1 := by
    have nothing : (word &&& waitingFlag).low = 0 := by
      rw [low_and]
      exact Nat.and_zero _
    rw [claim, low_or, low_or, nothing]
    rfl
  have one : ∀ i, (1 : Word).bit i = decide (0 = i) := fun i => bit_flag rfl
  rw [snapshot_eq, few, waiting_eq_bit]
  simp [claim, bit_or, bit_and, one]

/-- A writer leaves, if anyone was inside. -/
theorem snapshot_unclaim (used : 0 < word.holders) :
    word.unclaim.snapshot =
      { word.snapshot with holders := word.holders - 1, writer := false } := by
  have few : (word &&& ~~~ownedFlag).low = word.low := low_and_of_low_eq rfl
  have same : (word &&& ~~~ownedFlag).holders = word.holders := by
    rw [holders_eq_low, few, holders_eq_low]
  have left := @snapshot_leave (word &&& ~~~ownedFlag)
  rw [same] at left
  refine (left used).trans ?_
  rw [snapshot_eq, snapshot_eq]
  simp [bit_and, bit_not]

theorem snapshot_setQueued (word : Word) :
    word.setQueued.snapshot = { word.snapshot with writerQueued := true } := by
  rw [snapshot_eq, snapshot_eq, setQueued, low_or_of_low_eq_zero rfl]
  simp [bit_or]

theorem snapshot_setWaiting (word : Word) :
    word.setWaiting.snapshot = { word.snapshot with waiting := true } := by
  rw [snapshot_eq, snapshot_eq, setWaiting, low_or_of_low_eq_zero rfl]
  simp [bit_or]

theorem snapshot_clearWaiting (word : Word) :
    word.clearWaiting.snapshot = { word.snapshot with waiting := false } := by
  rw [snapshot_eq, snapshot_eq, clearWaiting, low_and_of_low_eq rfl]
  simp [bit_and, bit_not]

/-! ## What a word is asked -/

theorem and_or_ne_zero (word first second : Word) :
    (word &&& (first ||| second) != 0) = (word &&& first != 0 || word &&& second != 0) := by
  have apart : word &&& (first ||| second) = word &&& first ||| word &&& second := by
    apply UInt32.toNat_inj.mp
    simp only [UInt32.toNat_and, UInt32.toNat_or, Nat.and_or_distrib_left]
  rw [apart, Bool.eq_iff_iff, Bool.or_eq_true, bne_iff_ne, bne_iff_ne,
    bne_iff_ne, ne_eq, UInt32.or_eq_zero_iff, not_and_or]

theorem and_countMask_ne_zero (word : Word) :
    (word &&& countMask != 0) = decide (0 < word.holders) := by
  rw [Bool.eq_iff_iff, bne_iff_ne, decide_eq_true_iff, holders, Nat.pos_iff_ne_zero, ne_eq,
    ← UInt32.toNat_inj]
  rfl

/-- Someone is inside when a writer is or anyone holds. -/
theorem held_eq (word : Word) : word.held = (word.owned || decide (0 < word.holders)) := by
  rw [held, and_or_ne_zero, and_countMask_ne_zero, owned]

/-- Readers stay out when any flag is set. -/
theorem closed_eq (word : Word) : word.closed = (word.owned || word.waiting || word.queued) := by
  rw [closed, and_or_ne_zero, and_or_ne_zero, owned, waiting, queued]

theorem lastAwaited_eq (word : Word) :
    word.lastAwaited = (word.waiting && decide (word.holders = 1)) := by
  have last : (word &&& countMask == 1) = decide (word.holders = 1) := by
    rw [Bool.eq_iff_iff, beq_iff_eq, decide_eq_true_iff, holders, ← UInt32.toNat_inj]
    rfl
  rw [lastAwaited, last]

end SlabTree.Lock.Word
