import SlabTree.Fault

/-!
# Words

Sizes, page numbers and places in memory are words of 64 bits.  They are computed here as exact
numbers, and a number that no word holds ends the run, so that a run which goes on has computed
nothing but words.
-/

namespace SlabTree.Words

/-- The number of words: each number below it is one. -/
def limit : Nat := 0x10000000000000000

/-- A number that a word holds; any other ends the run. -/
def fitted (n : Nat) : Except Fault Nat :=
  if n < limit then .ok n else .error .overflow

/-- The quotient of two numbers, one larger if there is a remainder. -/
def divCeil (a b : Nat) : Nat :=
  if a % b = 0 then a / b else a / b + 1

theorem fitted_eq_ok {n : Nat} (fits : n < limit) : fitted n = .ok n :=
  if_pos fits

end SlabTree.Words
