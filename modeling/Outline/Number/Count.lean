/-!
# Counts

Lines, columns and gaps are counted in words of 64 bits.

* `countLimit`: the first number that is no count.
* `asCount`: a number, or the largest count instead of a larger one.
* `sumOf`: the sum of some numbers.
-/

namespace Outline

/-- Counts are below this limit, the power of two with exponent 64. -/
def countLimit : Nat := 0x10000000000000000

/-- A number as a count: the largest count stands for all that lies beyond it. -/
def asCount (n : Nat) : Nat := min n (countLimit - 1)

theorem asCount_of_lt {n : Nat} (h : n < countLimit) : asCount n = n :=
  Nat.min_eq_left (Nat.le_sub_one_of_lt h)

theorem asCount_mono {m n : Nat} (h : m ≤ n) : asCount m ≤ asCount n := by
  rw [asCount, asCount]
  omega

/-- The sum of some numbers. -/
def sumOf : List Nat → Nat
  | [] => 0
  | n :: ns => n + sumOf ns

end Outline
