import Mathlib.Algebra.Ring.Nat
import Mathlib.Data.Int.Order.Basic
import Mathlib.Data.Nat.Log

namespace BinaryRounding

/-!
# Rounding to a binary precision

The conversion of an integer to a binary floating point format whose exponents
do not run out: the integer is rounded to the nearest multiple of the distance
between its neighbours in the format, and to the even one of two that are
equally near.
-/

/-- The nearest multiple of a unit, the even one if two are equally near. -/
def roundTo (unit n : Nat) : Nat :=
  let quotient := n / unit
  let remainder := n % unit
  if 2 * remainder < unit ∨ (2 * remainder = unit ∧ quotient % 2 = 0) then
    quotient * unit
  else
    (quotient + 1) * unit

/-- The distance of the neighbours of a number. -/
def spacing (precision n : Nat) : Nat :=
  2 ^ (Nat.log2 n + 1 - precision)

/-- An integer in a format with some bits of precision. -/
def roundInt (precision : Nat) (n : Int) : Int :=
  n.sign * (roundTo (spacing precision n.natAbs) n.natAbs : Nat)

/-- A multiple of the unit is not rounded. -/
theorem roundTo_of_dvd
    {unit n : Nat}
    (positive : 0 < unit)
    (divides : unit ∣ n) :
    roundTo unit n = n := by
  obtain ⟨quotient, rfl⟩ := divides
  simp [roundTo, Nat.mul_div_cancel_left _ positive, positive, Nat.mul_comm]

/-- Below the precision all integers are neighbours. -/
theorem spacing_of_lt
    {precision n : Nat}
    (small : n < 2 ^ precision) :
    spacing precision n = 1 ∨ n = 0 := by
  by_cases zero : n = 0
  · exact .inr zero
  · have bits := (Nat.log2_lt zero).mpr small
    refine .inl ?_
    rw [spacing, Nat.sub_eq_zero_of_le bits, Nat.pow_zero]

/-- Integers below the precision are exact. -/
theorem roundInt_of_natAbs_lt
    {precision : Nat}
    {n : Int}
    (small : n.natAbs < 2 ^ precision) :
    roundInt precision n = n := by
  have rounded : roundTo (spacing precision n.natAbs) n.natAbs = n.natAbs := by
    rcases spacing_of_lt small with single | zero
    · rw [single]
      exact roundTo_of_dvd Nat.one_pos (Nat.one_dvd _)
    · rw [zero]
      exact roundTo_of_dvd (Nat.two_pow_pos _) (Nat.dvd_zero _)
  rw [roundInt, rounded]
  exact Int.sign_mul_natAbs n

-- Ties go to the even neighbour: 5 and 7 lie between 4, 6 and 8.
example :
    roundInt 2 5 = 4 ∧ roundInt 2 7 = 8 ∧ roundInt 2 (-5) = -4 := by
  decide +kernel

end BinaryRounding
