import Mathlib.Algebra.Order.Ring.Nat
import Mathlib.Data.Nat.Bits

/-!
# Rounding to a number of significant bits

A natural number rounded to the nearest one with `p` significant bits, a tie to the even
one. A product of two binary floating-point numbers is such a rounding of the product of
their significands, so long as the exponent is in range.
-/

namespace Choreographr.Lib

/-- The distance of the numbers with `p` significant bits around `x`. -/
def ulp (p x : Nat) : Nat := 2 ^ (x.log2 + 1 - p)

def roundTo (p x : Nat) : Nat :=
  let low := x / ulp p x * ulp p x
  let rest := x % ulp p x
  if ulp p x < 2 * rest ∨ 2 * rest = ulp p x ∧ x / ulp p x % 2 = 1 then low + ulp p x else low

variable {p x u : Nat}

theorem ulp_pos : 0 < ulp p x := Nat.two_pow_pos _

theorem ulp_dvd {k : Nat} (hBits : 0 < p) (hx : x < 2 ^ (p + k)) (hGrid : 2 ^ k ∣ u) :
    ulp p x ∣ u := by
  have hLog : x.log2 < p + k := by
    rcases Nat.eq_zero_or_pos x with rfl | hPos
    · change 0 < p + k
      omega
    · exact (Nat.log2_lt (Nat.pos_iff_ne_zero.mp hPos)).mpr hx
  exact (Nat.pow_dvd_pow 2 (by omega)).trans hGrid

/-- A number of the grid that bounds `x` bounds what `x` is rounded to. -/
theorem roundTo_le (hLe : x ≤ u) (hGrid : ulp p x ∣ u) : roundTo p x ≤ u := by
  obtain ⟨m, rfl⟩ := hGrid
  have hPos := @ulp_pos p x
  have hSplit : ulp p x * (x / ulp p x) + x % ulp p x = x := Nat.div_add_mod x (ulp p x)
  have hFloor : x / ulp p x * ulp p x ≤ ulp p x * m := by
    rw [Nat.mul_comm]
    omega
  unfold roundTo
  simp only
  split
  · rename_i hUp
    have hRest : 0 < x % ulp p x := by omega
    -- above a point of the grid, the bound is the next point or further
    have hBelow : x / ulp p x < m := by
      rw [Nat.div_lt_iff_lt_mul hPos, Nat.mul_comm]
      refine lt_of_le_of_ne hLe fun hEq => ?_
      have hMod : x % ulp p x = 0 := Nat.mod_eq_zero_of_dvd ⟨m, hEq⟩
      omega
    calc x / ulp p x * ulp p x + ulp p x = (x / ulp p x + 1) * ulp p x := by
          rw [Nat.add_mul, Nat.one_mul]
      _ ≤ m * ulp p x := Nat.mul_le_mul_right _ hBelow
      _ = ulp p x * m := Nat.mul_comm _ _
  · exact hFloor

theorem roundTo_of_lt (hx : x < 2 ^ p) : roundTo p x = x := by
  have hLog : x.log2 + 1 - p = 0 ∨ x = 0 := by
    rcases Nat.eq_zero_or_pos x with rfl | hPos
    · exact Or.inr rfl
    · have hLt := (Nat.log2_lt (Nat.pos_iff_ne_zero.mp hPos)).mpr hx
      omega
  rcases hLog with hExact | rfl
  · have hOne : ulp p x = 1 := by rw [ulp, hExact, Nat.pow_zero]
    have hNotUp : ¬(1 < 2 * (x % 1) ∨ 2 * (x % 1) = 1 ∧ x / 1 % 2 = 1) := by omega
    unfold roundTo
    simp only [hOne]
    rw [if_neg hNotUp, Nat.div_one, Nat.mul_one]
  · have hPos := @ulp_pos p 0
    have hNotUp : ¬(ulp p 0 < 2 * (0 % ulp p 0) ∨
        2 * (0 % ulp p 0) = ulp p 0 ∧ 0 / ulp p 0 % 2 = 1) := by
      rw [Nat.zero_mod]
      omega
    unfold roundTo
    simp only
    rw [if_neg hNotUp, Nat.zero_div, Nat.zero_mul]

example : roundTo 3 9 = 8 ∧ roundTo 3 11 = 12 ∧ roundTo 3 15 = 16 := by decide

end Choreographr.Lib
