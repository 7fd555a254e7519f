import Mathlib.Data.Nat.Bitwise

/-!
# Strings of bits

The bits of a number from the highest one down, in a given width.
-/

namespace BitStrings

def bitsOf (width value : ℕ) : List Bool :=
  (List.range width).map fun i => value.testBit (width - 1 - i)

@[simp] theorem length_bitsOf (width value : ℕ) : (bitsOf width value).length = width := by
  rw [bitsOf, List.length_map, List.length_range]

theorem getElem_bitsOf {width value i : ℕ} (h : i < (bitsOf width value).length) :
    (bitsOf width value)[i] = value.testBit (width - 1 - i) := by
  simp only [bitsOf, List.getElem_map, List.getElem_range]

theorem bitsOf_injective {width first second : ℕ} (hfirst : first < 2 ^ width)
    (hsecond : second < 2 ^ width) (h : bitsOf width first = bitsOf width second) :
    first = second := by
  apply Nat.eq_of_testBit_eq
  intro i
  by_cases hi : i < width
  · have hlength : width - 1 - i < (bitsOf width first).length := by
      rw [length_bitsOf]
      omega
    have hlength' : width - 1 - i < (bitsOf width second).length := by
      rw [length_bitsOf]
      omega
    have hbit : (bitsOf width first)[width - 1 - i] = (bitsOf width second)[width - 1 - i] := by
      simp only [h]
    have hplace : width - 1 - (width - 1 - i) = i := by omega
    rw [getElem_bitsOf, getElem_bitsOf, hplace] at hbit
    exact hbit
  · have hpow : 2 ^ width ≤ 2 ^ i := Nat.pow_le_pow_right (by omega) (by omega)
    rw [Nat.testBit_lt_two_pow (by omega), Nat.testBit_lt_two_pow (by omega)]

theorem bitsOf_add (high low value : ℕ) :
    bitsOf (high + low) value = bitsOf high (value / 2 ^ low) ++ bitsOf low (value % 2 ^ low) := by
  apply List.ext_getElem
  · rw [List.length_append, length_bitsOf, length_bitsOf, length_bitsOf]
  · intro i hi _
    rw [length_bitsOf] at hi
    rw [getElem_bitsOf, List.getElem_append]
    split
    · rename_i hhigh
      rw [length_bitsOf] at hhigh
      have hplace : high - 1 - i + low = high + low - 1 - i := by omega
      rw [getElem_bitsOf, Nat.testBit_div_two_pow, hplace]
    · rename_i hlow
      rw [length_bitsOf] at hlow
      have hplace : low - 1 - (i - high) = high + low - 1 - i := by omega
      simp only [length_bitsOf, getElem_bitsOf, Nat.testBit_mod_two_pow, hplace]
      rw [decide_eq_true (by omega), Bool.true_and]

end BitStrings
