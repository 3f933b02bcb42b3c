import Mathlib.Algebra.Order.Ring.Nat
import Mathlib.Data.Nat.Log
import Mathlib.Tactic.Ring

/-!
# Naturals in a binary floating-point number

`roundBits p n` is the number that stands for `n` in a binary format with a significand of `p` bits,
rounded to the nearest and on a tie to the even one, where the exponent is not bounded. With
`p = 53` it is what a reading of a decimal text as a double yields for every text of fewer than
three hundred digits.

Comparing two rounded numbers is comparing the numbers as soon as the one on the right has no more
than `p` bits (`roundBits_lt_iff`, `roundBits_eq_iff`).
-/

/-- A natural number rounded to `p` significant bits. -/
def roundBits (p n : ℕ) : ℕ :=
  if n < 2 ^ p then n
  else
    let ulp := 2 ^ (n.log2 + 1 - p)
    let q := n / ulp
    let r := n % ulp
    (if 2 * r < ulp ∨ 2 * r = ulp ∧ q % 2 = 0 then q else q + 1) * ulp

variable {p n b : ℕ}

theorem roundBits_of_lt (h : n < 2 ^ p) : roundBits p n = n := if_pos h

/-- A number with more bits is not rounded into the range of those with `p` bits. -/
theorem le_roundBits (hp : 0 < p) (h : 2 ^ p ≤ n) : 2 ^ p ≤ roundBits p n := by
  have hpos := Nat.two_pow_pos p
  have hne : n ≠ 0 := by omega
  have hlog : p ≤ n.log2 := (Nat.le_log2 hne).2 h
  -- the power of two below `n` is a multiple of the last place
  have hulp : 2 ^ (p - 1) * 2 ^ (n.log2 + 1 - p) = 2 ^ n.log2 := by
    rw [← Nat.pow_add]
    congr 1
    omega
  have hle : 2 ^ (p - 1) ≤ n / 2 ^ (n.log2 + 1 - p) := by
    rw [Nat.le_div_iff_mul_le (Nat.two_pow_pos _), hulp]
    exact Nat.log2_self_le hne
  calc 2 ^ p ≤ 2 ^ n.log2 := Nat.pow_le_pow_right (by decide) hlog
    _ = 2 ^ (p - 1) * 2 ^ (n.log2 + 1 - p) := hulp.symm
    _ ≤ roundBits p n := by
      rw [roundBits, if_neg (by omega)]
      refine Nat.mul_le_mul_right _ ?_
      split
      · exact hle
      · exact Nat.le_succ_of_le hle

theorem roundBits_lt_iff (hp : 0 < p) (hb : b < 2 ^ p) :
    roundBits p n < roundBits p b ↔ n < b := by
  rw [roundBits_of_lt hb]
  rcases Nat.lt_or_ge n (2 ^ p) with hn | hn
  · rw [roundBits_of_lt hn]
  · have := le_roundBits hp hn
    omega

theorem roundBits_eq_iff (hp : 0 < p) (hb : b < 2 ^ p) :
    roundBits p n = roundBits p b ↔ n = b := by
  rw [roundBits_of_lt hb]
  rcases Nat.lt_or_ge n (2 ^ p) with hn | hn
  · rw [roundBits_of_lt hn]
  · have := le_roundBits hp hn
    omega

example : roundBits 53 (2 ^ 53 + 1) = 2 ^ 53 := by decide
