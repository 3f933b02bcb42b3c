import Mathlib.Algebra.Group.Nat.Defs
import Mathlib.Algebra.Ring.Int.Defs

/-!
# Signed machine integers

Numbers of `w` bits, as integers in a range. `wrap` is what a conversion keeps of an integer, and
what an addition leaves that runs over; `Fits` says that nothing is lost.
-/

namespace MachineInt

variable {w : ℕ} {x y : ℤ}

/-- The integer is one of the type. -/
def Fits (w : ℕ) (x : ℤ) : Prop := -2 ^ (w - 1) ≤ x ∧ x < 2 ^ (w - 1)

instance (w : ℕ) (x : ℤ) : Decidable (Fits w x) := inferInstanceAs (Decidable (_ ∧ _))

/-- The integer of the type that is congruent to `x`. -/
def wrap (w : ℕ) (x : ℤ) : ℤ := x.bmod (2 ^ w)

theorem wrap_of_fits (hw : 0 < w) (h : Fits w x) : wrap w x = x := by
  obtain ⟨n, rfl⟩ : ∃ n, w = n + 1 := Nat.exists_eq_add_one.2 hw
  have hpow : ((2 ^ (n + 1) : ℕ) : ℤ) = 2 ^ n * 2 := by
    rw [Nat.pow_succ]
    norm_cast
  obtain ⟨hlo, hhi⟩ := h
  rw [Nat.add_sub_cancel] at hlo hhi
  exact Int.bmod_eq_of_le (by omega) (by omega)

theorem wrap_lt (hw : 0 < w) (x : ℤ) : wrap w x < 2 ^ (w - 1) := by
  obtain ⟨n, rfl⟩ : ∃ n, w = n + 1 := Nat.exists_eq_add_one.2 hw
  have hpow : ((2 ^ (n + 1) : ℕ) : ℤ) = 2 ^ n * 2 := by
    rw [Nat.pow_succ]
    norm_cast
  have hlt := Int.bmod_lt (x := x) (Nat.two_pow_pos (n + 1))
  rw [Nat.add_sub_cancel, wrap]
  omega

/-- The sum, where it is an integer of the type. -/
def checkedAdd (w : ℕ) (x y : ℤ) : Option ℤ := if Fits w (x + y) then some (x + y) else none

end MachineInt
