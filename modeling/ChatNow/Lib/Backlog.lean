import Mathlib.Data.List.Basic
import Mathlib.Logic.Function.Iterate

/-!
# Queues of which the head is tried

Again and again the first `n` elements of a queue are tried. Those that are **refused** stay where
they are, the others leave (`round`). As long as it is always the same ones that are refused, a
queue comes to rest, and what is left is known beforehand (`stuck`): the refused ones up to the
`n`-th, and everything behind it. Fewer than `n` refused ones hold nobody up (`stuck_of_countP_lt`).
-/

namespace Backlog

variable {α : Type} (refused : α → Bool)

/-- The first `n` elements are tried. -/
def round (n : ℕ) (l : List α) : List α := (l.take n).filter refused ++ l.drop n

/-- What never leaves. -/
def stuck : ℕ → List α → List α
  | 0, l => l
  | _ + 1, [] => []
  | n + 1, a :: l => if refused a then a :: stuck n l else stuck (n + 1) l

variable {refused} {n m k : ℕ} {a : α} {l : List α}

@[simp] theorem stuck_zero : stuck refused 0 l = l := by rw [stuck]

@[simp] theorem stuck_nil : stuck refused n [] = [] := by cases n <;> rfl

theorem stuck_cons_of_refused (h : refused a = true) :
    stuck refused (n + 1) (a :: l) = a :: stuck refused n l := if_pos h

theorem stuck_cons_of_not_refused (h : refused a = false) :
    stuck refused (n + 1) (a :: l) = stuck refused (n + 1) l :=
  if_neg (Bool.eq_false_iff.1 h)

/-- Whoever leaves has held up nobody. -/
theorem stuck_round (h : n ≤ m) : stuck refused m (round refused n l) = stuck refused m l := by
  induction l generalizing n m with
  | nil => rw [round, List.take_nil, List.drop_nil, List.filter_nil, List.nil_append]
  | cons a l ih =>
    cases n with
    | zero => rfl
    | succ n =>
      obtain ⟨m, rfl⟩ := Nat.exists_eq_succ_of_ne_zero (Nat.ne_of_gt (Nat.lt_of_lt_of_le
        (Nat.succ_pos n) h))
      rw [round, List.take_succ_cons, List.drop_succ_cons]
      cases ha : refused a with
      | true =>
        rw [List.filter_cons_of_pos ha, List.cons_append, stuck_cons_of_refused ha,
          stuck_cons_of_refused ha]
        exact congrArg _ (ih (Nat.le_of_succ_le_succ h))
      | false =>
        rw [List.filter_cons_of_neg (Bool.eq_false_iff.1 ha), stuck_cons_of_not_refused ha]
        exact ih (Nat.le_of_succ_le h)

/-- When all that are tried are refused, nobody leaves. -/
theorem round_of_all (h : ∀ a ∈ l.take n, refused a = true) : round refused n l = l := by
  rw [round, List.filter_eq_self.2 h, List.take_append_drop]

theorem stuck_of_all (h : ∀ a ∈ l.take n, refused a = true) : stuck refused n l = l := by
  induction l generalizing n with
  | nil => exact stuck_nil
  | cons a l ih =>
    cases n with
    | zero => exact stuck_zero
    | succ n =>
      rw [List.take_succ_cons] at h
      rw [stuck_cons_of_refused (h a List.mem_cons_self),
        ih fun b hb ↦ h b (List.mem_cons_of_mem a hb)]

theorem length_round_lt (h : ¬∀ a ∈ l.take n, refused a = true) :
    (round refused n l).length < l.length := by
  have hlt : ((l.take n).filter refused).length < (l.take n).length :=
    List.length_filter_lt_length_iff_exists.2 (by simpa using h)
  calc (round refused n l).length = ((l.take n).filter refused).length + (l.drop n).length :=
        List.length_append
    _ < (l.take n).length + (l.drop n).length := Nat.add_lt_add_right hlt _
    _ = l.length := by rw [← List.length_append, List.take_append_drop]

/-- **What is left of a queue** after as many rounds as it had elements, and ever after. -/
theorem iterate_round (h : l.length ≤ k) : (round refused n)^[k] l = stuck refused n l := by
  induction k generalizing l with
  | zero =>
    obtain rfl := List.length_eq_zero_iff.1 (Nat.le_zero.1 h)
    exact stuck_nil.symm
  | succ k ih =>
    rw [Function.iterate_succ_apply]
    by_cases hall : ∀ a ∈ l.take n, refused a = true
    · rw [round_of_all hall, stuck_of_all hall]
      exact Function.iterate_fixed (round_of_all hall) k
    · have hlt := Nat.lt_of_lt_of_le (length_round_lt hall) h
      rw [ih (Nat.le_of_lt_succ hlt), stuck_round (Nat.le_refl n)]

/-- Fewer than `n` refused ones hold nobody up. -/
theorem stuck_of_countP_lt (h : l.countP refused < n) : stuck refused n l = l.filter refused := by
  induction l generalizing n with
  | nil => exact stuck_nil
  | cons a l ih =>
    obtain ⟨n, rfl⟩ := Nat.exists_eq_succ_of_ne_zero (Nat.ne_of_gt (Nat.zero_lt_of_lt h))
    cases ha : refused a with
    | true =>
      rw [List.countP_cons_of_pos ha] at h
      rw [stuck_cons_of_refused ha, List.filter_cons_of_pos ha, ih (Nat.lt_of_succ_lt_succ h)]
    | false =>
      rw [List.countP_cons_of_neg (Bool.eq_false_iff.1 ha)] at h
      rw [stuck_cons_of_not_refused ha, List.filter_cons_of_neg (Bool.eq_false_iff.1 ha), ih h]

end Backlog
