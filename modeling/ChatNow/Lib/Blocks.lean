import Mathlib.Data.List.Basic
import Mathlib.Data.List.Perm.Basic

/-!
# Lists that are taken apart and put together

* `getElem?_flatMap_block`: elements that are written one after another, each in a block of one
  length, are found at the numbers that the length gives.
* `flatMap_filter_perm`: elements that are sorted into groups, and the groups put one after another,
  are the same elements.
-/

namespace List

variable {α β κ : Type*}

/-- The `r`-th place of the `k`-th block. -/
theorem getElem?_flatMap_block {f : α → List β} {n : ℕ} (hf : ∀ a, (f a).length = n) (l : List α)
    {k r : ℕ} (hr : r < n) : (l.flatMap f)[k * n + r]? = l[k]?.bind fun a ↦ (f a)[r]? := by
  induction l generalizing k with
  | nil => rw [List.flatMap_nil, List.getElem?_nil, List.getElem?_nil, Option.bind_none]
  | cons a l ih =>
    rw [List.flatMap_cons]
    cases k with
    | zero =>
      rw [Nat.zero_mul, Nat.zero_add, List.getElem?_append_left (by rw [hf]; exact hr)]
      rfl
    | succ k =>
      have hlength : (f a).length ≤ (k + 1) * n + r := by
        rw [hf, Nat.succ_mul]
        omega
      have hrest : (k + 1) * n + r - (f a).length = k * n + r := by
        rw [hf, Nat.succ_mul]
        omega
      rw [List.getElem?_append_right hlength, hrest, ih, List.getElem?_cons_succ]

theorem length_flatMap_block {f : α → List β} {n : ℕ} (hf : ∀ a, (f a).length = n) (l : List α) :
    (l.flatMap f).length = l.length * n := by
  induction l with
  | nil => rw [List.flatMap_nil, List.length_nil, List.length_nil, Nat.zero_mul]
  | cons a l ih =>
    rw [List.flatMap_cons, List.length_append, hf, ih, List.length_cons, Nat.succ_mul, Nat.add_comm]

/-- **Sorting into groups keeps the elements.** -/
theorem flatMap_filter_perm [DecidableEq κ] {f : α → κ} {order : List κ} (horder : order.Nodup)
    {l : List α} (hl : ∀ a ∈ l, f a ∈ order) :
    (order.flatMap fun b ↦ l.filter fun a ↦ f a = b).Perm l := by
  induction order generalizing l with
  | nil =>
    cases l with
    | nil => exact .nil
    | cons a l => exact absurd (hl a mem_cons_self) not_mem_nil
  | cons b order ih =>
    obtain ⟨hb, horder⟩ := nodup_cons.1 horder
    rw [flatMap_cons]
    -- the later groups do not miss what has been taken for the first one
    have hrest : (order.flatMap fun c ↦ l.filter fun a ↦ f a = c) =
        order.flatMap fun c ↦ (l.filter fun a ↦ !decide (f a = b)).filter fun a ↦ f a = c := by
      refine flatMap_congr fun c hc ↦ ?_
      rw [filter_filter]
      refine filter_congr fun a _ ↦ ?_
      by_cases hac : f a = c
      · have hab : f a ≠ b := fun h ↦ hb (h.symm.trans hac ▸ hc)
        simp [hac, hac ▸ hab]
      · simp [hac]
    rw [hrest]
    refine ((ih horder fun a ha ↦ ?_).append_left _).trans (filter_append_perm _ l)
    obtain ⟨ha, hab⟩ := mem_filter.1 ha
    exact (mem_cons.1 (hl a ha)).resolve_left fun h ↦ by simp [h] at hab

end List
