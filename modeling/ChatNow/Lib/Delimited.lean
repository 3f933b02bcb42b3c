import Mathlib.Data.List.TakeWhile

/-!
# Texts with a separator

A list is cut at the first place where a separator stands. What stands before the separator cannot
contain it; if it does not, the cut gives back the two parts (`before_append_cons`,
`find_append_cons`), so the parts are told by the whole (`append_cons_inj`).
-/

namespace Delimited

variable {α : Type*} [DecidableEq α] {sep : α} {x y z w : List α}

/-- What stands before the first separator, if there is one. -/
def before (sep : α) (l : List α) : List α := l.takeWhile (· ≠ sep)

/-- What stands behind the first separator, and nothing if there is none. -/
def after (sep : α) (l : List α) : List α := (l.dropWhile (· ≠ sep)).tail

/-- A separator behind a list changes nothing of what stands before its first one. -/
theorem before_append_sep : before sep (x ++ sep :: y) = before sep x := by
  induction x with
  | nil => simp [before]
  | cons a x ih =>
    by_cases ha : a = sep
    · simp [before, ha]
    · simpa [before, ha] using ih

theorem before_of_notMem (h : sep ∉ x) : before sep x = x :=
  List.takeWhile_eq_self_iff.2 fun _ ha ↦ decide_eq_true fun heq ↦ h (heq ▸ ha)

theorem before_append_cons (h : sep ∉ x) : before sep (x ++ sep :: y) = x :=
  before_append_sep.trans (before_of_notMem h)

/-- Nothing stands before a separator at the head. -/
theorem before_eq_nil_iff : before sep x = [] ↔ x.head? = none ∨ x.head? = some sep := by
  cases x with
  | nil => simp [before]
  | cons a x =>
    by_cases ha : a = sep
    · simp [before, ha]
    · simp [before, ha]

theorem after_append_cons (h : sep ∉ x) : after sep (x ++ sep :: y) = y := by
  have hx : ∀ a ∈ x, decide (a ≠ sep) = true := fun a ha ↦
    decide_eq_true fun heq ↦ h (heq ▸ ha)
  rw [after, List.dropWhile_append_of_pos hx, List.dropWhile_cons_of_neg (by simp), List.tail_cons]

/-- The separator is found behind the first part. -/
theorem find_append_cons (h : sep ∉ x) :
    (x ++ sep :: y).findIdx? (fun a ↦ decide (a = sep)) = some x.length := by
  induction x with
  | nil =>
    rw [List.nil_append, List.findIdx?_cons, decide_eq_true rfl]
    rfl
  | cons a x ih =>
    have ha : a ≠ sep := fun heq ↦ h (heq ▸ List.mem_cons_self)
    have hx : sep ∉ x := fun hmem ↦ h (List.mem_cons_of_mem a hmem)
    rw [List.cons_append, List.findIdx?_cons, decide_eq_false ha, ih hx]
    rfl

/-- **The whole tells its parts.** -/
theorem append_cons_inj (hx : sep ∉ x) (hz : sep ∉ z) :
    x ++ sep :: y = z ++ sep :: w ↔ x = z ∧ y = w := by
  constructor
  · intro h
    refine ⟨?_, ?_⟩
    · rw [← before_append_cons (y := y) hx, h, before_append_cons hz]
    · rw [← after_append_cons (y := y) hx, h, after_append_cons hz]
  · rintro ⟨rfl, rfl⟩
    rfl

end Delimited
