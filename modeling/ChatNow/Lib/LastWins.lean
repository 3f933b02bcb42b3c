import Mathlib.Data.List.Dedup
import Mathlib.Data.List.Nodup
import Mathlib.Data.List.Sort

/-!
# Writes of which the last one counts

Operations on a value, each of which makes its own earlier occurrences immaterial: an assignment of
the whole value, or of a part of it. What a list of such operations leaves is decided by the last
occurrence of each, in the order of these (`after_dedup`).

So a list of operations may be executed with repetitions, and with gaps: `Covers` says that what is
executed follows the numbers of the list, and that whatever the list has is executed under a number
no lower. Then the value is the one that the list itself leaves (`Covers.after_eq`).
-/

namespace LastWins

variable {α D : Type}

/-- The value after a list of operations. -/
def after (act : α → D → D) (l : List α) (x : D) : D := l.foldl (fun x a ↦ act a x) x

/-- An operation makes its own earlier occurrence immaterial, whatever comes between. -/
structure Absorbing (act : α → D → D) : Prop where
  idem : ∀ a x, act a (act a x) = act a x
  absorb : ∀ a b x, act a (act b (act a x)) = act a (act b x)

section Absorbing

variable {act : α → D → D} {a : α} {l : List α} {x : D}

@[simp] theorem after_nil : after act [] x = x := rfl

@[simp] theorem after_cons : after act (a :: l) x = after act l (act a x) := rfl

theorem after_concat : after act (l ++ [a]) x = act a (after act l x) := by
  rw [after, List.foldl_append]
  rfl

/-- What comes again can be left out. -/
theorem Absorbing.after_of_mem (h : Absorbing act) (ha : a ∈ l) (x : D) :
    after act l (act a x) = after act l x := by
  induction l generalizing x with
  | nil => cases ha
  | cons b l ih =>
    rw [after_cons, after_cons]
    by_cases hl : a ∈ l
    · calc after act l (act b (act a x))
          = after act l (act a (act b (act a x))) := (ih hl _).symm
        _ = after act l (act a (act b x)) := by rw [h.absorb]
        _ = after act l (act b x) := ih hl _
    · obtain rfl := (List.mem_cons.1 ha).resolve_right hl
      rw [h.idem]

/-- **The last occurrences decide.** -/
theorem Absorbing.after_dedup [DecidableEq α] (h : Absorbing act) (l : List α) (x : D) :
    after act l.dedup x = after act l x := by
  induction l generalizing x with
  | nil => rfl
  | cons a l ih =>
    by_cases ha : a ∈ l
    · rw [List.dedup_cons_of_mem ha, after_cons, h.after_of_mem ha, ih]
    · rw [List.dedup_cons_of_notMem ha, after_cons, after_cons, ih]

end Absorbing

/-! ### The number of the last occurrence -/

variable [DecidableEq α]

/-- The number of the last occurrence in a list. -/
def lastIdx (l : List α) (a : α) : ℕ := l.length - 1 - l.reverse.idxOf a

section LastIdx

variable {l : List α} {a b : α} {i : ℕ}

theorem getElem?_lastIdx (h : a ∈ l) : l[lastIdx l a]? = some a := by
  have hlt : l.reverse.idxOf a < l.length := by
    simpa using List.idxOf_lt_length_iff.2 (List.mem_reverse.2 h)
  have hget := List.getElem?_idxOf (List.mem_reverse.2 h)
  rwa [List.getElem?_reverse hlt] at hget

theorem le_lastIdx (h : l[i]? = some a) : i ≤ lastIdx l a := by
  obtain ⟨hi, ha⟩ := List.getElem?_eq_some_iff.1 h
  have hrev : l.reverse[l.length - 1 - i]? = some a := by
    rw [List.getElem?_reverse (by omega), show l.length - 1 - (l.length - 1 - i) = i by omega, h]
  obtain ⟨hj, ha'⟩ := List.getElem?_eq_some_iff.1 hrev
  have hle : l.reverse.idxOf a ≤ l.length - 1 - i := by
    by_contra hlt
    have hne := List.not_of_lt_findIdx (not_le.1 hlt)
    rw [ha', beq_self_eq_true] at hne
    cases hne
  rw [lastIdx]
  omega

theorem lastIdx_inj (ha : a ∈ l) (hb : b ∈ l) (h : lastIdx l a = lastIdx l b) : a = b := by
  have := getElem?_lastIdx ha
  rw [h, getElem?_lastIdx hb] at this
  exact (Option.some.inj this).symm

end LastIdx

/-! ### Executions -/

/-- What has been executed of a list of operations, as far as it is `P`: each operation with the
number in the list that it counts as. -/
structure Covers (ops : List α) (P : α → Bool) (M : List (ℕ × α)) : Prop where
  sorted : M.Pairwise (·.1 ≤ ·.1)
  genuine : ∀ p ∈ M, ops[p.1]? = some p.2 ∧ P p.2
  covered : ∀ i a, ops[i]? = some a → P a → ∃ p ∈ M, i ≤ p.1 ∧ p.2 = a

section Covers

variable {ops : List α} {P : α → Bool} {M : List (ℕ × α)} {a : α}

omit [DecidableEq α] in
/-- The list itself. -/
theorem covers_self (ops : List α) (P : α → Bool) :
    Covers ops P ((ops.zipIdx.map Prod.swap).filter (P ·.2)) where
  sorted := by
    refine List.Pairwise.filter _ (List.pairwise_map.2 ?_)
    rw [List.pairwise_iff_getElem]
    intro i j hi hj hij
    simpa using hij.le
  genuine := by
    rintro ⟨i, a⟩ hp
    obtain ⟨hmem, hP⟩ := List.mem_filter.1 hp
    obtain ⟨⟨b, j⟩, hb, heq⟩ := List.mem_map.1 hmem
    obtain ⟨rfl, rfl⟩ := Prod.mk.inj heq
    exact ⟨List.mem_zipIdx_iff_getElem?.1 hb, hP⟩
  covered i a hi hP := by
    have hmem : (i, a) ∈ ops.zipIdx.map Prod.swap :=
      List.mem_map.2 ⟨(a, i), List.mem_zipIdx_iff_getElem?.2 hi, rfl⟩
    exact ⟨(i, a), List.mem_filter.2 ⟨hmem, hP⟩, le_rfl, rfl⟩

omit [DecidableEq α] in
theorem Covers.mem_iff (h : Covers ops P M) : a ∈ M.map (·.2) ↔ a ∈ ops ∧ P a := by
  constructor
  · intro ha
    obtain ⟨p, hp, rfl⟩ := List.mem_map.1 ha
    exact ⟨List.mem_of_getElem? (h.genuine p hp).1, (h.genuine p hp).2⟩
  · rintro ⟨ha, hP⟩
    obtain ⟨i, hi⟩ := List.mem_iff_getElem?.1 ha
    obtain ⟨p, hp, -, rfl⟩ := h.covered i a hi hP
    exact List.mem_map_of_mem hp

/-- Whatever is executed is executed under the number of its last occurrence too. -/
theorem Covers.lastIdx_mem (h : Covers ops P M) {p : ℕ × α} (hp : p ∈ M) :
    (lastIdx ops p.2, p.2) ∈ M := by
  obtain ⟨hget, hP⟩ := h.genuine p hp
  obtain ⟨⟨j, b⟩, hq, hle, hb⟩ :=
    h.covered _ _ (getElem?_lastIdx (List.mem_of_getElem? hget)) hP
  have hge : j ≤ lastIdx ops b := le_lastIdx (h.genuine _ hq).1
  dsimp only at hle hb
  rw [← hb] at hle ⊢
  rwa [le_antisymm hle hge]

/-- A list of numbered operations, in order, in which each comes under its highest number: its last
occurrences are in the order of these numbers. -/
theorem pairwise_dedup {r : α → ℕ} (hsorted : M.Pairwise (·.1 ≤ ·.1)) (hle : ∀ p ∈ M, p.1 ≤ r p.2)
    (hmem : ∀ p ∈ M, (r p.2, p.2) ∈ M) :
    (M.map (·.2)).dedup.Pairwise (r · ≤ r ·) := by
  induction M with
  | nil => exact List.Pairwise.nil
  | cons p M ih =>
    obtain ⟨hp, hM⟩ := List.pairwise_cons.1 hsorted
    have hle' : ∀ q ∈ M, q.1 ≤ r q.2 := fun q hq ↦ hle q (List.mem_cons_of_mem _ hq)
    -- where the head is the only one under the highest number, a later one would be higher
    have hmem' : ∀ q ∈ M, (r q.2, q.2) ∈ M := by
      intro q hq
      rcases List.mem_cons.1 (hmem q (List.mem_cons_of_mem _ hq)) with heq | hin
      · have hge : r q.2 ≤ q.1 := by
          have := hp q hq
          rwa [← heq] at this
        rwa [le_antisymm hge (hle' q hq)]
      · exact hin
    rw [List.map_cons]
    by_cases hin : p.2 ∈ M.map (·.2)
    · rw [List.dedup_cons_of_mem hin]
      exact ih hM hle' hmem'
    · rw [List.dedup_cons_of_notMem hin, List.pairwise_cons]
      refine ⟨fun b hb ↦ ?_, ih hM hle' hmem'⟩
      obtain ⟨q, hq, rfl⟩ := List.mem_map.1 (List.mem_dedup.1 hb)
      have hhead : (r p.2, p.2) = p := by
        refine (List.mem_cons.1 (hmem p List.mem_cons_self)).resolve_right fun hp' ↦ hin ?_
        exact List.mem_map.2 ⟨_, hp', rfl⟩
      calc r p.2 = p.1 := congrArg Prod.fst hhead
        _ ≤ q.1 := hp q hq
        _ ≤ r q.2 := hle' q hq

theorem Covers.pairwise (h : Covers ops P M) :
    (M.map (·.2)).dedup.Pairwise (lastIdx ops · ≤ lastIdx ops ·) :=
  pairwise_dedup h.sorted (fun p hp ↦ le_lastIdx (h.genuine p hp).1) fun _ hp ↦ h.lastIdx_mem hp

/-- Two executions have the same last occurrences in the same order. -/
theorem Covers.dedup_eq {M' : List (ℕ × α)} (h : Covers ops P M) (h' : Covers ops P M') :
    (M.map (·.2)).dedup = (M'.map (·.2)).dedup := by
  have hperm : (M.map (·.2)).dedup.Perm (M'.map (·.2)).dedup := by
    rw [List.perm_ext_iff_of_nodup (List.nodup_dedup _) (List.nodup_dedup _)]
    intro a
    rw [List.mem_dedup, List.mem_dedup, h.mem_iff, h'.mem_iff]
  refine List.Perm.eq_of_pairwise ?_ h.pairwise h'.pairwise hperm
  intro a b ha hb hab hba
  have hmem := (h.mem_iff.1 (List.mem_dedup.1 ha)).1
  have hmem' := (h'.mem_iff.1 (List.mem_dedup.1 hb)).1
  exact lastIdx_inj hmem hmem' (le_antisymm hab hba)

/-- **An execution that covers a list leaves what the list leaves.** -/
theorem Covers.after_eq {act : α → D → D} (hact : Absorbing act) (h : Covers ops P M) (x : D) :
    after act (M.map (·.2)) x = after act (ops.filter P) x := by
  have hself : ((ops.zipIdx.map Prod.swap).filter (P ·.2)).map (·.2) = ops.filter P := by
    have hfst : (ops.zipIdx.map Prod.swap).map (·.2) = ops := by
      rw [List.map_map]
      exact List.zipIdx_map_fst 0 ops
    conv_rhs => rw [← hfst, List.filter_map]
    rfl
  rw [← hact.after_dedup, h.dedup_eq (covers_self ops P), hself, hact.after_dedup]

end Covers

end LastWins
