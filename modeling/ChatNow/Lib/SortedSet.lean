import Mathlib.Data.List.Lex
import Mathlib.Data.List.Nodup
import Mathlib.Data.List.Sort
import Mathlib.Data.Prod.Lex

/-!
# Sorted sets

Elements with scores, in the order of the scores and among equal scores in their own order, as Redis
keeps them. An element has one score.
-/

/-- A sorted set. -/
structure SortedSet (α S : Type) [LinearOrder α] [LinearOrder S] where
  /-- The elements in order, each after its score. -/
  entries : List (S ×ₗ α) := []
  sorted : entries.Pairwise (· ≤ ·) := by exact List.Pairwise.nil
  unique : (entries.map fun e ↦ (ofLex e).2).Nodup := by exact List.nodup_nil

namespace SortedSet

variable {α S : Type} [LinearOrder α] [LinearOrder S] (m : SortedSet α S) {x y : α}

/-- The elements in order. -/
def members : List α := m.entries.map fun e ↦ (ofLex e).2

theorem nodup_members : m.members.Nodup := m.unique

/-- `ZREM`. -/
def zrem (x : α) : SortedSet α S where
  entries := m.entries.filter fun e ↦ (ofLex e).2 ≠ x
  sorted := m.sorted.filter _
  unique := m.unique.sublist (List.filter_sublist.map _)

/-- `ZADD`. -/
def zadd (score : S) (x : α) : SortedSet α S where
  entries := (m.zrem x).entries.orderedInsert (· ≤ ·) (toLex (score, x))
  sorted := (m.zrem x).sorted.orderedInsert _ _
  unique := by
    refine (((List.perm_orderedInsert _ _ _).map _).nodup_iff).2 (List.nodup_cons.2 ⟨?_, ?_⟩)
    · intro hmem
      obtain ⟨e, he, heq⟩ := List.mem_map.1 hmem
      exact of_decide_eq_true (List.mem_filter.1 he).2 heq
    · exact (m.zrem x).unique

/-- `ZRANGE key 0 (limit - 1)`. -/
def zrange (limit : ℕ) : List α := m.members.take limit

theorem members_zrem (x : α) : (m.zrem x).members = m.members.filter (· ≠ x) := by
  rw [members, members, List.filter_map]
  rfl

theorem mem_zrem : y ∈ (m.zrem x).members ↔ y ∈ m.members ∧ y ≠ x := by
  rw [members_zrem, List.mem_filter, decide_eq_true_iff]

theorem mem_zadd {score : S} : y ∈ (m.zadd score x).members ↔ y = x ∨ y ∈ m.members := by
  have hperm : (m.zadd score x).members.Perm (x :: (m.zrem x).members) :=
    (List.perm_orderedInsert _ _ _).map _
  rw [hperm.mem_iff, List.mem_cons, mem_zrem]
  rcases eq_or_ne y x with rfl | hne
  · exact iff_of_true (.inl rfl) (.inl rfl)
  · exact or_congr_right (and_iff_left hne)

theorem mem_of_mem_zrange {limit : ℕ} (h : y ∈ m.zrange limit) : y ∈ m.members :=
  List.mem_of_mem_take h

end SortedSet
