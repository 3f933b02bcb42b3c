import Mathlib.Data.List.Basic
import Mathlib.Data.List.Infix
import Mathlib.Logic.Function.Basic
import Mathlib.Order.Nat

/-!
# Values under an invalidation version

A value that changes over time, whose copies are kept elsewhere, with a counter that is raised after
a change so that copies made before it can be told from copies made after it. The record of the
value is a list, its positions are the **moments**, and each raise of the counter **settles** one
moment: from then on a reader is owed a value from that moment or a later one.

* `FreshSince n a`: `a` is the value at moment `n` or a later one;
* `Fresh a`: `a` is as new as all that has been settled;
* `FreshAt v a`: if the counter still reads `v`, then `a` is `Fresh`. This is what a copy that is
  kept together with a reading of the counter has to satisfy.

Copies can also be told by the moment at which they were made, whatever their value: `ReadAt v m`
says that if the counter still reads `v`, then no later moment than `m` has been settled.

Time is the order on `Versioned α`. The point of `FreshAt` is that it is inherited along it
(`FreshAt.of_le`, `ReadAt.of_le`), as `FreshSince` is and `Fresh` is not: a raise of the counter
takes `Fresh` away, and makes every `FreshAt` of an older reading vacuous. So a copy that is paired
with a reading made **before** the copy can be trusted whenever that reading is found again, and one
that is paired with a later reading cannot.
-/

/-- A value, its past, and the counter. -/
structure Versioned (α : Type) where
  /-- What the value has been, the current one last. -/
  history : List α
  /-- The counter. -/
  version : ℕ
  /-- The newest moment that has been settled. -/
  settled : ℕ
  /-- A settled moment has been. -/
  settled_lt : settled < history.length

namespace Versioned

variable {α : Type}

/-- A value that has not changed yet. -/
def start (a : α) : Versioned α := ⟨[a], 0, 0, by simp⟩

theorem history_ne_nil (c : Versioned α) : c.history ≠ [] :=
  List.length_pos_iff.1 (Nat.zero_lt_of_lt c.settled_lt)

/-- The value now. -/
def current (c : Versioned α) : α := c.history.getLast c.history_ne_nil

/-- The value changes. -/
def change (c : Versioned α) (a : α) : Versioned α where
  history := c.history ++ [a]
  version := c.version
  settled := c.settled
  settled_lt := by
    have h := c.settled_lt
    simp only [List.length_append, List.length_singleton]
    omega

/-- The counter is raised after the change made at moment `m`; a moment that has not been settles
nothing. -/
def raise (c : Versioned α) (m : ℕ) : Versioned α where
  history := c.history
  version := c.version + 1
  settled := if m < c.history.length then max c.settled m else c.settled
  settled_lt := by
    have h := c.settled_lt
    split <;> omega

@[simp] theorem history_change (c : Versioned α) (a : α) :
    (c.change a).history = c.history ++ [a] := rfl

theorem current_change (c : Versioned α) (a : α) : (c.change a).current = a :=
  List.getLast_concat

theorem le_settled_raise {c : Versioned α} {m : ℕ} (h : m < c.history.length) :
    m ≤ (c.raise m).settled := by
  show m ≤ if _ then _ else _
  rw [if_pos h]
  exact le_max_right _ _

/-! ### Time -/

/-- Later: the record has grown, and nothing has been settled without raising the counter. -/
instance : Preorder (Versioned α) where
  le c c' := c.history <+: c'.history ∧ c.version ≤ c'.version ∧ c.settled ≤ c'.settled ∧
    (c.version = c'.version → c.settled = c'.settled)
  le_refl c := ⟨List.prefix_refl _, le_refl _, le_refl _, fun _ ↦ rfl⟩
  le_trans a b c hab hbc := by
    refine ⟨hab.1.trans hbc.1, hab.2.1.trans hbc.2.1, hab.2.2.1.trans hbc.2.2.1, fun h ↦ ?_⟩
    -- the counter has not moved from `a` to `c`, so it has not moved on the way either
    have hb : a.version = b.version := le_antisymm hab.2.1 (h ▸ hbc.2.1)
    exact (hab.2.2.2 hb).trans (hbc.2.2.2 (hb.symm.trans h))

theorem le_change (c : Versioned α) (a : α) : c ≤ c.change a :=
  ⟨List.prefix_append _ _, le_refl _, le_refl _, fun _ ↦ rfl⟩

theorem le_raise (c : Versioned α) (m : ℕ) : c ≤ c.raise m := by
  refine ⟨List.prefix_refl _, Nat.le_succ _, ?_, fun h ↦ absurd h (Nat.lt_succ_self _).ne⟩
  show c.settled ≤ if _ then _ else _
  split
  · exact le_max_left _ _
  · exact le_refl _

/-! ### Freshness -/

/-- The value at moment `n` or a later one. -/
def FreshSince (c : Versioned α) (n : ℕ) (a : α) : Prop := a ∈ c.history.drop n

instance [DecidableEq α] (c : Versioned α) (n : ℕ) (a : α) : Decidable (c.FreshSince n a) :=
  inferInstanceAs (Decidable (a ∈ c.history.drop n))

/-- As new as all that has been settled. -/
def Fresh (c : Versioned α) (a : α) : Prop := c.FreshSince c.settled a

/-- As new as all that has been settled, if the counter reads `v`; and it reads at least `v`. -/
def FreshAt (c : Versioned α) (v : ℕ) (a : α) : Prop := v ≤ c.version ∧ (v = c.version → c.Fresh a)

variable {c c' : Versioned α} {n n' v : ℕ} {a : α}

theorem freshSince_iff : c.FreshSince n a ↔ ∃ m, n ≤ m ∧ c.history[m]? = some a := by
  rw [FreshSince, List.mem_iff_getElem?]
  simp only [List.getElem?_drop]
  constructor
  · rintro ⟨k, hk⟩
    exact ⟨n + k, Nat.le_add_right n k, hk⟩
  · rintro ⟨m, hm, hget⟩
    refine ⟨m - n, ?_⟩
    rw [Nat.add_sub_cancel' hm]
    exact hget

theorem FreshSince.mono (h : c.FreshSince n a) (hn : n' ≤ n) : c.FreshSince n' a := by
  obtain ⟨m, hm, hget⟩ := freshSince_iff.1 h
  exact freshSince_iff.2 ⟨m, hn.trans hm, hget⟩

theorem FreshSince.of_le (h : c.FreshSince n a) (hc : c ≤ c') : c'.FreshSince n a :=
  (hc.1.drop n).subset h

theorem fresh_current (c : Versioned α) : c.Fresh c.current := by
  refine freshSince_iff.2 ⟨c.history.length - 1, ?_, ?_⟩
  · have h := c.settled_lt
    omega
  · rw [← List.getLast?_eq_getElem?, List.getLast?_eq_some_getLast c.history_ne_nil]
    rfl

theorem Fresh.change (h : c.Fresh a) (b : α) : (c.change b).Fresh a :=
  FreshSince.of_le h (le_change c b)

/-- A fresh value may be paired with any reading made so far. -/
theorem Fresh.freshAt (h : c.Fresh a) (hv : v ≤ c.version) : c.FreshAt v a := ⟨hv, fun _ ↦ h⟩

/-- A pair whose reading is found again is fresh. -/
theorem FreshAt.fresh (h : c.FreshAt c.version a) : c.Fresh a := h.2 rfl

/-- A pair stays good as time passes. -/
theorem FreshAt.of_le (h : c.FreshAt v a) (hc : c ≤ c') : c'.FreshAt v a := by
  refine ⟨h.1.trans hc.2.1, fun hv ↦ ?_⟩
  have hsame : v = c.version := le_antisymm h.1 (hv ▸ hc.2.1)
  have hfresh : c'.FreshSince c.settled a := FreshSince.of_le (h.2 hsame) hc
  rwa [hc.2.2.2 (hsame.symm.trans hv)] at hfresh

/-! ### Moments -/

/-- The moment of the current value. -/
def now (c : Versioned α) : ℕ := c.history.length - 1

/-- Nothing newer than moment `m` is settled, if the counter reads `v`; it reads at least `v`. -/
def ReadAt (c : Versioned α) (v m : ℕ) : Prop := v ≤ c.version ∧ (v = c.version → c.settled ≤ m)

variable {m : ℕ}

theorem settled_le_now (c : Versioned α) : c.settled ≤ c.now := Nat.le_sub_one_of_lt c.settled_lt

/-- A reading of the counter goes with any later reading of the value. -/
theorem readAt_now (hv : v ≤ c.version) : c.ReadAt v c.now := ⟨hv, fun _ ↦ c.settled_le_now⟩

theorem ReadAt.settled_le (h : c.ReadAt c.version m) : c.settled ≤ m := h.2 rfl

/-- Two readings that go together do so as time passes. -/
theorem ReadAt.of_le (h : c.ReadAt v m) (hc : c ≤ c') : c'.ReadAt v m := by
  refine ⟨h.1.trans hc.2.1, fun hv ↦ ?_⟩
  have hsame : v = c.version := le_antisymm h.1 (hv ▸ hc.2.1)
  rw [← hc.2.2.2 (hsame.symm.trans hv)]
  exact h.2 hsame

/-- What a table of moments lists after a moment has been listed under `i`. -/
theorem mem_update_append {ι : Type} [DecidableEq ι] {table : ι → List ℕ} {i j : ι} {k : ℕ}
    (h : k ∈ Function.update table i (table i ++ [m]) j) : k ∈ table j ∨ j = i ∧ k = m := by
  rw [Function.update_apply] at h
  split at h
  · next hj =>
    rcases List.mem_append.1 h with h | h
    · exact .inl (hj ▸ h)
    · exact .inr ⟨hj, List.mem_singleton.1 h⟩
  · exact .inl h

end Versioned
