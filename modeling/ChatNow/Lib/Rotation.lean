import Mathlib.Data.Finset.Card

/-!
# Rotation

Servers take the first of a queue, serve them, and put them back at the end; nobody comes in ahead
of one who waits. A server may take what another one holds already, and some never put back what
they have taken. Rounds that lie one after another (`rounds`) all the same bring everybody nearer:
if a round that leaves one out takes `n` others, all of them ahead, then after `k` such rounds
`k * n` fewer are ahead (`Fair`). So one who has fewer than that ahead of him is in one of the
rounds.
-/

namespace Rotation

/-- What a server does. -/
inductive Mark
  /-- Server `i` takes the first of the queue. -/
  | takes (i : ℕ)
  /-- Server `i` puts them back. -/
  | returns (i : ℕ)
  deriving DecidableEq

/-- The marks of rounds that lie one after another, the last one first. -/
def rounds (is : List ℕ) : List Mark := is.flatMap fun i ↦ [.returns i, .takes i]

theorem rounds_cons (i : ℕ) (is : List ℕ) :
    rounds (i :: is) = .returns i :: .takes i :: rounds is := List.flatMap_cons

variable {is : List ℕ} {i : ℕ} {log r : List Mark}

/-- The last mark of rounds puts back. -/
theorem exists_of_rounds {m : Mark} (h : rounds is = m :: r) :
    ∃ j is', is = j :: is' ∧ m = .returns j ∧ r = .takes j :: rounds is' := by
  cases is with
  | nil => cases h
  | cons j is =>
    obtain ⟨hm, hr⟩ := List.cons.inj ((rounds_cons j is).symm.trans h)
    exact ⟨j, is, rfl, hm.symm, hr.symm⟩

theorem rounds_of_takes (h : (rounds is).Sublist (.takes i :: log)) : (rounds is).Sublist log := by
  rcases List.sublist_cons_iff.1 h with h | ⟨r, hr, -⟩
  · exact h
  · obtain ⟨j, is', -, hm, -⟩ := exists_of_rounds hr
    cases hm

variable {α : Type} [DecidableEq α] {n N : ℕ} {ahead ahead' B : Finset α}
  {Holds Holds' : ℕ → Finset α → Prop}

/-- **The accounts** of one who waits: `N` were ahead of him, and every round has cost `n` of them.
`Holds i C` says that server `i` has taken `C` and not put it back. -/
structure Fair (n N : ℕ) (log : List Mark) (ahead : Finset α) (Holds : ℕ → Finset α → Prop) :
    Prop where
  closed : ∀ is, (rounds is).Sublist log → is.length * n + ahead.card ≤ N
  opened : ∀ is i C, (Mark.takes i :: rounds is).Sublist log → Holds i C →
    is.length * n + (ahead ∪ C).card ≤ N

theorem fair_nil (h : ahead.card ≤ N) : Fair n N [] ahead Holds where
  closed is hlog := by
    cases is with
    | nil => simpa using h
    | cons i is =>
      rw [rounds_cons] at hlog
      cases hlog
  opened is i C hlog := by cases hlog

/-- Some leave, and some servers are gone. -/
theorem Fair.shrinks (h : Fair n N log ahead Holds) (hahead : ahead' ⊆ ahead)
    (hholds : ∀ i C, Holds' i C → Holds i C) : Fair n N log ahead' Holds' where
  closed is hlog := by
    have hle := h.closed is hlog
    have hcard := Finset.card_le_card hahead
    omega
  opened is i C hlog hC := by
    have hle := h.opened is i C hlog (hholds i C hC)
    have hcard := Finset.card_le_card (Finset.union_subset_union_left (t := C) hahead)
    omega

/-- A server takes. -/
theorem Fair.takes (h : Fair n N log ahead Holds)
    (hholds : ∀ j C, Holds' j C → C ⊆ ahead ∨ j ≠ i ∧ Holds j C) :
    Fair n N (.takes i :: log) ahead Holds' where
  closed is hlog := h.closed is (rounds_of_takes hlog)
  opened is j C hlog hC := by
    rcases hholds j C hC with hsub | ⟨hne, hC⟩
    · rw [Finset.union_eq_left.2 hsub]
      exact h.closed is (rounds_of_takes ((List.sublist_cons_self _ _).trans hlog))
    · rcases List.sublist_cons_iff.1 hlog with hlog | ⟨r, hr, -⟩
      · exact h.opened is j C hlog hC
      · exact absurd (Mark.takes.inj (List.cons.inj hr).1) hne

/-- A server puts back what it has taken. -/
theorem Fair.returns (h : Fair n N log ahead Holds) (hB : Holds i B) (hn : n ≤ B.card)
    (hahead : ahead' ⊆ ahead) (hdisjoint : Disjoint ahead' B)
    (hholds : ∀ j C, Holds' j C → Holds j C) : Fair n N (.returns i :: log) ahead' Holds' where
  closed is hlog := by
    rcases List.sublist_cons_iff.1 hlog with hlog | ⟨r, hr, hlog⟩
    · exact (h.shrinks hahead hholds).closed is hlog
    · obtain ⟨j, is', rfl, hj, rfl⟩ := exists_of_rounds hr
      obtain rfl := Mark.returns.inj hj
      have hle := h.opened is' i B hlog hB
      have hcard : ahead'.card + B.card ≤ (ahead ∪ B).card := by
        rw [← Finset.card_union_of_disjoint hdisjoint]
        exact Finset.card_le_card (Finset.union_subset_union_left hahead)
      rw [List.length_cons, Nat.succ_mul]
      omega
  opened is j C hlog hC := by
    rcases List.sublist_cons_iff.1 hlog with hlog | ⟨r, hr, -⟩
    · exact (h.shrinks hahead hholds).opened is j C hlog hC
    · cases (List.cons.inj hr).1

/-- **Nobody is left out for long.** -/
theorem Fair.le (h : Fair n N log ahead Holds) (hlog : (rounds is).Sublist log) :
    is.length * n ≤ N :=
  Nat.le_of_add_right_le (h.closed is hlog)

end Rotation
