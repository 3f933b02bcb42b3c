import Mathlib.Data.Finset.Card
import Mathlib.Data.List.Nodup

/-!
# Least recently used

A log of uses, the latest first, and the order in which it leaves what has been used: `recent` lists
everything once, what has been used last in front.

A bounded store keeps a list of what it holds, moves what is used to the front (`touch`) and gives
up what is at the back. Whatever it gives up or loses besides, its list is a sublist of `recent`,
and that is the invariant: `Sublist.touch` is its one step. What is at the back of such a list has
not been used since everything before it was (`mem_takeWhile_of_sublist`), so that giving it up is
giving up the least recently used (`length_le_of_sublist`).
-/

namespace Recency

variable {α : Type} [DecidableEq α] {us l : List α} {a b x : α}

/-- What is used comes to the front. -/
def touch (a : α) (l : List α) : List α := a :: l.erase a

/-- Everything that has been used, the latest in front. -/
def recent (us : List α) : List α := us.foldr touch []

theorem recent_cons : recent (a :: us) = touch a (recent us) := rfl

theorem erase_eq_filter (h : l.Nodup) (a : α) : l.erase a = l.filter (· ≠ a) :=
  (h.erase_eq_filter a).trans (List.filter_congr fun _ _ ↦ decide_not.symm)

theorem touch_nodup (h : l.Nodup) : (touch a l).Nodup :=
  List.nodup_cons.2 ⟨h.not_mem_erase, h.erase a⟩

theorem recent_nodup : (recent us).Nodup := by
  induction us with
  | nil => exact List.nodup_nil
  | cons a us ih => exact touch_nodup ih

/-- **A use** keeps a list in the order of the uses. -/
theorem Sublist.touch (h : l.Sublist (recent us)) :
    (touch a l).Sublist (recent (a :: us)) :=
  (h.erase a).cons_cons a

/-- Something new is used. -/
theorem Sublist.push (h : l.Sublist (recent us)) (ha : a ∉ l) :
    (a :: l).Sublist (recent (a :: us)) := by
  have htouch := Sublist.touch (a := a) h
  rwa [Recency.touch, List.erase_of_not_mem ha] at htouch

/-- What has just been used is behind nothing. -/
theorem not_last (h : (x :: l ++ [b]).Sublist (recent (b :: us))) : False := by
  have hnodup : (x :: l ++ [b]).Nodup := recent_nodup.sublist h
  rw [recent_cons, touch, List.cons_append, List.cons_sublist_cons'] at h
  rcases h with h | ⟨rfl, -⟩
  · exact recent_nodup.not_mem_erase (h.subset (by simp))
  · exact (List.nodup_cons.1 hnodup).1 (by simp)

/-- **What is at the back** has not been used since everything before it was. -/
theorem mem_takeWhile_of_sublist (h : (l ++ [b]).Sublist (recent us)) (hx : x ∈ l) :
    x ∈ us.takeWhile (· ≠ b) := by
  induction us generalizing l with
  | nil =>
    have hnil := List.append_eq_nil_iff.1 (List.eq_nil_of_sublist_nil h)
    exact absurd hnil.2 (List.cons_ne_nil _ _)
  | cons a us ih =>
    have hab : a ≠ b := by
      rintro rfl
      obtain ⟨y, l, rfl⟩ := List.exists_cons_of_ne_nil (List.ne_nil_of_mem hx)
      exact not_last h
    rw [List.takeWhile_cons_of_pos (by simpa using hab)]
    rcases eq_or_ne x a with rfl | hxa
    · exact List.mem_cons_self
    have hrest : (l ++ [b]).erase a = l.erase a ++ [b] := by
      rw [List.erase_append]
      split
      · rfl
      · next hal => rw [List.erase_of_not_mem hal, List.erase_of_not_mem (by simpa using hab)]
    have hearlier : (l.erase a ++ [b]).Sublist (recent us) := by
      have herase := h.erase a
      rw [recent_cons, touch, List.erase_cons_head, hrest] at herase
      exact herase.trans List.erase_sublist
    exact List.mem_cons_of_mem _ (ih hearlier ((List.mem_erase_of_ne hxa).2 hx))

/-- **What is given up** has seen as many others used as were held before it. -/
theorem length_le_of_sublist (h : (l ++ [b]).Sublist (recent us)) :
    l.length ≤ (us.takeWhile (· ≠ b)).toFinset.card := by
  have hnodup : l.Nodup := (List.nodup_append.1 (recent_nodup.sublist h)).1
  rw [← List.toFinset_card_of_nodup hnodup]
  refine Finset.card_le_card fun x hx ↦ ?_
  exact List.mem_toFinset.2 (mem_takeWhile_of_sublist h (List.mem_toFinset.1 hx))

/-! ### The bound -/

/-- To keep what is in front of a list without repetitions. -/
theorem filter_mem_take (h : l.Nodup) (n : ℕ) : l.filter (· ∈ l.take n) = l.take n := by
  have hsplit := List.take_append_drop n l
  have hdisjoint := (List.nodup_append.1 (hsplit.symm ▸ h)).2.2
  have hdrop : (l.drop n).filter (· ∈ l.take n) = [] := by
    refine List.filter_eq_nil_iff.2 fun x hx hin ↦ ?_
    exact hdisjoint x (of_decide_eq_true hin) x hx rfl
  calc l.filter (· ∈ l.take n)
      = (l.take n ++ l.drop n).filter (· ∈ l.take n) := by rw [hsplit]
    _ = (l.take n).filter (· ∈ l.take n) ++ [] := by rw [List.filter_append, hdrop]
    _ = l.take n := by
        rw [List.append_nil, List.filter_eq_self]
        exact fun _ hx ↦ decide_eq_true hx

omit [DecidableEq α] in
/-- What does not fit into a list that is too long by one is at its back. -/
theorem take_concat_of_not_mem {n : ℕ} (hlen : l.length ≤ n + 1) (hb : b ∈ l)
    (hgone : b ∉ l.take n) : l.take n ++ [b] = l ∧ (l.take n).length = n := by
  have hdrop : b ∈ l.drop n := by
    rw [← List.take_append_drop n l] at hb
    exact (List.mem_append.1 hb).resolve_left hgone
  have hpos := List.length_pos_of_mem hdrop
  have hdroplen := List.length_drop (i := n) (l := l)
  obtain ⟨x, hx⟩ := List.length_eq_one_iff.1 (show (l.drop n).length = 1 by omega)
  obtain rfl : b = x := by rwa [hx, List.mem_singleton] at hdrop
  refine ⟨hx ▸ List.take_append_drop n l, ?_⟩
  rw [List.length_take]
  omega

end Recency
