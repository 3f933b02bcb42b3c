import Mathlib.Data.List.Basic
import Mathlib.Data.List.Infix

/-!
# Lists that are served in pages

A server keeps a list, sorted by a key along a strict order. A client asks for the entries behind a
cursor, with a limit, and is told whether there are more; it goes on from the key of the last entry
that it has received.

`beyond_next` is the cursor rule: behind that key stands exactly what the page has left out. A walk
is then a matter of the list alone, `pages`, and `pages_prefix`, `pages_more` and `pages_complete`
say what it delivers: each entry once and in order, with the right flag at each page, and all of
them when there are enough limits.
-/

namespace Paging

variable {α κ : Type}

/-! ### Walks -/

/-- The pages of a list, one for each limit, while there is more. -/
def pages : List ℕ → List α → List (List α × Bool)
  | [], _ => []
  | n :: ns, l =>
    (l.take n, decide (n < l.length)) :: if n < l.length then pages ns (l.drop n) else []

/-- The entries of the pages. -/
def entries (ps : List (List α × Bool)) : List α := ps.flatMap (·.1)

@[simp] theorem entries_nil : entries ([] : List (List α × Bool)) = [] := rfl

@[simp] theorem entries_cons (p : List α × Bool) (ps : List (List α × Bool)) :
    entries (p :: ps) = p.1 ++ entries ps := rfl

theorem pages_cons_of_lt {n : ℕ} {l : List α} (h : n < l.length) (ns : List ℕ) :
    pages (n :: ns) l = (l.take n, true) :: pages ns (l.drop n) := by
  rw [pages, if_pos h, decide_eq_true h]

theorem pages_cons_of_le {n : ℕ} {l : List α} (h : l.length ≤ n) (ns : List ℕ) :
    pages (n :: ns) l = [(l, false)] := by
  rw [pages, if_neg (by omega), List.take_of_length_le h, decide_eq_false (by omega)]

/-- What the pages deliver is the beginning of the list: nothing twice, nothing left out. -/
theorem pages_prefix (ns : List ℕ) (l : List α) : entries (pages ns l) <+: l := by
  induction ns generalizing l with
  | nil => exact List.nil_prefix
  | cons n ns ih =>
    by_cases h : n < l.length
    · rw [pages_cons_of_lt h, entries_cons]
      obtain ⟨rest, hrest⟩ := ih (l.drop n)
      exact ⟨rest, by rw [List.append_assoc, hrest, List.take_append_drop]⟩
    · rw [pages_cons_of_le (by omega), entries_cons, entries_nil, List.append_nil]

/-- **The flag of a page is right**: there are more exactly when what has been delivered with it is
not all. -/
theorem pages_more {ns : List ℕ} {l : List α} {pre post : List (List α × Bool)}
    {p : List α × Bool} (h : pages ns l = pre ++ p :: post) :
    p.2 = true ↔ entries (pre ++ [p]) ≠ l := by
  induction ns generalizing l pre with
  | nil =>
    rw [pages] at h
    cases pre <;> cases h
  | cons n ns ih =>
    by_cases hn : n < l.length
    · rw [pages_cons_of_lt hn] at h
      cases pre with
      | nil =>
        obtain ⟨rfl, -⟩ := List.cons.inj h
        refine iff_of_true rfl fun heq ↦ ?_
        have hlen := congrArg List.length heq
        simp only [List.nil_append, entries_cons, entries_nil, List.append_nil,
          List.length_take] at hlen
        omega
      | cons q pre =>
        obtain ⟨rfl, htail⟩ := List.cons.inj h
        rw [ih htail, List.cons_append, entries_cons]
        refine not_congr ⟨fun heq ↦ ?_, fun heq ↦ ?_⟩
        · rw [heq, List.take_append_drop]
        · exact List.append_cancel_left (heq.trans (List.take_append_drop n l).symm)
    · rw [pages_cons_of_le (by omega)] at h
      cases pre with
      | nil =>
        obtain ⟨rfl, -⟩ := List.cons.inj h
        simp
      | cons q pre =>
        obtain ⟨-, htail⟩ := List.cons.inj h
        cases pre <;> cases htail

/-- **With enough limits everything is delivered**, and the last page says so. -/
theorem pages_complete {ns : List ℕ} {l : List α} (hpos : ∀ n ∈ ns, 0 < n)
    (henough : l.length < ns.length) :
    entries (pages ns l) = l ∧ ∃ pre p, pages ns l = pre ++ [(p, false)] := by
  induction ns generalizing l with
  | nil => exact absurd henough (by simp)
  | cons n ns ih =>
    by_cases h : n < l.length
    · have hn := hpos n List.mem_cons_self
      have hdrop : (l.drop n).length < ns.length := by
        rw [List.length_drop]
        rw [List.length_cons] at henough
        omega
      obtain ⟨hall, pre, p, hlast⟩ := ih (fun m hm ↦ hpos m (List.mem_cons_of_mem _ hm)) hdrop
      refine ⟨?_, (l.take n, true) :: pre, p, ?_⟩
      · rw [pages_cons_of_lt h, entries_cons, hall, List.take_append_drop]
      · rw [pages_cons_of_lt h, hlast, List.cons_append]
    · rw [pages_cons_of_le (by omega)]
      exact ⟨by simp, [], l, rfl⟩

/-! ### Cursors -/

section Cursor

variable (key : α → κ) (r : κ → κ → Prop) [DecidableRel r]

/-- The entries behind a cursor. -/
def beyond (all : List α) (k : κ) : List α := all.filter fun a ↦ r k (key a)

variable {key r} {all : List α}

theorem mem_beyond {k : κ} {a : α} : a ∈ beyond key r all k ↔ a ∈ all ∧ r k (key a) := by
  rw [beyond, List.mem_filter, decide_eq_true_iff]

theorem pairwise_beyond (h : all.Pairwise fun a b ↦ r (key a) (key b)) (k : κ) :
    (beyond key r all k).Pairwise fun a b ↦ r (key a) (key b) :=
  h.filter _

/-- Behind the last entry of a page stands what the page has left out. -/
theorem beyond_next [IsTrans κ r] [Std.Asymm r] (h : all.Pairwise fun a b ↦ r (key a) (key b))
    {k : κ} {pre post : List α} {a : α} (hsplit : beyond key r all k = pre ++ a :: post) :
    beyond key r all (key a) = post := by
  have hsorted := pairwise_beyond h k
  rw [hsplit, List.pairwise_append, List.pairwise_cons] at hsorted
  obtain ⟨-, ⟨hpost, -⟩, hpre⟩ := hsorted
  have hk : r k (key a) := (mem_beyond.1 (by rw [hsplit]; simp)).2
  have hrest : beyond key r all (key a) = beyond key r (beyond key r all k) (key a) := by
    rw [beyond, beyond, beyond, List.filter_filter]
    refine List.filter_congr fun b _ ↦ ?_
    by_cases hab : r (key a) (key b)
    · simp [hab, IsTrans.trans _ _ _ hk hab]
    · simp [hab]
  have hnil : pre.filter (fun b ↦ r (key a) (key b)) = [] := by
    refine List.filter_eq_nil_iff.2 fun b hb ↦ ?_
    rw [decide_eq_true_iff]
    exact asymm (hpre b hb a List.mem_cons_self)
  have hself : (a :: post).filter (fun b ↦ r (key a) (key b)) = post := by
    rw [List.filter_cons, if_neg (by simpa using irrefl (r := r) (key a))]
    refine List.filter_eq_self.2 fun b hb ↦ ?_
    rw [decide_eq_true_iff]
    exact hpost b hb
  rw [hrest, hsplit, beyond, List.filter_append, hnil, hself, List.nil_append]

end Cursor

/-! ### Offsets -/

/-- The page of a list from an offset on, and a flag that says whether anything stands behind it. -/
structure IsOffsetPage (l : List α) (start limit : ℕ) (page : List α) (more : Bool) : Prop where
  page_eq : page = (l.drop start).take limit
  more_iff : more = true ↔ start + limit < l.length

variable {l page : List α} {more : Bool} {start limit : ℕ}

theorem IsOffsetPage.sublist (h : IsOffsetPage l start limit page more) : page.Sublist l := by
  rw [h.page_eq]
  exact (List.take_sublist _ _).trans (List.drop_sublist _ _)

/-- The flag of a page that is cut at a number that is taken for the length of the list. It is right
when the number is the length, and if it is not, when the page ends before it. -/
theorem cut_flag_iff {total : ℤ} (htotal : total ≤ l.length)
    (hlong : total ≠ l.length → start + limit < l.length) :
    (min ((start : ℤ) + limit) total < total ↔ start + limit < l.length) ↔
      total = l.length ∨ (start : ℤ) + limit < total := by
  constructor
  · intro h
    by_cases hlen : total = l.length
    · exact .inl hlen
    · have hlt := h.2 (hlong hlen)
      exact .inr (by omega)
  · omega

/-- The page itself is right then. -/
theorem isOffsetPage_cut {total : ℤ} (htotal : total ≤ l.length)
    (h : total = l.length ∨ (start : ℤ) + limit < total) :
    IsOffsetPage l start limit
      (if (start : ℤ) < total then
        (l.drop start).take (min ((start : ℤ) + limit) total - start).toNat else [])
      (decide (min ((start : ℤ) + limit) total < total)) := by
  refine ⟨?_, ?_⟩
  · by_cases hstart : (start : ℤ) < total
    · rw [if_pos hstart]
      rcases h with rfl | hlt
      · rw [List.take_eq_take_iff, List.length_drop]
        omega
      · rw [show (min ((start : ℤ) + limit) total - start).toNat = limit by omega]
    · rw [if_neg hstart, List.drop_eq_nil_of_le (by omega), List.take_nil]
  · rw [decide_eq_true_iff]
    omega

end Paging
