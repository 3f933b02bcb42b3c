import Mathlib.Data.List.Basic
import Mathlib.Data.List.Count
import Mathlib.Data.List.Nodup

/-!
# Tables with a unique key

A **table** is a list of rows of which no two have the same key. A row is found by its key, put in
when its key is not there yet (`Table.insert`), and written back over the row with its key
(`Table.write`), whatever has become of that row in the meantime: that is the update of an object
that has been read before, and it is where updates are lost.

What a table has after a change is said in two ways: by what is found under each key
(`find_insert`, `find_write`), and by how many rows satisfy a predicate (`count_insert`,
`count_erase_le`, `count_write`).

Nothing here depends on what the rows are.
-/

/-- Rows with a unique key. -/
structure Table {ρ κ : Type} (key : ρ → κ) where
  /-- The rows. -/
  rows : List ρ
  /-- No two of them have the same key. -/
  unique : (rows.map key).Nodup

namespace Table

variable {ρ κ : Type} {key : ρ → κ}

/-- The table without rows. -/
def empty : Table key := ⟨[], List.nodup_nil⟩

/-- How many rows satisfy the predicate. -/
def count (t : Table key) (P : ρ → Bool) : ℕ := t.rows.countP P

variable [DecidableEq κ] (t : Table key) {r r₀ : ρ} {k : κ}

/-- The row with the key. -/
def find (k : κ) : Option ρ := t.rows.find? (key · = k)

/-! ### Looking up -/

theorem find_eq_some : t.find k = some r ↔ r ∈ t.rows ∧ key r = k := by
  constructor
  · intro h
    have hkey := List.find?_some h
    exact ⟨List.mem_of_find?_eq_some h, of_decide_eq_true hkey⟩
  · rintro ⟨hr, rfl⟩
    have hsome : (t.rows.find? (key · = key r)).isSome = true :=
      List.find?_isSome.2 ⟨r, hr, decide_eq_true rfl⟩
    obtain ⟨r', hr'⟩ := Option.isSome_iff_exists.1 hsome
    have hdec := List.find?_some hr'
    have hkey : key r' = key r := of_decide_eq_true hdec
    have hmem : r' ∈ t.rows := List.mem_of_find?_eq_some hr'
    rw [show r' = r from List.inj_on_of_nodup_map t.unique hmem hr hkey] at hr'
    exact hr'

theorem find_eq_none : t.find k = none ↔ ∀ r ∈ t.rows, key r ≠ k := by
  simp only [find, List.find?_eq_none, decide_eq_true_eq, ne_eq]

variable {t} in
theorem key_of_find (h : t.find k = some r) : key r = k := (t.find_eq_some.1 h).2

variable {t} in
theorem mem_of_find (h : t.find k = some r) : r ∈ t.rows := (t.find_eq_some.1 h).1

/-- Whether what is found satisfies a predicate can be decided. -/
instance (x : Option ρ) (P : ρ → Prop) [DecidablePred P] : Decidable (∀ r, x = some r → P r) :=
  inferInstanceAs (Decidable (∀ r ∈ x, P r))

theorem count_eq_zero {P : ρ → Bool} :
    t.count P = 0 ↔ ∀ k r, t.find k = some r → P r = false := by
  rw [count, List.countP_eq_zero]
  constructor
  · intro h k r hr
    exact Bool.eq_false_iff.2 (h r (mem_of_find hr))
  · intro h r hr
    exact Bool.eq_false_iff.1 (h (key r) r (t.find_eq_some.2 ⟨hr, rfl⟩))

@[simp] theorem find_empty : (empty : Table key).find k = none := rfl

/-! ### Inserting -/

theorem unique_append (h : t.find (key r) = none) : ((t.rows ++ [r]).map key).Nodup := by
  rw [List.map_append, List.nodup_append]
  refine ⟨t.unique, List.pairwise_singleton _ _, fun a ha b hb ↦ ?_⟩
  obtain ⟨r', hr', rfl⟩ := List.mem_map.1 ha
  obtain rfl := List.mem_singleton.1 hb
  exact t.find_eq_none.1 h r' hr'

/-- The table with another row; `none` when its key is taken. -/
def insert (r : ρ) : Option (Table key) :=
  if h : t.find (key r) = none then some ⟨t.rows ++ [r], t.unique_append h⟩ else none

/-- The table with more rows, all or none. -/
def insertAll : Table key → List ρ → Option (Table key)
  | t, [] => some t
  | t, r :: rs => (t.insert r).bind (insertAll · rs)

variable {t} {t' : Table key}

theorem rows_of_insert (h : t.insert r = some t') :
    t.find (key r) = none ∧ t'.rows = t.rows ++ [r] := by
  unfold insert at h
  split at h
  · next hnone =>
    obtain rfl := Option.some.inj h
    exact ⟨hnone, rfl⟩
  · cases h

theorem insert_isSome : (t.insert r).isSome = true ↔ t.find (key r) = none := by
  rw [insert]
  split
  · next h => exact iff_of_true rfl h
  · next h => exact iff_of_false Bool.false_ne_true h

theorem find_insert (h : t.insert r = some t') :
    t'.find k = if key r = k then some r else t.find k := by
  obtain ⟨hnone, hrows⟩ := rows_of_insert h
  split
  · next hk =>
    refine t'.find_eq_some.2 ⟨?_, hk⟩
    rw [hrows]
    exact List.mem_append_right _ List.mem_cons_self
  · next hk =>
    show t'.rows.find? _ = _
    rw [hrows, List.find?_append]
    have hlast : [r].find? (key · = k) = none := by simp [hk]
    rw [hlast, Option.or_none]
    rfl

theorem count_insert (h : t.insert r = some t') (P : ρ → Bool) :
    t'.count P = t.count P + if P r then 1 else 0 := by
  obtain ⟨-, hrows⟩ := rows_of_insert h
  rw [count, hrows, List.countP_append, List.countP_singleton]
  rfl

/-- What can be found after an insertion, by its key. -/
theorem find_insertAll {rs : List ρ} (h : t.insertAll rs = some t') :
    (∀ r ∈ rs, t.find (key r) = none ∧ t'.find (key r) = some r) ∧
      ∀ k, (∀ r ∈ rs, key r ≠ k) → t'.find k = t.find k := by
  induction rs generalizing t with
  | nil =>
    obtain rfl := Option.some.inj h
    exact ⟨fun r hr ↦ absurd hr List.not_mem_nil, fun _ _ ↦ rfl⟩
  | cons a rs ih =>
    obtain ⟨t₁, ha, hrest⟩ := Option.bind_eq_some_iff.1 h
    obtain ⟨hnew, hold⟩ := ih hrest
    have hne : ∀ r ∈ rs, key r ≠ key a := by
      intro r hr heq
      have hfind := (hnew r hr).1
      rw [find_insert ha, if_pos heq.symm] at hfind
      cases hfind
    constructor
    · intro r hr
      rcases List.mem_cons.1 hr with rfl | hr
      · refine ⟨(rows_of_insert ha).1, ?_⟩
        rw [hold _ hne, find_insert ha, if_pos rfl]
      · refine ⟨?_, (hnew r hr).2⟩
        have hfind := (hnew r hr).1
        rwa [find_insert ha, if_neg (hne r hr).symm] at hfind
    · intro k hk
      rw [hold k fun r hr ↦ hk r (List.mem_cons_of_mem _ hr), find_insert ha,
        if_neg (hk a List.mem_cons_self)]

theorem find_of_insertAll {rs : List ρ} (h : t.insertAll rs = some t') (hk : t.find k = some r) :
    t'.find k = some r := by
  obtain ⟨hnew, hold⟩ := find_insertAll h
  rw [hold k fun r' hr' heq ↦ ?_, hk]
  rw [← heq, (hnew r' hr').1] at hk
  cases hk

theorem count_insertAll {rs : List ρ} (h : t.insertAll rs = some t') (P : ρ → Bool) :
    t'.count P = t.count P + rs.countP P := by
  induction rs generalizing t with
  | nil =>
    obtain rfl := Option.some.inj h
    rfl
  | cons a rs ih =>
    obtain ⟨t₁, ha, hrest⟩ := Option.bind_eq_some_iff.1 h
    rw [ih hrest, count_insert ha, List.countP_cons]
    omega

/-- Rows that can be inserted have different keys. -/
theorem nodup_of_insertAll {rs : List ρ} (h : t.insertAll rs = some t') : (rs.map key).Nodup := by
  induction rs generalizing t with
  | nil => exact List.nodup_nil
  | cons a rs ih =>
    obtain ⟨t₁, ha, hrest⟩ := Option.bind_eq_some_iff.1 h
    refine List.nodup_cons.2 ⟨fun hmem ↦ ?_, ih hrest⟩
    obtain ⟨r, hr, hkey⟩ := List.mem_map.1 hmem
    have hfree := ((find_insertAll hrest).1 r hr).1
    rw [find_insert ha, if_pos hkey.symm] at hfree
    cases hfree

/-- Rows whose keys are different, and not taken, can be inserted. -/
theorem insertAll_of_nodup {rs : List ρ} (h : (rs.map key).Nodup)
    (hnew : ∀ r ∈ rs, t.find (key r) = none) : ∃ t', t.insertAll rs = some t' := by
  induction rs generalizing t with
  | nil => exact ⟨t, rfl⟩
  | cons a rs ih =>
    obtain ⟨hmem, hnodup⟩ := List.nodup_cons.1 h
    have hfree := hnew a List.mem_cons_self
    obtain ⟨t₁, ht₁⟩ := Option.isSome_iff_exists.1 (insert_isSome.2 hfree)
    have hrest : ∀ r ∈ rs, t₁.find (key r) = none := by
      intro r hr
      have hne : key a ≠ key r := fun heq ↦ hmem (heq ▸ List.mem_map_of_mem hr)
      rw [find_insert ht₁, if_neg hne]
      exact hnew r (List.mem_cons_of_mem _ hr)
    obtain ⟨t', ht'⟩ := ih hnodup hrest
    refine ⟨t', ?_⟩
    rw [insertAll, ht₁]
    exact ht'

/-! ### Erasing -/

variable (t) in
/-- The table without the row with the key. -/
def erase (k : κ) : Table key :=
  ⟨t.rows.filter (key · ≠ k), t.unique.sublist (List.filter_sublist.map key)⟩

theorem count_erase_le (k : κ) (P : ρ → Bool) : (t.erase k).count P ≤ t.count P :=
  List.filter_sublist.countP_le

variable (t) in
/-- The table with the rows that satisfy the predicate. -/
def filter (P : ρ → Bool) : Table key :=
  ⟨t.rows.filter P, t.unique.sublist (List.filter_sublist.map key)⟩

theorem find_filter (P : ρ → Bool) : (t.filter P).find k = (t.find k).filter P := by
  cases hfind : t.find k with
  | none =>
    exact (find_eq_none _).2 fun r hr ↦ t.find_eq_none.1 hfind r (List.mem_filter.1 hr).1
  | some r₀ =>
    obtain ⟨hmem, rfl⟩ := t.find_eq_some.1 hfind
    rw [Option.filter_some]
    split
    · next hP => exact (find_eq_some _).2 ⟨List.mem_filter.2 ⟨hmem, hP⟩, rfl⟩
    · next hP =>
      refine (find_eq_none _).2 fun r hr hkey ↦ hP ?_
      obtain ⟨hr, hPr⟩ := List.mem_filter.1 hr
      rwa [List.inj_on_of_nodup_map t.unique hr hmem hkey] at hPr

/-! ### Writing back -/

variable (t)

theorem map_write (r : ρ) :
    (t.rows.map fun x ↦ if key x = key r then r else x).map key = t.rows.map key := by
  rw [List.map_map]
  refine List.map_congr_left fun x _ ↦ ?_
  simp only [Function.comp_apply]
  split
  · next h => exact h.symm
  · rfl

/-- The row is written over the one with its key, if there is one. -/
def write (r : ρ) : Table key :=
  ⟨t.rows.map fun x ↦ if key x = key r then r else x, by rw [map_write]; exact t.unique⟩

theorem find_write (r : ρ) (k : κ) :
    (t.write r).find k = (t.find k).map fun r₀ ↦ if key r = k then r else r₀ := by
  cases hfind : t.find k with
  | none =>
    refine (find_eq_none _).2 fun x hx ↦ ?_
    obtain ⟨y, hy, rfl⟩ := List.mem_map.1 hx
    have hne := t.find_eq_none.1 hfind y hy
    split
    · next h => rwa [← h]
    · exact hne
  | some r₀ =>
    obtain ⟨hmem, rfl⟩ := t.find_eq_some.1 hfind
    refine (find_eq_some _).2 ⟨List.mem_map.2 ⟨r₀, hmem, ?_⟩, ?_⟩
    · simp only [eq_comm]
    · split
      · next h => exact h
      · rfl

theorem find_write_ne (h : key r ≠ k) : (t.write r).find k = t.find k := by
  rw [find_write]
  simp only [h, if_false, Option.map_id_fun', id_eq]

variable {t}

/-- What is found after a write was there before it. -/
theorem exists_of_find_write {r₁ : ρ} (h : (t.write r).find k = some r₁) :
    ∃ r₀, t.find k = some r₀ := by
  rw [find_write] at h
  obtain ⟨r₀, hr₀, -⟩ := Option.map_eq_some_iff.1 h
  exact ⟨r₀, hr₀⟩

theorem find_write_self (h : t.find (key r) = some r₀) : (t.write r).find (key r) = some r := by
  rw [find_write, h]
  simp only [Option.map_some, if_true]

private theorem countP_write {rows : List ρ} {P : ρ → Bool} (hu : (rows.map key).Nodup)
    (hmem : r₀ ∈ rows) (hkey : key r₀ = key r) :
    (rows.map fun x ↦ if key x = key r then r else x).countP P + (if P r₀ then 1 else 0) =
      rows.countP P + if P r then 1 else 0 := by
  induction rows with
  | nil => exact absurd hmem List.not_mem_nil
  | cons a rows ih =>
    rw [List.map_cons, List.nodup_cons] at hu
    rw [List.map_cons, List.countP_cons, List.countP_cons]
    by_cases ha : key a = key r
    · obtain rfl : r₀ = a := by
        rcases List.mem_cons.1 hmem with rfl | hmem
        · rfl
        · refine absurd (List.mem_map_of_mem (f := key) hmem) ?_
          rw [hkey, ← ha]
          exact hu.1
      have hsame : rows.map (fun x ↦ if key x = key r then r else x) = rows := by
        conv_rhs => rw [← List.map_id rows]
        refine List.map_congr_left fun x hx ↦ if_neg fun hxr ↦ hu.1 ?_
        rw [ha, ← hxr]
        exact List.mem_map_of_mem hx
      rw [hsame, if_pos ha]
      omega
    · have hmem' : r₀ ∈ rows := by
        rcases List.mem_cons.1 hmem with rfl | hmem
        · exact absurd hkey ha
        · exact hmem
      have hih := ih hu.2 hmem'
      rw [if_neg ha]
      omega

/-- A row that is written over another counts in its place. -/
theorem count_write (h : t.find (key r) = some r₀) (P : ρ → Bool) :
    (t.write r).count P + (if P r₀ then 1 else 0) = t.count P + if P r then 1 else 0 :=
  countP_write t.unique (mem_of_find h) (key_of_find h)

end Table

/-! ### Texts in keys -/

/-- What a collation compares texts by that takes no notice of the case of ASCII letters. -/
def foldCase (s : String) : String := String.ofList (s.toList.map Char.toLower)
