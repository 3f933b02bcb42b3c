import Mathlib.Data.Int.Notation
import Mathlib.Data.Int.Order.Basic
import Mathlib.Logic.Function.Basic
import Mathlib.Tactic.Linarith

/-!
# Keys that expire

A store whose keys carry a time to live, as the commands `SET key value EX ttl` of a cache make
them: a key has a value until a moment, and from that moment on it has none. A key can be set, set
unless it has a value, and deleted. The clock is outside; it only moves forward.

The two facts that proofs about such stores use are `get_of_later` — what is there later was there
before, with the same value, unless it has been set in between — and `get_of_lt`, that a key is
there up to its moment.
-/

/-- Keys with their values and the moments at which they expire. -/
def Expiring (κ α : Type) : Type := κ → Option (α × ℤ)

namespace Expiring

variable {κ α : Type} (m : Expiring κ α) {k k' : κ} {v w : α} {now later ttl : ℤ}

/-- No key is set. -/
def empty : Expiring κ α := fun _ ↦ none

/-- The value of a key at a moment. -/
def get (now : ℤ) (k : κ) : Option α := ((m k).filter (now < ·.2)).map (·.1)

theorem get_eq_some : m.get now k = some v ↔ ∃ e, m k = some (v, e) ∧ now < e := by
  simp only [get, Option.map_eq_some_iff, Option.filter_eq_some_iff, decide_eq_true_eq]
  constructor
  · rintro ⟨⟨w, e⟩, ⟨hk, hlt⟩, rfl⟩
    exact ⟨e, hk, hlt⟩
  · rintro ⟨e, hk, hlt⟩
    exact ⟨(v, e), ⟨hk, hlt⟩, rfl⟩

variable {m}

/-- A key is there up to its moment. -/
theorem get_of_lt {e : ℤ} (h : m k = some (v, e)) (hlt : now < e) : m.get now k = some v :=
  m.get_eq_some.2 ⟨e, h, hlt⟩

/-- What is there later was there before. -/
theorem get_of_later (h : m.get later k = some v) (hle : now ≤ later) : m.get now k = some v := by
  obtain ⟨e, hk, hlt⟩ := m.get_eq_some.1 h
  exact m.get_eq_some.2 ⟨e, hk, by omega⟩

/-- What has expired stays so. -/
theorem get_none_of_later (h : m.get now k = none) (hle : now ≤ later) : m.get later k = none := by
  cases hk : m.get later k with
  | none => rfl
  | some v =>
    rw [get_of_later hk hle] at h
    cases h

@[simp] theorem get_empty : (empty : Expiring κ α).get now k = none := rfl

section Update

variable [DecidableEq κ] (m)

/-- `SET k v EX ttl`. -/
def setEx (now : ℤ) (k : κ) (v : α) (ttl : ℤ) : Expiring κ α :=
  Function.update m k (some (v, now + ttl))

/-- `DEL k`. -/
def del (k : κ) : Expiring κ α := Function.update m k none

@[simp] theorem setEx_self (now : ℤ) (k : κ) (v : α) (ttl : ℤ) :
    m.setEx now k v ttl k = some (v, now + ttl) :=
  Function.update_self ..

theorem setEx_ne (now : ℤ) (v : α) (ttl : ℤ) (h : k' ≠ k) : m.setEx now k v ttl k' = m k' :=
  Function.update_of_ne h ..

@[simp] theorem del_self (k : κ) : m.del k k = none := Function.update_self ..

theorem del_ne (h : k' ≠ k) : m.del k k' = m k' := Function.update_of_ne h ..

theorem get_setEx_self (hpos : 0 < ttl) : (m.setEx now k v ttl).get now k = some v :=
  get_of_lt (m.setEx_self now k v ttl) (by omega)

theorem get_setEx_ne (h : k' ≠ k) : (m.setEx now k v ttl).get later k' = m.get later k' := by
  rw [get, get, m.setEx_ne now v ttl h]

@[simp] theorem get_del_self : (m.del k).get now k = none := by
  rw [get, del_self]
  rfl

variable {m}

/-- A value after a `SET` is the new one or an old one. -/
theorem setEx_cases {e : ℤ} (h : m.setEx now k v ttl k' = some (w, e)) :
    k' = k ∧ w = v ∧ e = now + ttl ∨ k' ≠ k ∧ m k' = some (w, e) := by
  rcases eq_or_ne k' k with rfl | hne
  · rw [setEx_self] at h
    obtain ⟨rfl, rfl⟩ := Prod.mk.inj (Option.some.inj h)
    exact .inl ⟨rfl, rfl, rfl⟩
  · rw [m.setEx_ne now v ttl hne] at h
    exact .inr ⟨hne, h⟩

/-- A value after a `DEL` was there before. -/
theorem of_del {e : ℤ} (h : m.del k k' = some (w, e)) : k' ≠ k ∧ m k' = some (w, e) := by
  rcases eq_or_ne k' k with rfl | hne
  · rw [del_self] at h
    cases h
  · rw [m.del_ne hne] at h
    exact ⟨hne, h⟩

end Update

end Expiring
