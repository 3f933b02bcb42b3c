import Mathlib.Data.Int.Notation
import Mathlib.Data.Int.Order.Basic
import Mathlib.Logic.Function.Basic

/-!
# Leases on keys

A **lease** is a key with a token for a value: who put the token there owns the key until the key
expires or its owner deletes it. The commands that make this work are the three that a store with
atomic scripts offers: set the key unless it has a value, and delete it or prolong it if its value
is one's own token.

What is proved of them is what a command does for its caller (`owner_setNx`, `owner_prolong`) and
that it does nothing to anybody else: a key that is owned stays as it is under every command with
another token (`setNx_of_owner`, `casDel_of_owner`, `prolong_of_owner`). Time only takes keys away
(`owner_of_later`).
-/

/-- What is stored under a key; without a deadline it does not expire. -/
structure Lease (τ : Type) where
  token : τ
  deadline : Option ℤ

/-- Keys with leases. -/
def Leases (κ τ : Type) : Type := κ → Option (Lease τ)

namespace Leases

variable {κ τ : Type} {m : Leases κ τ} {now later ttl : ℤ} {k k' : κ} {t t' : τ}

/-! ### Time -/

/-- Whether a lease has not expired at a moment. -/
def alive (now : ℤ) (l : Lease τ) : Bool := l.deadline.all fun d ↦ now < d

/-- The token that is read under a key at a moment. -/
def owner (m : Leases κ τ) (now : ℤ) (k : κ) : Option τ := ((m k).filter (alive now)).map (·.token)

theorem owner_eq_some : m.owner now k = some t ↔
    ∃ d, m k = some ⟨t, d⟩ ∧ d.all (fun d ↦ now < d) = true := by
  simp only [owner, Option.map_eq_some_iff, Option.filter_eq_some_iff]
  constructor
  · rintro ⟨⟨t, d⟩, ⟨hk, halive⟩, rfl⟩
    exact ⟨d, hk, halive⟩
  · rintro ⟨d, hk, halive⟩
    exact ⟨⟨t, d⟩, ⟨hk, halive⟩, rfl⟩

/-- What is owned later was owned before. -/
theorem owner_of_later (h : m.owner later k = some t) (hle : now ≤ later) :
    m.owner now k = some t := by
  obtain ⟨d, hk, halive⟩ := owner_eq_some.1 h
  refine owner_eq_some.2 ⟨d, hk, ?_⟩
  cases d with
  | none => rfl
  | some d =>
    have hlt : later < d := of_decide_eq_true halive
    exact decide_eq_true (show now < d by omega)

/-- A key that has not expired yet still has its owner. -/
theorem owner_later (h : m.owner now k = some t) (hle : now ≤ later)
    (hthere : (m.owner later k).isSome = true) : m.owner later k = some t := by
  obtain ⟨t', ht'⟩ := Option.isSome_iff_exists.1 hthere
  rw [ht', ← owner_of_later ht' hle, h]

/-- What a key is owned by depends on its lease alone. -/
theorem owner_congr {m' : Leases κ τ} (h : m' k = m k) (now : ℤ) :
    m'.owner now k = m.owner now k := by
  rw [owner, owner, h]

/-! ### The commands -/

section Commands

variable [DecidableEq κ]

/-- `SET k t NX`, with a time to live if that is positive. -/
def setNx (m : Leases κ τ) (now : ℤ) (k : κ) (t : τ) (ttl : ℤ) : Bool × Leases κ τ :=
  if m.owner now k = none then
    (true, Function.update m k (some ⟨t, if 0 < ttl then some (now + ttl) else none⟩))
  else (false, m)

variable [DecidableEq τ]

/-- The script that deletes a key if the token is its value. -/
def casDel (m : Leases κ τ) (now : ℤ) (k : κ) (t : τ) : Bool × Leases κ τ :=
  if m.owner now k = some t then (true, Function.update m k none) else (false, m)

/-- The script that prolongs a key if the token is its value. -/
def prolong (m : Leases κ τ) (now : ℤ) (k : κ) (t : τ) (ttl : ℤ) : Bool × Leases κ τ :=
  if m.owner now k = some t then (true, Function.update m k (some ⟨t, some (now + ttl)⟩))
  else (false, m)

end Commands

section Rules

variable [DecidableEq κ]

/-! ### What a command does for its caller -/

theorem owner_setNx (h : (m.setNx now k t ttl).1 = true) :
    (m.setNx now k t ttl).2.owner now k = some t := by
  rw [setNx] at h ⊢
  split at h
  · next hnone =>
    rw [if_pos hnone]
    refine owner_eq_some.2 ⟨_, Function.update_self .., ?_⟩
    split
    · next hpos => exact decide_eq_true (show now < now + ttl by omega)
    · rfl
  · cases h

theorem owner_prolong [DecidableEq τ] (h : (m.prolong now k t ttl).1 = true) (hpos : 0 < ttl) :
    (m.prolong now k t ttl).2.owner now k = some t := by
  rw [prolong] at h ⊢
  split at h
  · next hown =>
    rw [if_pos hown]
    exact owner_eq_some.2
      ⟨_, Function.update_self .., decide_eq_true (show now < now + ttl by omega)⟩
  · cases h

/-! ### What it does to others -/

/-- Who has a key keeps it when somebody else sets keys that have no value. -/
theorem setNx_of_owner (h : m.owner now k = some t) (k' : κ) (t' : τ) (ttl : ℤ) :
    (m.setNx now k' t' ttl).2 k = m k := by
  rw [setNx]
  split
  · next hnone =>
    refine Function.update_of_ne ?_ _ _
    rintro rfl
    rw [h] at hnone
    cases hnone
  · rfl

theorem casDel_of_owner [DecidableEq τ] (h : m.owner now k = some t) (hne : k = k' → t ≠ t') :
    (m.casDel now k' t').2 k = m k := by
  rw [casDel]
  split
  · next hown =>
    refine Function.update_of_ne ?_ _ _
    rintro rfl
    exact hne rfl (Option.some.inj (h.symm.trans hown))
  · rfl

theorem prolong_of_owner [DecidableEq τ] (h : m.owner now k = some t) (hne : k = k' → t ≠ t')
    (ttl : ℤ) :
    (m.prolong now k' t' ttl).2 k = m k := by
  rw [prolong]
  split
  · next hown =>
    refine Function.update_of_ne ?_ _ _
    rintro rfl
    exact hne rfl (Option.some.inj (h.symm.trans hown))
  · rfl

end Rules

end Leases
