import Mathlib.Logic.Relation
import Mathlib.Data.List.Basic

/-!
# Systems with named steps

A system whose steps have names: a state, and for each name the state after that step, if the step
can happen. Everything nondeterministic is part of the name, so a concrete run is a list of names
and can be evaluated.

An **assumption** on the steps of a run is a predicate of the name and the state before the step.
`Labelled.invariant` is the proof rule: what holds at first and survives every step made under the
assumption holds along every run made under it.
-/

/-- A system whose steps are named by `ι`. -/
structure Labelled (σ ι : Type) where
  /-- The state after the named step; `none` when it cannot happen. -/
  step : ι → σ → Option σ

namespace Labelled

variable {σ ι : Type} (L : Labelled σ ι) {G : ι → σ → Prop} {s s' s₀ : σ}

/-- A run under the assumption `G`. -/
def Reach (G : ι → σ → Prop) : σ → σ → Prop :=
  Relation.ReflTransGen fun s s' ↦ ∃ i, G i s ∧ L.step i s = some s'

variable {L}

/-- **The invariant rule.** -/
theorem invariant {I : σ → Prop} (hr : L.Reach G s₀ s) (h₀ : I s₀)
    (hstep : ∀ {s i s'}, I s → G i s → L.step i s = some s' → I s') : I s := by
  induction hr with
  | refl => exact h₀
  | tail _ hs ih =>
    obtain ⟨i, hG, hi⟩ := hs
    exact hstep ih hG hi

/-! ### Evaluating a concrete run -/

variable (L) (G)

/-- The state after a list of steps made under the assumption. -/
def run [∀ i s, Decidable (G i s)] (s : σ) (is : List ι) : Option σ :=
  is.foldlM (fun s i ↦ if G i s then L.step i s else none) s

variable {L G} [∀ i s, Decidable (G i s)]

theorem reach_of_run {is : List ι} (h : L.run G s is = some s') : L.Reach G s s' := by
  induction is generalizing s with
  | nil =>
    obtain rfl : s = s' := by simpa [run] using h
    exact .refl
  | cons i is ih =>
    obtain ⟨q, hq, hrest⟩ := Option.bind_eq_some_iff.1
      (show (if G i s then L.step i s else none).bind _ = some s' from h)
    split at hq
    · next hG => exact .head ⟨i, hG, hq⟩ (ih hrest)
    · cases hq

variable (L G) in
/-- A concrete run, and what can be decided of the state it ends in. -/
theorem exists_of_run (s : σ) (is : List ι) (P : σ → Prop) [DecidablePred P]
    (h : (L.run G s is).any (fun s' ↦ P s') = true) : ∃ s', L.Reach G s s' ∧ P s' := by
  cases hr : L.run G s is with
  | none =>
    rw [hr] at h
    cases h
  | some s' =>
    rw [hr] at h
    exact ⟨s', reach_of_run hr, of_decide_eq_true h⟩

end Labelled
