import Mathlib.Data.List.Induction
import Mathlib.Data.List.Nodup

/-!
# Linearizability

An object that many callers share, by what they see of it: calls begin, and some of them end with
an answer. A sequential object is a relation `step`: what an operation may answer in a state, and
what it may leave. A history is linearizable (`Linearizable`) when the calls can be put into one
order in which each answers as the sequential object may, and in which a call that had ended before
another began comes before it. A call that never ends may have taken effect or not.

The rule is `Atomic.linearizable`: it is enough that every call takes effect at one moment, after it
has begun and before it ends.
-/

namespace Linear

open List

variable {A R D : Type}

/-- What happens to an object. A call goes by a number. -/
inductive Moment (A R : Type)
  | invoked (i : ℕ) (a : A)
  /-- It takes effect. Nobody sees this. -/
  | effect (i : ℕ) (a : A) (r : R)
  | returned (i : ℕ) (r : R)
  deriving DecidableEq

/-- A call with its operation and its answer. -/
abbrev Call (A R : Type) := ℕ × A × R

/-- The call that takes effect. -/
def Moment.call : Moment A R → Option (Call A R)
  | effect i a r => some (i, a, r)
  | _ => none

/-- Calls one after the other, from a state to a state. -/
inductive Legal (step : A → D → R → D → Prop) (d₀ : D) : List (Call A R) → D → Prop
  | nil : Legal step d₀ [] d₀
  | snoc {cs : List (Call A R)} {d d' : D} {i : ℕ} {a : A} {r : R} (h : Legal step d₀ cs d)
      (hstep : step a d r d') : Legal step d₀ (cs ++ [(i, a, r)]) d'

/-- The calls of the history in an order that explains it, from `d₀` to `d`. -/
structure Linearizable (step : A → D → R → D → Prop) (d₀ : D) (h : List (Moment A R))
    (order : List (Call A R)) (d : D) : Prop where
  legal : Legal step d₀ order d
  once : (order.map (·.1)).Nodup
  invoked : ∀ c ∈ order, .invoked c.1 c.2.1 ∈ h
  returned : ∀ i r, .returned i r ∈ h → ∃ a, (i, a, r) ∈ order
  real_time : ∀ i r j b, [.returned i r, .invoked j b] <+ h →
    ∀ c ∈ order, c.1 = i → ∀ c' ∈ order, c'.1 = j → [c, c'] <+ order

/-- Histories in which every call takes effect at one moment, from `d₀` to a state. -/
inductive Atomic (step : A → D → R → D → Prop) (d₀ : D) : List (Moment A R) → D → Prop
  | nil : Atomic step d₀ [] d₀
  | invoked {h : List (Moment A R)} {d : D} {i : ℕ} {a : A} (hh : Atomic step d₀ h d)
      (hnew : ∀ b, .invoked i b ∉ h) : Atomic step d₀ (h ++ [.invoked i a]) d
  | effect {h : List (Moment A R)} {d d' : D} {i : ℕ} {a : A} {r : R} (hh : Atomic step d₀ h d)
      (hbegun : .invoked i a ∈ h) (honce : ∀ b r, .effect i b r ∉ h) (hstep : step a d r d') :
      Atomic step d₀ (h ++ [.effect i a r]) d'
  | returned {h : List (Moment A R)} {d : D} {i : ℕ} {a : A} {r : R} (hh : Atomic step d₀ h d)
      (heffect : .effect i a r ∈ h) : Atomic step d₀ (h ++ [.returned i r]) d

section Atomic

variable {step : A → D → R → D → Prop} {d₀ d : D} {h : List (Moment A R)}

theorem mem_filterMap_call {c : Call A R} :
    c ∈ h.filterMap Moment.call ↔ .effect c.1 c.2.1 c.2.2 ∈ h := by
  rw [mem_filterMap]
  constructor
  · rintro ⟨e, he, hc⟩
    cases e with
    | effect i a r =>
      obtain rfl := Option.some.inj hc
      exact he
    | invoked i a => cases hc
    | returned i r => cases hc
  · exact fun he ↦ ⟨_, he, rfl⟩

/-- The calls are legal in the order in which they take effect. -/
theorem Atomic.legal (hh : Atomic step d₀ h d) : Legal step d₀ (h.filterMap Moment.call) d := by
  induction hh with
  | nil => exact .nil
  | invoked _ _ ih | returned _ _ ih =>
    rw [filterMap_append]
    exact (append_nil _).symm ▸ ih
  | effect _ _ _ hstep ih =>
    rw [filterMap_append]
    exact .snoc ih hstep

/-- A call takes effect once. -/
theorem Atomic.once (hh : Atomic step d₀ h d) :
    ((h.filterMap Moment.call).map (·.1)).Nodup := by
  induction hh with
  | nil => exact nodup_nil
  | invoked _ _ ih | returned _ _ ih =>
    rw [filterMap_append]
    exact (append_nil _).symm ▸ ih
  | @effect h d d' i a r _ _ honce _ ih =>
    rw [filterMap_append, map_append]
    refine Nodup.append ih (nodup_singleton i) (disjoint_singleton.2 fun hmem ↦ ?_)
    obtain ⟨c, hc, rfl⟩ := mem_map.1 hmem
    exact honce _ _ (mem_filterMap_call.1 hc)

/-- A call that takes effect has begun. -/
theorem Atomic.begun {i : ℕ} {a : A} {r : R} (hh : Atomic step d₀ h d)
    (hmem : .effect i a r ∈ h) : .invoked i a ∈ h := by
  induction hh with
  | nil => cases hmem
  | invoked _ _ ih | returned _ _ ih =>
    rcases mem_append.1 hmem with hold | hnew
    · exact mem_append_left _ (ih hold)
    · cases mem_singleton.1 hnew
  | effect _ hbegun _ _ ih =>
    rcases mem_append.1 hmem with hold | hnew
    · exact mem_append_left _ (ih hold)
    · obtain ⟨rfl, rfl, rfl⟩ := Moment.effect.inj (mem_singleton.1 hnew)
      exact mem_append_left _ hbegun

/-- A call that ends has taken effect. -/
theorem Atomic.took_effect {i : ℕ} {r : R} (hh : Atomic step d₀ h d)
    (hmem : .returned i r ∈ h) : ∃ a, .effect i a r ∈ h := by
  induction hh with
  | nil => cases hmem
  | invoked _ _ ih | effect _ _ _ _ ih =>
    rcases mem_append.1 hmem with hold | hnew
    · obtain ⟨a, ha⟩ := ih hold
      exact ⟨a, mem_append_left _ ha⟩
    · cases mem_singleton.1 hnew
  | returned _ heffect ih =>
    rcases mem_append.1 hmem with hold | hnew
    · obtain ⟨a, ha⟩ := ih hold
      exact ⟨a, mem_append_left _ ha⟩
    · obtain ⟨rfl, rfl⟩ := Moment.returned.inj (mem_singleton.1 hnew)
      exact ⟨_, mem_append_left _ heffect⟩

/-- The last moment of a history, and what stands before it. -/
theorem Atomic.of_concat {e : Moment A R} (hh : Atomic step d₀ (h ++ [e]) d) :
    (∃ d', Atomic step d₀ h d') ∧ ∀ i a, e = .invoked i a → ∀ b, .invoked i b ∉ h := by
  generalize heq : h ++ [e] = h' at hh
  cases hh with
  | nil => exact absurd heq (append_ne_nil_of_right_ne_nil _ (cons_ne_nil _ _))
  | invoked hh hnew =>
    obtain ⟨rfl, he⟩ := append_inj' heq rfl
    obtain rfl := singleton_inj.1 he
    refine ⟨⟨_, hh⟩, fun i a heq ↦ ?_⟩
    obtain ⟨rfl, rfl⟩ := Moment.invoked.inj heq
    exact hnew
  | effect hh =>
    obtain ⟨rfl, he⟩ := append_inj' heq rfl
    obtain rfl := singleton_inj.1 he
    exact ⟨⟨_, hh⟩, fun i a heq ↦ by cases heq⟩
  | returned hh =>
    obtain ⟨rfl, he⟩ := append_inj' heq rfl
    obtain rfl := singleton_inj.1 he
    exact ⟨⟨_, hh⟩, fun i a heq ↦ by cases heq⟩

variable {h₁ h₂ : List (Moment A R)}

/-- The beginning of a history. -/
theorem Atomic.init (hh : Atomic step d₀ (h₁ ++ h₂) d) : ∃ d₁, Atomic step d₀ h₁ d₁ := by
  induction h₂ using reverseRecOn generalizing d with
  | nil =>
    rw [append_nil] at hh
    exact ⟨d, hh⟩
  | append_singleton h₂ e ih =>
    rw [← append_assoc] at hh
    obtain ⟨⟨d', hh'⟩, -⟩ := hh.of_concat
    exact ih hh'

/-- A call begins once. -/
theorem Atomic.begins_once {i : ℕ} {a b : A} (hh : Atomic step d₀ (h₁ ++ h₂) d)
    (hmem : .invoked i a ∈ h₁) : .invoked i b ∉ h₂ := by
  induction h₂ using reverseRecOn generalizing d with
  | nil => exact not_mem_nil
  | append_singleton h₂ e ih =>
    rw [← append_assoc] at hh
    obtain ⟨⟨d', hh'⟩, hnew⟩ := hh.of_concat
    rw [mem_append, mem_singleton]
    rintro (hold | rfl)
    · exact ih hh' hold
    · exact hnew i b rfl a (mem_append_left _ hmem)

/-- A call that has ended before another begins has taken effect before it. -/
theorem Atomic.real_time (hh : Atomic step d₀ h d) {i j : ℕ} {r : R} {b : A}
    (hbefore : [.returned i r, .invoked j b] <+ h) {c c' : Call A R}
    (hc : c ∈ h.filterMap Moment.call) (hi : c.1 = i) (hc' : c' ∈ h.filterMap Moment.call)
    (hj : c'.1 = j) : [c, c'] <+ h.filterMap Moment.call := by
  obtain ⟨h₁, h₂, rfl, hret, hinv⟩ :=
    append_sublist_iff.1 (show [Moment.returned i r] ++ [.invoked j b] <+ h from hbefore)
  obtain ⟨d₁, hh₁⟩ := hh.init
  obtain ⟨a, heffect⟩ := hh₁.took_effect (singleton_sublist.1 hret)
  -- the first call has taken effect in the first part, so no later
  have hfirst : c ∈ h₁.filterMap Moment.call := by
    have hearly : (i, a, r) ∈ h₁.filterMap Moment.call := mem_filterMap_call.2 heffect
    have hsame : c = (i, a, r) := by
      refine inj_on_of_nodup_map hh.once hc ?_ hi
      rw [filterMap_append]
      exact mem_append_left _ hearly
    exact hsame ▸ hearly
  -- the second call begins in the second part, so it takes effect there
  have hsecond : c' ∈ h₂.filterMap Moment.call := by
    rw [filterMap_append] at hc'
    refine (mem_append.1 hc').resolve_left fun hold ↦ ?_
    subst hj
    exact hh.begins_once (hh₁.begun (mem_filterMap_call.1 hold)) (singleton_sublist.1 hinv)
  rw [filterMap_append]
  exact (singleton_sublist.2 hfirst).append (singleton_sublist.2 hsecond)

/-- **A history is linearizable when every call takes effect at one moment**, after it has begun and
before it ends. -/
theorem Atomic.linearizable (hh : Atomic step d₀ h d) :
    Linearizable step d₀ h (h.filterMap Moment.call) d where
  legal := hh.legal
  once := hh.once
  invoked _ hc := hh.begun (mem_filterMap_call.1 hc)
  returned i r hret := by
    obtain ⟨a, ha⟩ := hh.took_effect hret
    exact ⟨a, mem_filterMap_call.2 ha⟩
  real_time _ _ _ _ hbefore _ hc hi _ hc' hj := hh.real_time hbefore hc hi hc' hj

end Atomic

end Linear
