import ChatNow.Lib.Labelled
import ChatNow.Lib.Prog
import Mathlib.Logic.Function.Basic

/-!
# Fleets of looping processes over a shared state

A second concurrent reading of `Prog`, for threads that loop. A **fleet** is a family of processes,
one for each element of an index type. A process goes from control point to control point: each
control point stands for a program, the **round**, and the program returns the next control point.
A loop of the source is then a control point that comes back to itself, with no bound on the number
of rounds and no fuel.

The proof rule is `Fleet.invariant`. It asks two things: that each round meets the contract of its
process from every phase in which its control point can be entered, and that a global invariant —
over the phases of all the processes and the shared state — survives every allowed call and every
event.
-/

/-- Processes that loop, and the meaning of their calls and of the events around them. -/
structure Fleet (ι Op : Type) (Res : Op → Type) (K σ Choice Ev : Type) where
  /-- The round at a control point. -/
  round : ι → K → Prog Op Res K
  /-- The effect of a call by a process; `none` when it cannot happen. -/
  exec : ι → (o : Op) → Choice → σ → Option (Res o × σ)
  /-- The effect of an event. -/
  env : Ev → σ → Option σ

namespace Fleet

/-- What each process has left to do of its round, and the shared state. -/
structure State (ι Op : Type) (Res : Op → Type) (K σ : Type) where
  procs : ι → Prog Op Res K
  shared : σ

/-- What happens next. -/
inductive Label (ι Choice Ev : Type)
  /-- A process begins its next round. -/
  | loop (i : ι)
  /-- A process makes its next call. -/
  | call (i : ι) (c : Choice)
  | event (e : Ev)

variable {ι Op : Type} {Res : Op → Type} {K σ Choice Ev τ : Type}
  (F : Fleet ι Op Res K σ Choice Ev)

/-- The end of a program of process `i`, and the shared state then, when nobody else moves. -/
def solo (i : ι) : List Choice → Prog Op Res K → σ → Option (K × σ)
  | _, .ret k, s => some (k, s)
  | [], .call _ _, _ => none
  | c :: cs, .call o k, s => (F.exec i o c s).bind fun x ↦ solo i cs (k x.1) x.2

variable {F} in
theorem solo_call {i : ι} {o : Op} {k : Res o → Prog Op Res K} {c : Choice} {cs : List Choice}
    {s s' : σ} {r : Res o} (hx : F.exec i o c s = some (r, s')) :
    F.solo i (c :: cs) (.call o k) s = F.solo i cs (k r) s' := by
  rw [solo, hx, Option.bind_some]

variable [DecidableEq ι]

/-- The fleet as a system with named steps. -/
def system : Labelled (State ι Op Res K σ) (Label ι Choice Ev) where
  step
    | .loop i, s =>
      match s.procs i with
      | .ret k => some { s with procs := Function.update s.procs i (F.round i k) }
      | .call _ _ => none
    | .call i c, s =>
      match s.procs i with
      | .ret _ => none
      | .call o k =>
        (F.exec i o c s.shared).map fun x ↦ ⟨Function.update s.procs i (k x.1), x.2⟩
    | .event e, s => (F.env e s.shared).map fun shared ↦ { s with shared }

/-- A run of the fleet. -/
abbrev Reach : State ι Op Res K σ → State ι Op Res K σ → Prop :=
  F.system.Reach fun _ _ ↦ True

variable {F} {s s' : State ι Op Res K σ}

/-! ### A process on its own

A stretch of a run in which one process makes a whole round undisturbed. -/

theorem reach_of_solo {s₀ : State ι Op Res K σ} {i : ι} (cs : List Choice) {p : Prog Op Res K}
    {k : K} {shared : σ} (hr : F.Reach s₀ s) (hi : s.procs i = p)
    (h : F.solo i cs p s.shared = some (k, shared)) :
    F.Reach s₀ ⟨Function.update s.procs i (.ret k), shared⟩ := by
  induction cs generalizing p s with
  | nil =>
    cases p with
    | ret k' =>
      obtain ⟨rfl, rfl⟩ := Prod.mk.inj (Option.some.inj h)
      rwa [← hi, Function.update_eq_self]
    | call o p => cases h
  | cons c cs ih =>
    cases p with
    | ret k' =>
      obtain ⟨rfl, rfl⟩ := Prod.mk.inj (Option.some.inj h)
      rwa [← hi, Function.update_eq_self]
    | call o p =>
      obtain ⟨⟨r, s'⟩, hx, hrest⟩ := Option.bind_eq_some_iff.1
        (show (F.exec i o c s.shared).bind _ = some (k, shared) from h)
      have hstep : F.Reach s₀ ⟨Function.update s.procs i (p r), s'⟩ :=
        hr.tail ⟨.call i c, trivial, by simp only [system, hi, hx, Option.map_some]⟩
      simpa only [Function.update_idem] using ih hstep (Function.update_self ..) hrest

/-- A whole round of one process. -/
theorem reach_round {s₀ : State ι Op Res K σ} {i : ι} (cs : List Choice) {k k' : K} {shared : σ}
    (hr : F.Reach s₀ s) (hi : s.procs i = .ret k)
    (h : F.solo i cs (F.round i k) s.shared = some (k', shared)) :
    F.Reach s₀ ⟨Function.update s.procs i (.ret k'), shared⟩ := by
  have hloop : F.Reach s₀ { s with procs := Function.update s.procs i (F.round i k) } :=
    hr.tail ⟨.loop i, trivial, by simp only [system, hi]⟩
  simpa only [Function.update_idem] using reach_of_solo cs hloop (Function.update_self ..) h

/-- **The contract rule.** -/
theorem invariant {C : ι → Contract Op Res τ} {E : ι → τ → K → Prop}
    {I : (ι → τ) → σ → Prop} {s₀ : State ι Op Res K σ} (hr : F.Reach s₀ s)
    (h₀ : ∃ ts, I ts s₀.shared ∧ ∀ i, (s₀.procs i).Meets (C i) (ts i) (E i))
    (hround : ∀ {i t k}, E i t k → (F.round i k).Meets (C i) t (E i))
    (hcall : ∀ {ts s i o c r s'}, I ts s → (C i).allowed (ts i) o →
      F.exec i o c s = some (r, s') → (C i).admits (ts i) o r ∧
        I (Function.update ts i ((C i).next (ts i) o r)) s')
    (hevent : ∀ {ts s e s'}, I ts s → F.env e s = some s' → I ts s') :
    ∃ ts, I ts s.shared ∧ ∀ i, (s.procs i).Meets (C i) (ts i) (E i) := by
  refine Labelled.invariant
    (I := fun s ↦ ∃ ts, I ts s.shared ∧ ∀ i, (s.procs i).Meets (C i) (ts i) (E i)) hr h₀ ?_
  rintro s l s' ⟨ts, hinv, hmeets⟩ - hs
  cases l with
  | loop i =>
    simp only [system] at hs
    split at hs
    · next k hi =>
      obtain rfl := Option.some.inj hs
      refine ⟨ts, hinv, fun j ↦ ?_⟩
      rcases eq_or_ne j i with rfl | hji
      · have henter := hmeets j
        rw [hi, Prog.meets_ret] at henter
        simpa only [Function.update_self] using hround henter
      · simpa only [Function.update_of_ne hji] using hmeets j
    · cases hs
  | call i c =>
    simp only [system] at hs
    split at hs
    · cases hs
    · next o k hi =>
      obtain ⟨⟨r, shared⟩, hx, rfl⟩ := Option.map_eq_some_iff.1 hs
      have hcallee := hmeets i
      rw [hi] at hcallee
      obtain ⟨hadm, hinv'⟩ := hcall hinv hcallee.1 hx
      refine ⟨_, hinv', fun j ↦ ?_⟩
      rcases eq_or_ne j i with rfl | hji
      · simpa only [Function.update_self] using hcallee.2 r hadm
      · simpa only [Function.update_of_ne hji] using hmeets j
  | event e =>
    obtain ⟨shared, hx, rfl⟩ := Option.map_eq_some_iff.1 hs
    exact ⟨ts, hevent hinv hx, hmeets⟩

end Fleet
