import ChatNow.Lib.Pool
import Mathlib.Algebra.Ring.Nat

/-!
# Machines that know what their programs know

What the calls in flight have read, and may do because of it, is not in the shared state, but in the
programs. `Machine.tracked` carries it along: beside the shared state there is a list with the state
of a contract for each program, which every call moves on. An assumption on the steps of a run can
then speak of what the other programs are still to do.

Tracking changes nothing about the machine (`reach_tracked`), and the contract rule reads as before,
with the list that is carried along for the one that was found (`tracked_invariant`).

Where each program holds a share of something, what they hold together is `Pool.total`: it changes
as the one program does that has moved (`Pool.total_set`).
-/

namespace Pool

variable {τ : Type} {f : τ → ℕ} {ts : List τ} {i : ℕ} {t u : τ}

/-- What the programs hold together. -/
def total (f : τ → ℕ) (ts : List τ) : ℕ := (ts.map f).sum

theorem total_set (hi : ts[i]? = some t) : total f (ts.set i u) + f t = total f ts + f u := by
  induction ts generalizing i with
  | nil => cases hi
  | cons a ts ih =>
    cases i with
    | zero =>
      obtain rfl := Option.some.inj hi
      simp only [total, List.set_cons_zero, List.map_cons, List.sum_cons]
      omega
    | succ i =>
      have hrest := ih (show ts[i]? = some t from hi)
      simp only [total, List.set_cons_succ, List.map_cons, List.sum_cons] at hrest ⊢
      omega

/-- A program that holds nothing joins. -/
theorem total_append (ht : f t = 0) : total f (ts ++ [t]) = total f ts := by
  rw [total, List.map_append, List.sum_append, List.map_singleton, List.sum_singleton, ht]
  rfl

theorem total_eq_zero (h : ∀ (i : ℕ) t, ts[i]? = some t → f t = 0) : total f ts = 0 := by
  refine List.sum_eq_zero_iff_forall_eq_nat.2 fun n hn ↦ ?_
  obtain ⟨t, ht, rfl⟩ := List.mem_map.1 hn
  obtain ⟨i, hi⟩ := List.getElem?_of_mem ht
  exact h i t hi

end Pool

namespace Machine

variable {Op : Type} {Res : Op → Type} {σ Choice Ev τ : Type} (M : Machine Op Res σ Choice Ev)
  (C : Contract Op Res τ) (onEv : Ev → List τ → List τ)

/-- The machine with the contract states of its programs beside the shared state; an event changes
them by `onEv`. -/
def tracked : Machine Op Res (σ × List τ) Choice Ev where
  exec i o c s := (M.exec i o c s.1).map fun x ↦ (x.1, x.2, s.2.modify i fun t ↦ C.next t o x.1)
  env e p := (M.env e ⟨p.threads, p.shared.1⟩).map fun p' ↦
    ⟨p'.threads, p'.shared, onEv e p.shared.2⟩

/-- The pool with contract states. -/
def Tracked (p : Pool Op Res σ) (ts : List τ) : Pool Op Res (σ × List τ) :=
  ⟨p.threads, p.shared, ts⟩

variable {M C onEv}

theorem tracked_exec {i : ℕ} {o : Op} {c : Choice} {s s' : σ × List τ} {r : Res o}
    (h : (M.tracked C onEv).exec i o c s = some (r, s')) :
    M.exec i o c s.1 = some (r, s'.1) ∧ s'.2 = s.2.modify i fun t ↦ C.next t o r := by
  obtain ⟨x, hx, heq⟩ := Option.map_eq_some_iff.1 h
  obtain ⟨rfl, rfl⟩ := Prod.mk.inj heq
  exact ⟨hx, rfl⟩

theorem tracked_env {e : Ev} {p p' : Pool Op Res (σ × List τ)}
    (h : (M.tracked C onEv).env e p = some p') :
    M.env e ⟨p.threads, p.shared.1⟩ = some ⟨p'.threads, p'.shared.1⟩ ∧
      p'.shared.2 = onEv e p.shared.2 := by
  obtain ⟨q, hq, rfl⟩ := Option.map_eq_some_iff.1 h
  exact ⟨hq, rfl⟩

/-- **Tracking constrains nothing**: the runs of a machine are the tracked runs without the contract
states. -/
theorem reach_tracked {p p' : Pool Op Res σ} {ts : List τ} :
    M.Reach .any p p' ↔ ∃ ts', (M.tracked C onEv).Reach .any (Tracked p ts) (Tracked p' ts') := by
  constructor
  · intro h
    induction h with
    | refl => exact ⟨ts, .refl⟩
    | tail _ hs ih =>
      obtain ⟨ts', hr⟩ := ih
      cases hs with
      | @call i o _ c r _ hi _ hx =>
        refine ⟨ts'.modify i fun t ↦ C.next t o r, hr.tail (.call hi trivial (c := c) ?_)⟩
        exact Option.map_eq_some_iff.2 ⟨_, hx, rfl⟩
      | event _ hx =>
        exact ⟨_, hr.tail (.event trivial (Option.map_eq_some_iff.2 ⟨_, hx, rfl⟩))⟩
  · rintro ⟨ts', hr⟩
    have hforget : ∀ q, (M.tracked C onEv).Reach .any (Tracked p ts) q →
        M.Reach .any p ⟨q.threads, q.shared.1⟩ := by
      intro q hq
      induction hq with
      | refl => exact .refl
      | tail _ hs ih =>
        cases hs with
        | call hi _ hx => exact ih.tail (.call hi trivial (tracked_exec hx).1)
        | event _ hx => exact ih.tail (.event trivial (tracked_env hx).1)
    exact hforget _ hr

/-- The contract states that are carried along are those of the contract rule. -/
def Carried (Inv : List τ → σ → Prop) (ts : List τ) (s : σ × List τ) : Prop :=
  s.2 = ts ∧ Inv ts s.1

/-- **The contract rule for tracked runs.** -/
theorem tracked_invariant {G : Guard Op Res (σ × List τ) Choice Ev} {Q : τ → Prop}
    {Inv : List τ → σ → Prop} {p₀ p : Pool Op Res (σ × List τ)}
    (hr : (M.tracked C onEv).Reach G p₀ p)
    (h₀ : Inv p₀.shared.2 p₀.shared.1 ∧ p₀.Meets C Q p₀.shared.2)
    (hcall : ∀ {ts s i t o c r s'}, Inv ts s → ts[i]? = some t → C.allowed t o →
      G.onOp i o c (s, ts) → M.exec i o c s = some (r, s') →
      C.admits t o r ∧ Inv (ts.set i (C.next t o r)) s')
    (hevent : ∀ {ts} {p : Pool Op Res σ} {e p'}, Inv ts p.shared → p.Meets C Q ts →
      G.onEv e (Tracked p ts) → M.env e p = some p' →
      Inv (onEv e ts) p'.shared ∧ p'.Meets C Q (onEv e ts)) :
    Inv p.shared.2 p.shared.1 := by
  obtain ⟨ts, ⟨heq, hinv⟩, -⟩ : ∃ ts, Carried Inv ts p.shared ∧ p.Meets C Q ts := by
    refine invariant hr ⟨_, ⟨rfl, h₀.1⟩, h₀.2⟩ ?_ ?_
    · rintro _ ⟨s, ts⟩ i t o c r s' ⟨rfl, hinv⟩ hi ha hG hx
      obtain ⟨hx, hts⟩ := tracked_exec hx
      obtain ⟨hadmits, hinv'⟩ := hcall hinv hi ha hG hx
      obtain ⟨hlt, heq⟩ := List.getElem?_eq_some_iff.1 hi
      refine ⟨hadmits, ?_, hinv'⟩
      rw [hts, List.modify_eq_set_getElem?, hi]
      rfl
    · rintro _ ⟨threads, s, ts⟩ e p' ⟨rfl, hinv⟩ hm hG hx
      obtain ⟨hx, hts⟩ := tracked_env hx
      obtain ⟨hinv', hm'⟩ := hevent (p := ⟨threads, s⟩) hinv hm hG hx
      exact ⟨_, ⟨hts, hinv'⟩, hm'⟩
  rw [heq]
  exact hinv

end Machine
