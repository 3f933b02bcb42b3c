import ChatNow.Lib.Pool

/-!
# Machines that keep a record

A property of who did what, and when, is about the calls of a run and not about the state it ends
in. `Machine.recorded` runs a machine and writes every call down, with the program that made it and
the answer it got. Recording changes nothing about the machine (`reach_recorded`), and the contract
rule reads as before, with the record as a third argument of the invariant (`recorded_invariant`).
-/

namespace Machine

variable {Op : Type} {Res : Op → Type} {σ Choice Ev τ : Type} (M : Machine Op Res σ Choice Ev)

/-- The calls of a run with their answers, each by the position of its program. -/
abbrev Record (Op : Type) (Res : Op → Type) : Type := List (ℕ × Σ o, Res o)

/-- The machine with a record of its calls beside the shared state. -/
def recorded : Machine Op Res (σ × Record Op Res) Choice Ev where
  exec i o c s := (M.exec i o c s.1).map fun x ↦ (x.1, x.2, s.2 ++ [(i, ⟨o, x.1⟩)])
  env e p := (M.env e ⟨p.threads, p.shared.1⟩).map fun p' ↦ ⟨p'.threads, p'.shared, p.shared.2⟩

/-- The pool with a record. -/
def Recorded (p : Pool Op Res σ) (log : Record Op Res) : Pool Op Res (σ × Record Op Res) :=
  ⟨p.threads, p.shared, log⟩

/-- The calls of one program. -/
def Record.of (i : ℕ) (log : Record Op Res) : List (Σ o, Res o) :=
  (log.filter fun e ↦ e.1 = i).map (·.2)

variable {M}

theorem recorded_exec {i : ℕ} {o : Op} {c : Choice} {s s' : σ × Record Op Res} {r : Res o}
    (h : M.recorded.exec i o c s = some (r, s')) :
    M.exec i o c s.1 = some (r, s'.1) ∧ s'.2 = s.2 ++ [(i, ⟨o, r⟩)] := by
  obtain ⟨x, hx, heq⟩ := Option.map_eq_some_iff.1 h
  obtain ⟨rfl, rfl⟩ := Prod.mk.inj heq
  exact ⟨hx, rfl⟩

theorem recorded_env {e : Ev} {p p' : Pool Op Res (σ × Record Op Res)}
    (h : M.recorded.env e p = some p') :
    M.env e ⟨p.threads, p.shared.1⟩ = some ⟨p'.threads, p'.shared.1⟩ ∧
      p'.shared.2 = p.shared.2 := by
  obtain ⟨q, hq, rfl⟩ := Option.map_eq_some_iff.1 h
  exact ⟨hq, rfl⟩

/-- **Recording constrains nothing**: the runs of a machine are the recorded runs without their
record. -/
theorem reach_recorded {p p' : Pool Op Res σ} {log : Record Op Res} :
    M.Reach .any p p' ↔ ∃ log', M.recorded.Reach .any (Recorded p log) (Recorded p' log') := by
  constructor
  · intro h
    induction h with
    | refl => exact ⟨log, .refl⟩
    | tail _ hs ih =>
      obtain ⟨log', hr⟩ := ih
      cases hs with
      | @call i o _ c r _ hi _ hx =>
        refine ⟨log' ++ [(i, ⟨o, r⟩)], hr.tail (.call hi trivial (c := c) ?_)⟩
        exact Option.map_eq_some_iff.2 ⟨_, hx, rfl⟩
      | event _ hx =>
        exact ⟨log', hr.tail (.event trivial (Option.map_eq_some_iff.2 ⟨_, hx, rfl⟩))⟩
  · rintro ⟨log', hr⟩
    have hforget : ∀ q, M.recorded.Reach .any (Recorded p log) q →
        M.Reach .any p ⟨q.threads, q.shared.1⟩ := by
      intro q hq
      induction hq with
      | refl => exact .refl
      | tail _ hs ih =>
        cases hs with
        | call hi _ hx => exact ih.tail (.call hi trivial (recorded_exec hx).1)
        | event _ hx => exact ih.tail (.event trivial (recorded_env hx).1)
    exact hforget _ hr

/-- The invariant of a state and a record, of the pair. -/
def Paired (Inv : List τ → σ → Record Op Res → Prop) (ts : List τ) (s : σ × Record Op Res) : Prop :=
  Inv ts s.1 s.2

/-- **The contract rule for recorded runs.** -/
theorem recorded_invariant {C : Contract Op Res τ} {Q : τ → Prop}
    {Inv : List τ → σ → Record Op Res → Prop} {p₀ p : Pool Op Res (σ × Record Op Res)}
    (hr : M.recorded.Reach .any p₀ p)
    (h₀ : ∃ ts, Inv ts p₀.shared.1 p₀.shared.2 ∧ p₀.Meets C Q ts)
    (hcall : ∀ {ts s log i t o c r s'}, Inv ts s log → ts[i]? = some t → C.allowed t o →
      M.exec i o c s = some (r, s') →
      C.admits t o r ∧ Inv (ts.set i (C.next t o r)) s' (log ++ [(i, ⟨o, r⟩)]))
    (hevent : ∀ {ts p log e p'}, Inv ts p.shared log → p.Meets C Q ts → M.env e p = some p' →
      ∃ ts', Inv ts' p'.shared log ∧ p'.Meets C Q ts') :
    ∃ ts, Inv ts p.shared.1 p.shared.2 ∧ p.Meets C Q ts := by
  show ∃ ts, Paired Inv ts p.shared ∧ p.Meets C Q ts
  refine invariant hr h₀ ?_ ?_
  · intro ts s i t o c r s' hinv hi ha _ hx
    obtain ⟨hx, hlog⟩ := recorded_exec hx
    rw [Paired, hlog]
    exact hcall hinv hi ha hx
  · intro ts p e p' hinv hm _ hx
    obtain ⟨hx, hlog⟩ := recorded_env hx
    simp only [Paired, hlog]
    exact hevent (p := ⟨p.threads, p.shared.1⟩) hinv hm hx

/-! ### The calls of one program -/

namespace Record

variable {i j : ℕ} {log : Record Op Res} {e : Σ o, Res o}

@[simp] theorem of_nil : Record.of i ([] : Record Op Res) = [] := rfl

@[simp] theorem of_append_self : Record.of i (log ++ [(i, e)]) = Record.of i log ++ [e] := by
  simp [Record.of]

theorem of_append_ne (h : j ≠ i) : Record.of i (log ++ [(j, e)]) = Record.of i log := by
  simp [Record.of, h]

theorem mem_of : e ∈ Record.of i log ↔ (i, e) ∈ log := by
  simp [Record.of]

theorem of_eq_nil (h : ∀ x ∈ log, x.1 ≠ i) : Record.of i log = [] :=
  List.eq_nil_iff_forall_not_mem.2 fun _ he ↦ h _ (mem_of.1 he) rfl

end Record

end Machine
