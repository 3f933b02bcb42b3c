import ChatNow.Lib.Exec
import Mathlib.Data.List.Forall2
import Mathlib.Logic.Relation

/-!
# Pools of programs over a shared state

The concurrent reading of `Prog`: a **pool** is a list of programs and one shared state, a
**machine** gives every operation an atomic effect on that state, and a step lets one program make
its next call, in any order. What is not a call of a program — the arrival of a request, a message
moving through a network, the crash of a process — is an event of the environment, which may change
the state and the list of programs alike.

Everything nondeterministic about a call is carried by a `Choice`, so `Machine.exec` is a function.
Runs are those of the step relation `Machine.Step G`, where the guard `G` names the assumption under
which a statement is made (no fault of a store, no crash in a window). A concrete interleaving is a
list of labels; where the guard is decidable, `Machine.run` evaluates it.

The proof rule is `Machine.invariant`: if every program of a pool meets a contract, it is enough to
show that a global invariant — over the list of contract states and the shared state — survives
each *allowed* call and each event. The text of the programs is not looked at again.
-/

/-- Programs that have been started, with the state they share. A program's position in the list is
its identity. -/
structure Pool (Op : Type) (Res : Op → Type) (σ : Type) where
  /-- What each program has left to do. -/
  threads : List (Prog Op Res Unit)
  /-- The shared state. -/
  shared : σ

/-- The next call of the program at position `i` is `o`. -/
def Pool.Calls {Op : Type} {Res : Op → Type} {σ : Type} (p : Pool Op Res σ) (i : ℕ) (o : Op) :
    Prop :=
  ∃ k, p.threads[i]? = some (.call o k)

/-- The meaning of the operations and of the environment's events. -/
structure Machine (Op : Type) (Res : Op → Type) (σ Choice Ev : Type) where
  /-- The effect of a call by the program at the given position; `none` when it cannot happen. -/
  exec : ℕ → (o : Op) → Choice → σ → Option (Res o × σ)
  /-- The effect of an event. -/
  env : Ev → Pool Op Res σ → Option (Pool Op Res σ)

namespace Machine

variable {Op : Type} {Res : Op → Type} {σ Choice Ev τ : Type} (M : Machine Op Res σ Choice Ev)

/-- An assumption on the steps of a run, read in the state before the step. -/
structure Guard (Op : Type) (Res : Op → Type) (σ Choice Ev : Type) where
  /-- The call is made under the assumption. -/
  onOp : ℕ → Op → Choice → σ → Prop
  /-- The event happens under the assumption. -/
  onEv : Ev → Pool Op Res σ → Prop

/-- One step: some program makes its next call, or an event happens. -/
inductive Step (G : Guard Op Res σ Choice Ev) : Pool Op Res σ → Pool Op Res σ → Prop
  | call {p : Pool Op Res σ} {i : ℕ} {o : Op} {k : Res o → Prog Op Res Unit} {c : Choice}
      {r : Res o} {s' : σ} (hi : p.threads[i]? = some (.call o k)) (hG : G.onOp i o c p.shared)
      (hx : M.exec i o c p.shared = some (r, s')) : Step G p ⟨p.threads.set i (k r), s'⟩
  | event {p p' : Pool Op Res σ} {e : Ev} (hG : G.onEv e p) (hx : M.env e p = some p') : Step G p p'

/-- A run: any number of steps. -/
abbrev Reach (G : Guard Op Res σ Choice Ev) : Pool Op Res σ → Pool Op Res σ → Prop :=
  Relation.ReflTransGen (M.Step G)

/-! ### Evaluating a concrete run -/

/-- What happens next in a concrete run. -/
inductive Label (Choice Ev : Type)
  /-- The program at position `i` makes its next call. -/
  | call (i : ℕ) (c : Choice)
  /-- An event happens. -/
  | event (e : Ev)

section Run

variable (G : Guard Op Res σ Choice Ev) [∀ i o c s, Decidable (G.onOp i o c s)]
  [∀ e p, Decidable (G.onEv e p)]

/-- The step a label names, if it can happen under the guard. -/
def step (p : Pool Op Res σ) : Label Choice Ev → Option (Pool Op Res σ)
  | .call i c =>
    match p.threads[i]? with
    | some (.call o k) =>
      if G.onOp i o c p.shared then
        (M.exec i o c p.shared).map fun x ↦ ⟨p.threads.set i (k x.1), x.2⟩
      else none
    | _ => none
  | .event e => if G.onEv e p then M.env e p else none

/-- The pool after a list of labels. -/
def run (p : Pool Op Res σ) (ls : List (Label Choice Ev)) : Option (Pool Op Res σ) :=
  ls.foldlM (M.step G) p

variable {M G}

theorem step_of_step {p p' : Pool Op Res σ} {l : Label Choice Ev} (h : M.step G p l = some p') :
    M.Step G p p' := by
  cases l with
  | call i c =>
    simp only [step] at h
    split at h
    · next o k hi =>
      split at h
      · next hG =>
        obtain ⟨⟨r, s'⟩, hx, rfl⟩ := Option.map_eq_some_iff.1 h
        exact .call hi hG hx
      · cases h
    · cases h
  | event e =>
    simp only [step] at h
    split at h
    · next hG => exact .event hG h
    · cases h

/-- A concrete run is a run. -/
theorem reach_of_run {p p' : Pool Op Res σ} {ls : List (Label Choice Ev)}
    (h : M.run G p ls = some p') : M.Reach G p p' := by
  induction ls generalizing p with
  | nil =>
    obtain rfl : p = p' := by simpa [run] using h
    exact .refl
  | cons l ls ih =>
    obtain ⟨q, hq, hrest⟩ := Option.bind_eq_some_iff.1 (show (M.step G p l).bind _ = some p' from h)
    exact .head (step_of_step hq) (ih hrest)

variable (M G) in
/-- A concrete run, and what can be decided of the pool it ends in. -/
theorem exists_of_run (p : Pool Op Res σ) (ls : List (Label Choice Ev)) (P : Pool Op Res σ → Prop)
    [DecidablePred P] (h : (M.run G p ls).any (fun p' ↦ P p') = true) :
    ∃ p', M.Reach G p p' ∧ P p' := by
  cases hr : M.run G p ls with
  | none =>
    rw [hr] at h
    cases h
  | some p' =>
    rw [hr] at h
    exact ⟨p', reach_of_run hr, of_decide_eq_true h⟩

end Run

/-- No assumption. -/
def Guard.any : Guard Op Res σ Choice Ev := ⟨fun _ _ _ _ ↦ True, fun _ _ ↦ True⟩

instance (i : ℕ) (o : Op) (c : Choice) (s : σ) :
    Decidable ((Guard.any : Guard Op Res σ Choice Ev).onOp i o c s) := .isTrue trivial

instance (e : Ev) (p : Pool Op Res σ) :
    Decidable ((Guard.any : Guard Op Res σ Choice Ev).onEv e p) := .isTrue trivial

variable {M} in
/-- A program that nobody interrupts runs in the pool as it does alone. -/
theorem reach_of_exec {p : Pool Op Res σ} {i : ℕ} {q : Prog Op Res Unit} {s' : σ}
    (hi : p.threads[i]? = some q) (h : q.Exec (M.exec i) p.shared () s') :
    M.Reach .any p ⟨p.threads.set i (.ret ()), s'⟩ := by
  generalize hs : p.shared = s at h
  generalize ha : () = a at h
  induction h generalizing p with
  | ret a s =>
    obtain ⟨hlt, heq⟩ := List.getElem?_eq_some_iff.1 hi
    have hsame : p.threads.set i (.ret ()) = p.threads := by
      rw [show Prog.ret () = p.threads[i] from heq.symm, List.set_getElem_self]
    rw [hsame, ← hs]
  | @call o k c s s₁ s' r a hx hk ih =>
    have hstep : M.Step .any p ⟨p.threads.set i (k r), s₁⟩ := .call hi trivial (by rw [hs]; exact hx)
    have hlt := (List.getElem?_eq_some_iff.1 hi).1
    have hrest := ih (p := ⟨p.threads.set i (k r), s₁⟩) (List.getElem?_set_self hlt) rfl ha
    rw [List.set_set] at hrest
    exact .head hstep hrest

end Machine

/-! ### Looking up positions

The list of programs, and any list kept beside it, changes at one position or grows at the end. -/

namespace Pool

variable {τ : Type} {ts : List τ} {i j : ℕ} {t u v : τ}

theorem getElem?_set_cases (h : (ts.set i t)[j]? = some u) :
    j = i ∧ u = t ∨ j ≠ i ∧ ts[j]? = some u := by
  rcases eq_or_ne j i with rfl | hji
  · rw [List.getElem?_set_self'] at h
    obtain ⟨-, -, rfl⟩ := Option.map_eq_some_iff.1 h
    exact .inl ⟨rfl, rfl⟩
  · rw [List.getElem?_set_ne hji.symm] at h
    exact .inr ⟨hji, h⟩

theorem getElem?_append_cases (h : (ts ++ [t])[j]? = some u) :
    j = ts.length ∧ u = t ∨ j < ts.length ∧ ts[j]? = some u := by
  rcases Nat.lt_or_ge j ts.length with hj | hj
  · rw [List.getElem?_append_left hj] at h
    exact .inr ⟨hj, h⟩
  · have hlt := (List.getElem?_eq_some_iff.1 h).1
    rw [List.getElem?_append_right hj] at h
    refine .inl ⟨?_, List.mem_singleton.1 (List.mem_of_getElem? h)⟩
    simp only [List.length_append, List.length_singleton] at hlt
    omega

theorem getElem?_of_set (h : (ts.set i t)[j]? = some u) (hne : u ≠ t) : ts[j]? = some u := by
  rcases getElem?_set_cases h with ⟨-, heq⟩ | ⟨-, h⟩
  · exact absurd heq hne
  · exact h

theorem getElem?_of_append (h : (ts ++ [t])[j]? = some u) (hne : u ≠ t) : ts[j]? = some u := by
  rcases getElem?_append_cases h with ⟨-, heq⟩ | ⟨-, h⟩
  · exact absurd heq hne
  · exact h

theorem getElem?_append_of_some (h : ts[j]? = some u) : (ts ++ [t])[j]? = some u := by
  rw [List.getElem?_append_left (List.getElem?_eq_some_iff.1 h).1]
  exact h

theorem getElem?_set_self (hi : ts[i]? = some t) : (ts.set i u)[i]? = some u :=
  List.getElem?_set_self (List.getElem?_eq_some_iff.1 hi).1

/-- A list read off the programs stays when nothing that is read off the changed one does. -/
theorem map_set_eq {α : Type} {f : τ → α} (hi : ts[i]? = some t) (hf : f u = f t) :
    (ts.set i u).map f = ts.map f := by
  obtain ⟨hlt, rfl⟩ := List.getElem?_eq_some_iff.1 hi
  rw [List.map_set, hf, ← List.map_set, List.set_getElem_self]

theorem getElem?_set_of_ne (hi : ts[i]? = some t) (hj : ts[j]? = some u) (hne : t ≠ u) :
    (ts.set i v)[j]? = some u := by
  have hij : i ≠ j := by
    rintro rfl
    exact hne (Option.some.inj (hi.symm.trans hj))
  rw [List.getElem?_set_ne hij]
  exact hj

/-! ### Logs -/

variable {log : List (ℕ × τ)}

/-- What the program at position `i` has put in a log. -/
def entries (i : ℕ) (log : List (ℕ × τ)) : List τ := (log.filter (·.1 = i)).map (·.2)

theorem mem_entries : t ∈ entries i log ↔ (i, t) ∈ log := by
  constructor
  · intro h
    obtain ⟨x, hx, rfl⟩ := List.mem_map.1 h
    obtain ⟨hmem, hi⟩ := List.mem_filter.1 hx
    rwa [← of_decide_eq_true hi]
  · intro h
    exact List.mem_map.2 ⟨(i, t), List.mem_filter.2 ⟨h, decide_eq_true rfl⟩, rfl⟩

theorem entries_cons_self : entries i ((i, t) :: log) = t :: entries i log := by
  rw [entries, List.filter_cons_of_pos (by simp)]
  rfl

theorem entries_cons_ne (h : j ≠ i) : entries j ((i, t) :: log) = entries j log := by
  rw [entries, List.filter_cons_of_neg (by simpa using h.symm)]
  rfl

/-- What one program only has put in a log, and once, is there once. -/
theorem countP_le_one {P : ℕ × τ → Bool}
    (hone : ∀ x ∈ log, ∀ y ∈ log, P x = true → P y = true → x.1 = y.1)
    (hlen : ∀ x ∈ log, P x = true → (entries x.1 log).length ≤ 1) : log.countP P ≤ 1 := by
  by_cases hx : ∃ x ∈ log, P x = true
  · obtain ⟨x, hx, hPx⟩ := hx
    calc log.countP P ≤ log.countP (·.1 = x.1) :=
          List.countP_mono_left fun y hy hPy ↦ decide_eq_true (hone y hy x hx hPy hPx)
      _ = (entries x.1 log).length := by rw [entries, List.length_map, List.countP_eq_length_filter]
      _ ≤ 1 := hlen x hx hPx
  · have hzero : log.countP P = 0 := List.countP_eq_zero.2 fun x hmem hP ↦ hx ⟨x, hmem, hP⟩
    omega

end Pool

/-! ### The contract rule -/

/-- Each program of the pool meets the contract from its own contract state, and ends in a state
that satisfies `Q`. -/
def Pool.Meets {Op : Type} {Res : Op → Type} {σ τ : Type} (C : Contract Op Res τ) (Q : τ → Prop)
    (ts : List τ) (p : Pool Op Res σ) : Prop :=
  List.Forall₂ (fun q t ↦ q.Meets C t fun t' _ ↦ Q t') p.threads ts

namespace Pool

variable {Op : Type} {Res : Op → Type} {σ τ : Type} {C : Contract Op Res τ} {Q : τ → Prop}
  {ts : List τ}

theorem Meets.length_eq {p : Pool Op Res σ} (h : p.Meets C Q ts) :
    p.threads.length = ts.length :=
  List.Forall₂.length_eq h

/-- The contract state of a program of the pool. -/
theorem Meets.get {p : Pool Op Res σ} (h : p.Meets C Q ts) {i : ℕ} {q : Prog Op Res Unit}
    (hi : p.threads[i]? = some q) : ∃ t, ts[i]? = some t ∧ q.Meets C t fun t' _ ↦ Q t' := by
  obtain ⟨hlt, rfl⟩ := List.getElem?_eq_some_iff.1 hi
  have hlt' : i < ts.length := h.length_eq ▸ hlt
  exact ⟨ts[i], List.getElem?_eq_getElem hlt', List.Forall₂.get h hlt hlt'⟩

/-- A program's next call is one that its contract state allows. -/
theorem Meets.calls {p : Pool Op Res σ} (h : p.Meets C Q ts) {i : ℕ} {o : Op} (hi : p.Calls i o) :
    ∃ t, ts[i]? = some t ∧ C.allowed t o := by
  obtain ⟨k, hk⟩ := hi
  obtain ⟨t, ht, hq⟩ := h.get hk
  exact ⟨t, ht, hq.1⟩

/-- When all programs have finished, their contract states satisfy `Q`. -/
theorem Meets.finished {p : Pool Op Res σ} (h : p.Meets C Q ts)
    (hdone : ∀ q ∈ p.threads, q.finished = true) : ∀ t ∈ ts, Q t := by
  intro t ht
  obtain ⟨i, hi⟩ := List.getElem?_of_mem ht
  obtain ⟨hlt, rfl⟩ := List.getElem?_eq_some_iff.1 hi
  have hlt' : i < p.threads.length := h.length_eq ▸ hlt
  have hq := List.Forall₂.get h hlt' hlt
  have hfinished := hdone _ (List.get_mem p.threads ⟨i, hlt'⟩)
  cases hret : p.threads.get ⟨i, hlt'⟩ with
  | ret _ =>
    rw [hret] at hq
    exact hq
  | call o k =>
    rw [hret] at hfinished
    cases hfinished

/-- A new program joins at the end of the list, with a contract state of its own. -/
theorem Meets.spawn {p : Pool Op Res σ} (h : p.Meets C Q ts) {q : Prog Op Res Unit} {t : τ}
    (hq : q.Meets C t fun t' _ ↦ Q t') (s : σ) :
    Pool.Meets C Q (ts ++ [t]) (⟨p.threads ++ [q], s⟩ : Pool Op Res σ) :=
  List.rel_append h (.cons hq .nil)

/-- One program moves on, and its contract state with it. -/
theorem Meets.set {p : Pool Op Res σ} (h : p.Meets C Q ts) (i : ℕ) {q : Prog Op Res Unit} {t : τ}
    (hq : q.Meets C t fun t' _ ↦ Q t') (s : σ) :
    Pool.Meets C Q (ts.set i t) (⟨p.threads.set i q, s⟩ : Pool Op Res σ) := by
  refine List.forall₂_iff_get.2 ⟨by simp [h.length_eq], fun j hj hj' ↦ ?_⟩
  simp only [List.get_eq_getElem, List.getElem_set]
  split
  · exact hq
  · exact List.Forall₂.get h (by simpa using hj) (by simpa using hj')

/-- A program is taken away where it stands. -/
theorem Meets.stop {p : Pool Op Res σ} (h : p.Meets C Q ts) (hQ : ∀ t, Q t) (i : ℕ) (s : σ) :
    Pool.Meets C Q ts (⟨p.threads.set i (.ret ()), s⟩ : Pool Op Res σ) := by
  refine List.forall₂_iff_get.2 ⟨by simp [h.length_eq], fun j hj hj' ↦ ?_⟩
  simp only [List.get_eq_getElem, List.getElem_set]
  split
  · exact hQ _
  · exact List.Forall₂.get h (by simpa using hj) hj'

/-- What has finished may stand anywhere. -/
theorem Meets.forget {p : Pool Op Res σ} (h : p.Meets C Q ts) {t₀ : τ} (h₀ : Q t₀) :
    ∃ ts' : List τ, p.Meets C Q ts' ∧ ∀ (i : ℕ) (t : τ), ts'[i]? = some t → t = t₀ ∨
      ts[i]? = some t ∧ ∃ q : Prog Op Res Unit, p.threads[i]? = some q ∧ q.finished = false := by
  obtain ⟨threads, s⟩ := p
  dsimp only [Pool.Meets] at h ⊢
  induction h with
  | nil => exact ⟨[], .nil, fun _ _ ht ↦ by cases ht⟩
  | @cons q t threads ts hq _ ih =>
    obtain ⟨ts', hmeets, hts'⟩ := ih
    cases q with
    | ret a =>
      refine ⟨t₀ :: ts', .cons h₀ hmeets, fun i t ht ↦ ?_⟩
      cases i with
      | zero => exact .inl (Option.some.inj ht).symm
      | succ i => exact hts' i t ht
    | call o k =>
      refine ⟨t :: ts', .cons hq hmeets, fun i t ht ↦ ?_⟩
      cases i with
      | zero => exact .inr ⟨ht, _, rfl, rfl⟩
      | succ i => exact hts' i t ht

end Pool

namespace Machine

variable {Op : Type} {Res : Op → Type} {σ Choice Ev τ : Type} {M : Machine Op Res σ Choice Ev}
  {G : Guard Op Res σ Choice Ev} {C : Contract Op Res τ} {Q : τ → Prop}

/-- **The contract rule.** An invariant over the contract states and the shared state that survives
every allowed call and every event holds along every run, and so does the contract. -/
theorem invariant {Inv : List τ → σ → Prop} {p₀ p : Pool Op Res σ} (hr : M.Reach G p₀ p)
    (h₀ : ∃ ts, Inv ts p₀.shared ∧ p₀.Meets C Q ts)
    (hcall : ∀ {ts s i t o c r s'}, Inv ts s → ts[i]? = some t → C.allowed t o → G.onOp i o c s →
      M.exec i o c s = some (r, s') → C.admits t o r ∧ Inv (ts.set i (C.next t o r)) s')
    (hevent : ∀ {ts p e p'}, Inv ts p.shared → p.Meets C Q ts → G.onEv e p → M.env e p = some p' →
      ∃ ts', Inv ts' p'.shared ∧ p'.Meets C Q ts') :
    ∃ ts, Inv ts p.shared ∧ p.Meets C Q ts := by
  induction hr with
  | refl => exact h₀
  | tail _ hs ih =>
    obtain ⟨ts, hinv, hmeets⟩ := ih
    cases hs with
    | call hi hG hx =>
      obtain ⟨t, ht, hq⟩ := hmeets.get hi
      obtain ⟨hadm, hinv'⟩ := hcall hinv ht hq.1 hG hx
      exact ⟨_, hinv', hmeets.set _ (hq.2 _ hadm) _⟩
    | event hG hx => exact hevent hinv hmeets hG hx

end Machine
