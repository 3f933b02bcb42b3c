import ChatNow.Lib.Prog

/-!
# One program over a state

The sequential reading of `Prog` over a state: an operation has an effect, chosen by the environment
among those that it can have, and a program that nobody interrupts runs from one state to another
(`Prog.Exec`). A run with given choices can be computed (`Prog.run`), and so can one where there is
no choice (`Prog.eval`).

The proof rule is `Prog.Meets.along`: if a program meets a contract, it is enough to look at the
operations that the contract allows to see what a run leaves alone. The text of the program is not
looked at again.

`Prog.lift` puts a program over one signature into a larger one.
-/

namespace Prog

variable {Op : Type} {Res : Op → Type} {σ Choice α β τ : Type}

/-- The program runs from the first state to the second one and returns `a`. -/
inductive Exec (exec : (o : Op) → Choice → σ → Option (Res o × σ)) :
    Prog Op Res α → σ → α → σ → Prop
  | ret (a : α) (s : σ) : Exec exec (ret a) s a s
  | call {o : Op} {k : Res o → Prog Op Res α} {c : Choice} {s s₁ s' : σ} {r : Res o} {a : α}
      (hx : exec o c s = some (r, s₁)) (hk : Exec exec (k r) s₁ a s') : Exec exec (call o k) s a s'

variable {exec : (o : Op) → Choice → σ → Option (Res o × σ)}

/-- Runs follow one another. -/
theorem Exec.bind {p : Prog Op Res α} {f : α → Prog Op Res β} {s s₁ s' : σ} {a : α} {b : β}
    (h : p.Exec exec s a s₁) (hf : (f a).Exec exec s₁ b s') : (p >>= f).Exec exec s b s' := by
  induction h with
  | ret a s => exact hf
  | call hx _ ih => exact .call hx (ih hf)

/-- **The contract rule.** What every allowed operation does to the state, a run does: it keeps
`I`, and relates its ends by `R`. -/
theorem Meets.along {C : Contract Op Res τ} {p : Prog Op Res α} {t : τ} {Q : τ → α → Prop}
    {I : σ → Prop} {R : σ → σ → Prop} {s s' : σ} {a : α} (h : p.Meets C t Q)
    (hx : p.Exec exec s a s') (hI : I s) (hrefl : ∀ s, R s s)
    (htrans : ∀ {s₁ s₂ s₃}, R s₁ s₂ → R s₂ s₃ → R s₁ s₃)
    (hstep : ∀ {t o c s r s'}, C.allowed t o → I s → exec o c s = some (r, s') →
      C.admits t o r ∧ I s' ∧ R s s') : I s' ∧ R s s' := by
  induction hx generalizing t with
  | ret a s => exact ⟨hI, hrefl s⟩
  | call hx _ ih =>
    obtain ⟨hadm, hI', hR⟩ := hstep h.1 hI hx
    obtain ⟨hI'', hR'⟩ := ih (h.2 _ hadm) hI'
    exact ⟨hI'', htrans hR hR'⟩

/-- The run with the given choices, if they are as many as it needs. -/
def run (exec : (o : Op) → Choice → σ → Option (Res o × σ)) :
    Prog Op Res α → List Choice → σ → Option (α × σ)
  | ret a, [], s => some (a, s)
  | ret _, _ :: _, _ => none
  | call _ _, [], _ => none
  | call o k, c :: cs, s => (exec o c s).bind fun x ↦ (k x.1).run exec cs x.2

theorem run_ret {b a : α} {cs : List Choice} {s s' : σ}
    (h : (ret b : Prog Op Res α).run exec cs s = some (a, s')) : a = b ∧ s' = s := by
  cases cs with
  | nil =>
    obtain ⟨rfl, rfl⟩ := Prod.mk.inj (Option.some.inj h)
    exact ⟨rfl, rfl⟩
  | cons c cs => cases h

/-- A run of a call begins with the choice for it. -/
theorem run_call {o : Op} {k : Res o → Prog Op Res α} {cs : List Choice} {s s' : σ} {a : α}
    (h : (call o k).run exec cs s = some (a, s')) :
    ∃ c cs' r s₁, cs = c :: cs' ∧ exec o c s = some (r, s₁) ∧
      (k r).run exec cs' s₁ = some (a, s') := by
  cases cs with
  | nil => cases h
  | cons c cs =>
    obtain ⟨⟨r, s₁⟩, hx, hk⟩ := Option.bind_eq_some_iff.1 h
    exact ⟨c, cs, r, s₁, rfl, hx, hk⟩

theorem exec_of_run {p : Prog Op Res α} {cs : List Choice} {s s' : σ} {a : α}
    (h : p.run exec cs s = some (a, s')) : p.Exec exec s a s' := by
  induction p generalizing cs s with
  | ret b =>
    cases cs with
    | nil =>
      obtain ⟨rfl, rfl⟩ := Prod.mk.inj (Option.some.inj h)
      exact .ret _ _
    | cons c cs => cases h
  | call o k ih =>
    cases cs with
    | nil => cases h
    | cons c cs =>
      obtain ⟨⟨r, s₁⟩, hx, hk⟩ := Option.bind_eq_some_iff.1 h
      exact .call hx (ih r hk)

/-- A run has the choices that were made in it. -/
theorem Exec.exists_run {p : Prog Op Res α} {s s' : σ} {a : α} (h : p.Exec exec s a s') :
    ∃ cs, p.run exec cs s = some (a, s') := by
  induction h with
  | ret a s => exact ⟨[], rfl⟩
  | @call o k c s s₁ s' r a hx _ ih =>
    obtain ⟨cs, hcs⟩ := ih
    refine ⟨c :: cs, ?_⟩
    rw [run, hx]
    exact hcs

/-- The run where nothing is left to the environment. -/
def eval (exec : (o : Op) → σ → Option (Res o × σ)) : Prog Op Res α → σ → Option (α × σ)
  | ret a, s => some (a, s)
  | call o k, s => (exec o s).bind fun x ↦ (k x.1).eval exec x.2

/-- A call that has an answer. -/
theorem eval_call {exec : (o : Op) → σ → Option (Res o × σ)} {o : Op} {k : Res o → Prog Op Res α}
    {s s' : σ} {r : Res o} (h : exec o s = some (r, s')) :
    (call o k).eval exec s = (k r).eval exec s' := by
  rw [eval, h]
  rfl

/-! ### Larger signatures -/

variable {Op' : Type} {Res' : Op' → Type}

/-- A program whose operations are some of those of another signature. -/
def lift (f : Op → Op') : Prog Op (fun o ↦ Res' (f o)) α → Prog Op' Res' α
  | ret a => ret a
  | call o k => call (f o) fun r ↦ (k r).lift f

/-- A lifted program runs as it does alone. -/
theorem run_lift {f : Op → Op'} {exec : (o : Op') → Choice → σ → Option (Res' o × σ)}
    {p : Prog Op (fun o ↦ Res' (f o)) α} {cs : List Choice} {s : σ} :
    (p.lift f).run exec cs s = p.run (fun o ↦ exec (f o)) cs s := by
  induction p generalizing cs s with
  | ret a => cases cs <;> rfl
  | call o k ih =>
    cases cs with
    | nil => rfl
    | cons c cs =>
      show (exec (f o) c s).bind _ = (exec (f o) c s).bind _
      exact congrArg _ (funext fun x ↦ ih x.1)

/-- The paths of a lifted program are those that it has alone. -/
theorem runs_lift {f : Op → Op'} {ok : (o : Op') → Res' o → Prop}
    {p : Prog Op (fun o ↦ Res' (f o)) α} {tr : List (Σ o, Res' o)} {a : α} :
    (p.lift f).Runs ok tr a ↔ ∃ tr' : List (Σ o, Res' (f o)),
      tr = tr'.map (fun e ↦ ⟨f e.1, e.2⟩) ∧ p.Runs (fun o ↦ ok (f o)) tr' a := by
  constructor
  · intro h
    induction p generalizing tr with
    | ret b =>
      obtain ⟨rfl, rfl⟩ := runs_ret.1 h
      exact ⟨[], rfl, .ret _⟩
    | call o k ih =>
      cases h with
      | call hr hk =>
        obtain ⟨tr', rfl, hk'⟩ := ih _ hk
        exact ⟨⟨o, _⟩ :: tr', rfl, .call hr hk'⟩
  · rintro ⟨tr', rfl, h⟩
    induction h with
    | ret a => exact .ret a
    | call hr _ ih => exact .call hr ih

end Prog

/-- The contract that allows some operations and forgets all answers. -/
def Contract.only {Op : Type} (Res : Op → Type) (P : Op → Prop) : Contract Op Res Unit where
  allowed _ o := P o
  admits _ _ _ := True
  next _ _ _ := ()

/-- A program may call whatever is allowed always. -/
theorem Prog.meets_only {Op : Type} {Res : Op → Type} {α : Type} {P : Op → Prop} (hP : ∀ o, P o)
    (p : Prog Op Res α) : p.Meets (Contract.only Res P) () fun _ _ ↦ True :=
  .of_allowed fun _ o ↦ hP o

/-- The part of a contract that is about some of the operations. -/
def Contract.comap {Op Op' : Type} {Res' : Op' → Type} {τ : Type} (f : Op → Op')
    (C : Contract Op' Res' τ) : Contract Op (fun o ↦ Res' (f o)) τ where
  allowed t o := C.allowed t (f o)
  admits t o r := C.admits t (f o) r
  next t o r := C.next t (f o) r

/-- A lifted program meets what it meets. -/
theorem Prog.Meets.lift {Op Op' : Type} {Res' : Op' → Type} {α τ : Type} {f : Op → Op'}
    {C : Contract Op' Res' τ} {p : Prog Op (fun o ↦ Res' (f o)) α} {t : τ} {Q : τ → α → Prop}
    (h : p.Meets (C.comap f) t Q) : (p.lift f).Meets C t Q := by
  induction p generalizing t with
  | ret a => exact h
  | call o k ih => exact ⟨h.1, fun r hr ↦ ih r (h.2 r hr)⟩
