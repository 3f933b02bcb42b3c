import ChatNow.Lib.Exec

/-!
# Operations that are programs

A signature with a contract is an interface. A program over it runs over another signature as soon
as each operation is a program there (`Prog.implement`), and it keeps what it meets: if the program
of every operation that the contract allows answers as the contract admits, the whole program meets
over the implementation what it meets over the interface (`Meets.implement`).

An operation may be called many times, and its program begins anew with each call, whatever the
calls before it have left in hand. A contract that speaks of one program from its first state is
made one for that by following all the beginnings at once (`Contract.restart`).
-/

/-- The contract of programs that may begin anew from `t₀` at any time: what it allows to one of the
beginnings. -/
def Contract.restart {Op : Type} {Res : Op → Type} {τ : Type} (C : Contract Op Res τ) (t₀ : τ) :
    Contract Op Res (List τ) where
  allowed ts o := ∃ t ∈ ts, C.allowed t o
  admits ts o r := ∀ t ∈ ts, C.admits t o r
  next ts o r := t₀ :: ts.map fun t ↦ C.next t o r

namespace Prog

variable {Op Op' : Type} {Res : Op → Type} {Res' : Op' → Type} {α τ υ : Type}

/-- The program with a program in the place of each operation. -/
def implement (f : (o : Op) → Prog Op' Res' (Res o)) : Prog Op Res α → Prog Op' Res' α
  | ret a => ret a
  | call o k => f o >>= fun r ↦ (k r).implement f

/-- **The rule for implementations.** The relation says which states of the contract of the
implementation stand for which states of the interface. -/
theorem Meets.implement {f : (o : Op) → Prog Op' Res' (Res o)} {C : Contract Op Res τ}
    {D : Contract Op' Res' υ} (R : τ → υ → Prop)
    (hop : ∀ t u o, R t u → C.allowed t o →
      (f o).Meets D u fun u' r ↦ C.admits t o r ∧ R (C.next t o r) u')
    {p : Prog Op Res α} {t : τ} {u : υ} {Q : τ → α → Prop} (h : p.Meets C t Q) (hR : R t u) :
    (p.implement f).Meets D u fun u' a ↦ ∃ t', R t' u' ∧ Q t' a := by
  induction p generalizing t u with
  | ret a => exact ⟨t, hR, h⟩
  | call o k ih =>
    refine (hop t u o hR h.1).bind fun u' r hr ↦ ?_
    exact ih r (h.2 r hr.1) hr.2

/-- A program that begins at one of the states. -/
theorem Meets.restart {C : Contract Op Res τ} {p : Prog Op Res α} {t t₀ : τ} {ts : List τ}
    {Q : τ → α → Prop} (h : p.Meets C t Q) (ht : t ∈ ts) :
    p.Meets (C.restart t₀) ts fun ts' a ↦ ∃ t' ∈ ts', Q t' a := by
  induction p generalizing t ts with
  | ret a => exact ⟨t, ht, h⟩
  | call o k ih =>
    refine ⟨⟨t, ht, h.1⟩, fun r hr ↦ ih r (h.2 r (hr t ht)) ?_⟩
    exact List.mem_cons_of_mem _ (List.mem_map_of_mem ht)

/-- The next program may begin where this one has ended. -/
theorem Meets.restart_again {C : Contract Op Res τ} {p : Prog Op Res α} {t₀ : τ} {ts : List τ}
    {Q : τ → α → Prop} (h : p.Meets C t₀ Q) (ht : t₀ ∈ ts) :
    p.Meets (C.restart t₀) ts fun ts' a ↦ (∃ t' ∈ ts', Q t' a) ∧ t₀ ∈ ts' :=
  (h.restart ht).keeps (fun _ _ _ _ ↦ List.mem_cons_self) ht

end Prog
