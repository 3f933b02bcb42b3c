import Mathlib.Data.List.Basic

/-!
# Programs over an operation signature, and contracts for them

The substrate for services written as sequential handlers over shared stores: a **program** is a
finite tree whose nodes are calls to operations of a signature and whose branches are the responses
a call may get. The signature fixes no meaning for its operations, so one program text serves both
a sequential reading (`Prog.Runs`, the paths of the tree) and a concurrent one (`Pool.lean`, where
the calls of many programs interleave).

What a program may do is stated by a **contract** (`Contract`): an automaton whose state is updated
by every call and its response, which says in each state what calls are allowed and what responses
the environment may give. `Prog.Meets C p t Q` — from state `t` the program only makes allowed
calls, and when it returns the pair of final state and value satisfies `Q` — is a weakest
precondition by recursion over the tree. It composes through `>>=` (`Prog.meets_bind`), so a handler
is verified stage by stage and its callers never unfold it.

Nothing here depends on a particular signature, on a store or on a protocol.
-/

/-- A program over the operations `Op`, where a call of `op` is answered by a `Res op`. -/
inductive Prog (Op : Type) (Res : Op → Type) (α : Type) : Type
  /-- The program has finished with value `a`. -/
  | ret (a : α) : Prog Op Res α
  /-- The program calls `op` and continues with the response. -/
  | call (op : Op) (k : Res op → Prog Op Res α) : Prog Op Res α

namespace Prog

variable {Op : Type} {Res : Op → Type} {α β τ : Type}

/-- Sequencing: graft `f` onto the leaves. -/
def bind : Prog Op Res α → (α → Prog Op Res β) → Prog Op Res β
  | ret a, f => f a
  | call op k, f => call op fun r ↦ (k r).bind f

instance : Monad (Prog Op Res) where
  pure := ret
  bind := bind

@[simp] theorem pure_eq_ret (a : α) : (pure a : Prog Op Res α) = ret a := rfl

@[simp] theorem ret_bind (a : α) (f : α → Prog Op Res β) : (ret a >>= f) = f a := rfl

@[simp] theorem call_bind (op : Op) (k : Res op → Prog Op Res α) (f : α → Prog Op Res β) :
    (call op k >>= f) = call op fun r ↦ k r >>= f := rfl

/-- The one-call program. -/
def op (o : Op) : Prog Op Res (Res o) := call o ret

@[simp] theorem op_bind (o : Op) (f : Res o → Prog Op Res β) : (op o >>= f) = call o f := rfl

/-- The program makes no further call. -/
def finished : Prog Op Res α → Bool
  | ret _ => true
  | call _ _ => false

/-- A loop: the program for each element of a list, in order. -/
def each (body : α → Prog Op Res Unit) : List α → Prog Op Res Unit
  | [] => ret ()
  | a :: as => body a >>= fun _ ↦ each body as

/-! ### The paths of a program -/

/-- `p.Runs ok tr a`: answered only with responses that satisfy `ok`, the program can make exactly
the calls of `tr`, with the responses recorded there, and return `a`. -/
inductive Runs (ok : (o : Op) → Res o → Prop) : Prog Op Res α → List (Σ o, Res o) → α → Prop
  | ret (a : α) : Runs ok (ret a) [] a
  | call {o : Op} {k : Res o → Prog Op Res α} {r : Res o} {tr : List (Σ o, Res o)} {a : α}
      (hr : ok o r) (hk : Runs ok (k r) tr a) : Runs ok (call o k) (⟨o, r⟩ :: tr) a

variable {ok : (o : Op) → Res o → Prop}

/-- A path through a sequence is a path through its halves. -/
theorem runs_bind {p : Prog Op Res α} {f : α → Prog Op Res β} {tr : List (Σ o, Res o)} {b : β} :
    (p >>= f).Runs ok tr b ↔
      ∃ tr₁ a tr₂, tr = tr₁ ++ tr₂ ∧ p.Runs ok tr₁ a ∧ (f a).Runs ok tr₂ b := by
  constructor
  · intro h
    induction p generalizing tr with
    | ret a => exact ⟨[], a, tr, rfl, .ret a, h⟩
    | call o k ih =>
      cases h with
      | call hr hk =>
        obtain ⟨tr₁, a, tr₂, rfl, h₁, h₂⟩ := ih _ hk
        exact ⟨_, a, tr₂, rfl, .call hr h₁, h₂⟩
  · rintro ⟨tr₁, a, tr₂, rfl, h₁, h₂⟩
    induction h₁ with
    | ret a => exact h₂
    | call hr _ ih => exact .call hr (ih h₂)

/-- A path through a call starts with the call. -/
theorem runs_op_bind {o : Op} {f : Res o → Prog Op Res β} {tr : List (Σ o, Res o)} {b : β} :
    (op o >>= f).Runs ok tr b ↔ ∃ r tr', tr = ⟨o, r⟩ :: tr' ∧ ok o r ∧ (f r).Runs ok tr' b := by
  constructor
  · intro h
    cases h with
    | call hr hk => exact ⟨_, _, rfl, hr, hk⟩
  · rintro ⟨r, tr', rfl, hr, hk⟩
    exact .call hr hk

theorem runs_ret {a b : α} {tr : List (Σ o, Res o)} :
    (ret a : Prog Op Res α).Runs ok tr b ↔ tr = [] ∧ b = a := by
  constructor
  · intro h
    cases h
    exact ⟨rfl, rfl⟩
  · rintro ⟨rfl, rfl⟩
    exact .ret b

theorem Runs.mono {ok' : (o : Op) → Res o → Prop} {p : Prog Op Res α} {tr : List (Σ o, Res o)}
    {a : α} (h : p.Runs ok tr a) (hok : ∀ o r, ok o r → ok' o r) : p.Runs ok' tr a := by
  induction h with
  | ret a => exact .ret a
  | call hr _ ih => exact .call (hok _ _ hr) ih

/-- What stands on a path is an answer that was allowed. -/
theorem Runs.ok_of_mem {p : Prog Op Res α} {tr : List (Σ o, Res o)} {a : α} (h : p.Runs ok tr a)
    {e : Σ o, Res o} (he : e ∈ tr) : ok e.1 e.2 := by
  induction h with
  | ret a => cases he
  | call hr _ ih =>
    rcases List.mem_cons.1 he with rfl | he
    · exact hr
    · exact ih he

/-! ### The path under a fixed answer to each call -/

/-- The value returned when every call is answered by `ans`. -/
def value (ans : (o : Op) → Res o) : Prog Op Res α → α
  | ret a => a
  | call o k => (k (ans o)).value ans

/-- The calls made when every call is answered by `ans`. -/
def trace (ans : (o : Op) → Res o) : Prog Op Res α → List (Σ o, Res o)
  | ret _ => []
  | call o k => ⟨o, ans o⟩ :: (k (ans o)).trace ans

variable (ans : (o : Op) → Res o)

@[simp] theorem value_ret (a : α) : (ret a : Prog Op Res α).value ans = a := rfl

@[simp] theorem value_call (o : Op) (k : Res o → Prog Op Res α) :
    (call o k).value ans = (k (ans o)).value ans := rfl

@[simp] theorem trace_ret (a : α) : (ret a : Prog Op Res α).trace ans = [] := rfl

@[simp] theorem trace_call (o : Op) (k : Res o → Prog Op Res α) :
    (call o k).trace ans = ⟨o, ans o⟩ :: (k (ans o)).trace ans := rfl

@[simp] theorem value_bind (p : Prog Op Res α) (f : α → Prog Op Res β) :
    (p >>= f).value ans = (f (p.value ans)).value ans := by
  induction p with
  | ret a => rfl
  | call o k ih => exact ih (ans o)

@[simp] theorem trace_bind (p : Prog Op Res α) (f : α → Prog Op Res β) :
    (p >>= f).trace ans = p.trace ans ++ (f (p.value ans)).trace ans := by
  induction p with
  | ret a => rfl
  | call o k ih =>
    show _ :: (k (ans o) >>= f).trace ans = _
    rw [ih]
    rfl

theorem runs_trace (p : Prog Op Res α) :
    p.Runs (fun o r ↦ r = ans o) (p.trace ans) (p.value ans) := by
  induction p with
  | ret a => exact .ret a
  | call o k ih => exact .call rfl (ih (ans o))

/-! ### Contracts -/

end Prog

/-- An automaton over the calls of a program: which calls each state allows, which responses the
environment may give there, and the state after a response. -/
structure Contract (Op : Type) (Res : Op → Type) (τ : Type) where
  /-- The program may call `o` in this state. -/
  allowed : τ → Op → Prop
  /-- The environment may answer `o` so in this state. -/
  admits : τ → (o : Op) → Res o → Prop
  /-- The state after the answer. -/
  next : τ → (o : Op) → Res o → τ

/-- Two contracts at once, each with its own state. -/
def Contract.prod {Op : Type} {Res : Op → Type} {τ υ : Type} (C : Contract Op Res τ)
    (D : Contract Op Res υ) : Contract Op Res (τ × υ) where
  allowed x o := C.allowed x.1 o ∧ D.allowed x.2 o
  admits x o r := C.admits x.1 o r ∧ D.admits x.2 o r
  next x o r := (C.next x.1 o r, D.next x.2 o r)

namespace Prog

variable {Op : Type} {Res : Op → Type} {α β τ : Type} {C : Contract Op Res τ}

/-- From state `t` the program makes only calls that `C` allows and, whatever admitted responses it
gets, returns in a state and with a value that satisfy `Q`. -/
def Meets (C : Contract Op Res τ) : Prog Op Res α → τ → (τ → α → Prop) → Prop
  | ret a, t, Q => Q t a
  | call o k, t, Q =>
    C.allowed t o ∧ ∀ r, C.admits t o r → (k r).Meets C (C.next t o r) Q

@[simp] theorem meets_ret {a : α} {t : τ} {Q : τ → α → Prop} : (ret a).Meets C t Q ↔ Q t a :=
  Iff.rfl

/-- The rule for one call in a sequence. -/
theorem meets_op_bind {o : Op} {f : Res o → Prog Op Res α} {t : τ} {Q : τ → α → Prop} :
    (op o >>= f).Meets C t Q ↔
      C.allowed t o ∧ ∀ r, C.admits t o r → (f r).Meets C (C.next t o r) Q :=
  Iff.rfl

theorem Meets.mono {p : Prog Op Res α} {t : τ} {Q Q' : τ → α → Prop} (h : p.Meets C t Q)
    (hQ : ∀ t a, Q t a → Q' t a) : p.Meets C t Q' := by
  induction p generalizing t with
  | ret a => exact hQ t a h
  | call o k ih => exact ⟨h.1, fun r hr ↦ ih r (h.2 r hr)⟩

/-- **Sequencing**: the first half's postcondition is the second half's precondition. -/
theorem Meets.bind {p : Prog Op Res α} {f : α → Prog Op Res β} {t : τ} {Q : τ → α → Prop}
    {R : τ → β → Prop} (h : p.Meets C t Q) (hf : ∀ t a, Q t a → (f a).Meets C t R) :
    (p >>= f).Meets C t R := by
  induction p generalizing t with
  | ret a => exact hf t a h
  | call o k ih => exact ⟨h.1, fun r hr ↦ ih r (h.2 r hr)⟩

/-- What every answer keeps, a program keeps. -/
theorem Meets.keeps {p : Prog Op Res α} {t : τ} {Q : τ → α → Prop} {I : τ → Prop}
    (h : p.Meets C t Q) (hI : ∀ t o r, I t → I (C.next t o r)) (ht : I t) :
    p.Meets C t fun t a ↦ Q t a ∧ I t := by
  induction p generalizing t with
  | ret a => exact ⟨h, ht⟩
  | call o k ih => exact ⟨h.1, fun r hr ↦ ih r (h.2 r hr) (hI t o r ht)⟩

/-- Where every call is allowed, every program meets the contract. -/
theorem Meets.of_allowed {p : Prog Op Res α} {t : τ} (h : ∀ t o, C.allowed t o) :
    p.Meets C t fun _ _ ↦ True := by
  induction p generalizing t with
  | ret a => trivial
  | call o k ih => exact ⟨h t o, fun r _ ↦ ih r⟩

/-- The rule for loops: what each round keeps, the loop keeps. -/
theorem Meets.each {body : α → Prog Op Res Unit} {I : τ → Prop} {as : List α} {t : τ}
    (hbody : ∀ a t, I t → (body a).Meets C t fun t _ ↦ I t) (h : I t) :
    (Prog.each body as).Meets C t fun t _ ↦ I t := by
  induction as generalizing t with
  | nil => exact h
  | cons a as ih => exact (hbody a t h).bind fun t _ ht ↦ ih ht

/-- A program that meets two contracts meets both at once. -/
theorem Meets.prod {υ : Type} {D : Contract Op Res υ} {p : Prog Op Res α} {t : τ} {u : υ}
    {Q : τ → α → Prop} {R : υ → α → Prop} (h : p.Meets C t Q) (h' : p.Meets D u R) :
    p.Meets (C.prod D) (t, u) fun x a ↦ Q x.1 a ∧ R x.2 a := by
  induction p generalizing t u with
  | ret a => exact ⟨h, h'⟩
  | call o k ih => exact ⟨⟨h.1, h'.1⟩, fun r hr ↦ ih r (h.2 r hr.1) (h'.2 r hr.2)⟩

/-- A contract that simulates another: what a program meets carries over. -/
theorem Meets.map {υ : Type} {D : Contract Op Res υ} {p : Prog Op Res α} {t : τ}
    {Q : τ → α → Prop} (f : τ → υ) (h : p.Meets C t Q)
    (hallowed : ∀ t o, C.allowed t o → D.allowed (f t) o)
    (hadmits : ∀ t o r, D.admits (f t) o r → C.admits t o r)
    (hnext : ∀ t o r, D.next (f t) o r = f (C.next t o r)) :
    p.Meets D (f t) fun t' a ↦ ∃ t₀, t' = f t₀ ∧ Q t₀ a := by
  induction p generalizing t with
  | ret a => exact ⟨t, rfl, h⟩
  | call o k ih =>
    refine ⟨hallowed t o h.1, fun r hr ↦ ?_⟩
    rw [hnext]
    exact ih r (h.2 r (hadmits t o r hr))

/-! ### Operations that a contract does not look at -/

end Prog

/-- The operations with `P` are allowed in every state and leave it. -/
structure Contract.Ignores {Op : Type} {Res : Op → Type} {τ : Type} (C : Contract Op Res τ)
    (P : Op → Prop) : Prop where
  allowed : ∀ t o, P o → C.allowed t o
  next : ∀ t o r, P o → C.next t o r = t

namespace Prog

variable {Op : Type} {Res : Op → Type} {α τ : Type} {C : Contract Op Res τ} {P : Op → Prop}
  {t : τ} {o : Op}

theorem meets_op_of_ignores {Q : τ → Res o → Prop} (h : C.Ignores P) (ho : P o)
    (hQ : ∀ r, Q t r) : (op o).Meets C t Q := by
  refine ⟨h.allowed t o ho, fun r _ ↦ ?_⟩
  rw [h.next t o r ho]
  exact hQ r

/-- The rule for such a call in a sequence. -/
theorem meets_bind_of_ignores {f : Res o → Prog Op Res α} {Q : τ → α → Prop} (h : C.Ignores P)
    (ho : P o) (hf : ∀ r, (f r).Meets C t Q) : (op o >>= f).Meets C t Q := by
  refine meets_op_bind.2 ⟨h.allowed t o ho, fun r _ ↦ ?_⟩
  rw [h.next t o r ho]
  exact hf r

/-! ### Contracts and paths -/

end Prog

namespace Contract

variable {Op : Type} {Res : Op → Type} {α τ : Type} (C : Contract Op Res τ)

/-- The state reached along a path. -/
def after (t : τ) (tr : List (Σ o, Res o)) : τ := tr.foldl (fun t e ↦ C.next t e.1 e.2) t

end Contract

namespace Prog

variable {Op : Type} {Res : Op → Type} {α τ : Type} {C : Contract Op Res τ}
  {ok : (o : Op) → Res o → Prop}

/-- Every call on a path was allowed in the state the path had reached. -/
theorem Meets.allowed_of_runs {p : Prog Op Res α} {t : τ} {Q : τ → α → Prop}
    {tr₁ tr₂ : List (Σ o, Res o)} {o : Op} {r : Res o} {a : α} (h : p.Meets C t Q)
    (hr : p.Runs ok (tr₁ ++ ⟨o, r⟩ :: tr₂) a) (hok : ∀ t o r, ok o r → C.admits t o r) :
    C.allowed (C.after t tr₁) o := by
  induction tr₁ generalizing p t with
  | nil =>
    cases hr with
    | call _ _ => exact h.1
  | cons e tr₁ ih =>
    cases hr with
    | call hr hk => exact ih (h.2 _ (hok _ _ _ hr)) hk

/-- Every call on the path under a fixed answer was allowed somewhere. -/
theorem Meets.allowed_of_mem_trace {p : Prog Op Res α} {t : τ} {Q : τ → α → Prop}
    {ans : (o : Op) → Res o} {o : Op} {r : Res o} (h : p.Meets C t Q)
    (hmem : ⟨o, r⟩ ∈ p.trace ans) (hans : ∀ t o, C.admits t o (ans o)) :
    ∃ t', C.allowed t' o := by
  obtain ⟨tr₁, tr₂, htr⟩ := List.append_of_mem hmem
  have hr := runs_trace ans p
  rw [htr] at hr
  refine ⟨_, h.allowed_of_runs hr ?_⟩
  rintro t o _ rfl
  exact hans t o

end Prog
