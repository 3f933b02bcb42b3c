import ChatNow.Lib.Pool

/-!
# What a program does amid others

A program of a pool finds at each of its calls whatever state the others have left. What it does
itself is told by its **turns**: for each call, what was asked of it and the state before and after
(`Turn`). `Prog.Amid` relates a program to its turns, without a word about what lies between them,
so what is proved of a program amid others holds whatever the others are.

`Machine.Watch` is a run that is looked at from the position of one program. The turns seen there
are those of the program (`Machine.Watch.amid`).
-/

/-- One call: what it was, what the environment decided, and the state before and after. -/
structure Turn (Op σ Choice : Type) where
  op : Op
  choice : Choice
  before : σ
  after : σ

namespace Prog

variable {Op : Type} {Res : Op → Type} {σ Choice α β : Type}
  {exec : (o : Op) → Choice → σ → Option (Res o × σ)}

/-- The program has the given turns and returns `a`. -/
inductive Amid (exec : (o : Op) → Choice → σ → Option (Res o × σ)) :
    Prog Op Res α → List (Turn Op σ Choice) → α → Prop
  | ret (a : α) : Amid exec (ret a) [] a
  | call {o : Op} {k : Res o → Prog Op Res α} {c : Choice} {s s' : σ} {r : Res o} {a : α}
      {tr : List (Turn Op σ Choice)} (hx : exec o c s = some (r, s')) (hk : Amid exec (k r) tr a) :
    Amid exec (call o k) (⟨o, c, s, s'⟩ :: tr) a

/-- A program that makes no further call has returned. -/
theorem eq_ret_of_finished {p : Prog Op Res Unit} (h : p.finished = true) : p = .ret () := by
  cases p with
  | ret a => rfl
  | call o k => cases h

variable {tr : List (Turn Op σ Choice)} {a b : α}

theorem amid_ret : (ret b : Prog Op Res α).Amid exec tr a ↔ tr = [] ∧ a = b := by
  constructor
  · intro h
    cases h
    exact ⟨rfl, rfl⟩
  · rintro ⟨rfl, rfl⟩
    exact .ret _

/-- The turns of a program that begins with a call. -/
theorem amid_call {o : Op} {k : Res o → Prog Op Res α} :
    (call o k).Amid exec tr a ↔ ∃ c s r s' tr', tr = ⟨o, c, s, s'⟩ :: tr' ∧
      exec o c s = some (r, s') ∧ (k r).Amid exec tr' a := by
  constructor
  · intro h
    cases h with
    | call hx hk => exact ⟨_, _, _, _, _, rfl, hx, hk⟩
  · rintro ⟨c, s, r, s', tr', rfl, hx, hk⟩
    exact .call hx hk

/-- The turns of a sequence are those of its halves. -/
theorem amid_bind {p : Prog Op Res β} {f : β → Prog Op Res α} :
    (p >>= f).Amid exec tr a ↔
      ∃ tr₁ b tr₂, tr = tr₁ ++ tr₂ ∧ p.Amid exec tr₁ b ∧ (f b).Amid exec tr₂ a := by
  constructor
  · intro h
    induction p generalizing tr with
    | ret b => exact ⟨[], b, tr, rfl, .ret b, h⟩
    | call o k ih =>
      obtain ⟨c, s, r, s', tr', rfl, hx, hk⟩ := amid_call.1 h
      obtain ⟨tr₁, b, tr₂, rfl, h₁, h₂⟩ := ih r hk
      exact ⟨_, b, tr₂, rfl, .call hx h₁, h₂⟩
  · rintro ⟨tr₁, b, tr₂, rfl, h₁, h₂⟩
    induction h₁ with
    | ret b => exact h₂
    | call hx _ ih => exact .call hx (ih h₂)

end Prog

namespace Machine

variable {Op : Type} {Res : Op → Type} {σ Choice Ev : Type} (M : Machine Op Res σ Choice Ev)

/-- A run, and the turns that the program at position `i` has in it. -/
inductive Watch (i : ℕ) :
    Pool Op Res σ → List (Turn Op σ Choice) → Pool Op Res σ → Prop
  | done (p : Pool Op Res σ) : Watch i p [] p
  | own {p p' : Pool Op Res σ} {o : Op} {k : Res o → Prog Op Res Unit} {c : Choice} {r : Res o}
      {s' : σ} {tr : List (Turn Op σ Choice)} (hi : p.threads[i]? = some (.call o k))
      (hx : M.exec i o c p.shared = some (r, s')) (h : Watch i ⟨p.threads.set i (k r), s'⟩ tr p') :
    Watch i p (⟨o, c, p.shared, s'⟩ :: tr) p'
  | other {p q p' : Pool Op Res σ} {tr : List (Turn Op σ Choice)} (hs : M.Step .any p q)
      (hi : q.threads[i]? = p.threads[i]?) (h : Watch i q tr p') : Watch i p tr p'

variable {M} {i : ℕ} {p p' : Pool Op Res σ} {tr : List (Turn Op σ Choice)}

theorem Watch.reach (h : M.Watch i p tr p') : M.Reach .any p p' := by
  induction h with
  | done p => exact .refl
  | own hi hx _ ih => exact .head (.call hi trivial hx) ih
  | other hs _ _ ih => exact .head hs ih

/-- **What is seen of a program that has ended is what it does amid others.** -/
theorem Watch.amid (h : M.Watch i p tr p') {q : Prog Op Res Unit} (hi : p.threads[i]? = some q)
    (hdone : p'.threads[i]? = some (.ret ())) : q.Amid (M.exec i) tr () := by
  induction h generalizing q with
  | done p =>
    obtain rfl := Option.some.inj (hi.symm.trans hdone)
    exact .ret ()
  | own hcall hx _ ih =>
    obtain rfl := Option.some.inj (hi.symm.trans hcall)
    have hlt := (List.getElem?_eq_some_iff.1 hi).1
    exact .call hx (ih (List.getElem?_set_self hlt) hdone)
  | other _ hsame _ ih => exact ih (hsame.trans hi) hdone

variable (M) in
/-- The turns of a program that moves with the given choices while the others wait. -/
def turns (i : ℕ) :
    List Choice → Pool Op Res σ → Option (List (Turn Op σ Choice) × Pool Op Res σ)
  | [], p => some ([], p)
  | c :: cs, p =>
    match p.threads[i]? with
    | some (.call o k) => (M.exec i o c p.shared).bind fun x ↦
        (turns i cs ⟨p.threads.set i (k x.1), x.2⟩).map fun y ↦ (⟨o, c, p.shared, x.2⟩ :: y.1, y.2)
    | _ => none

theorem Watch.of_turns {cs : List Choice} (h : M.turns i cs p = some (tr, p')) :
    M.Watch i p tr p' := by
  induction cs generalizing p tr with
  | nil =>
    obtain ⟨rfl, rfl⟩ := Prod.mk.inj (Option.some.inj h)
    exact .done _
  | cons c cs ih =>
    simp only [turns] at h
    split at h
    · next o k hi =>
      obtain ⟨⟨r, s'⟩, hx, h⟩ := Option.bind_eq_some_iff.1 h
      obtain ⟨⟨tr', q⟩, hrest, heq⟩ := Option.map_eq_some_iff.1 h
      obtain ⟨rfl, rfl⟩ := Prod.mk.inj heq
      exact .own hi hx (ih hrest)
    · cases h

end Machine
