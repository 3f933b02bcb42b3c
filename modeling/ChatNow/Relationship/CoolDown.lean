import ChatNow.Relationship.Pending

/-!
# Asking again after a rejection

Any number of calls of `SendFriendRequest`, `HandleFriendRequest` and `RemoveFriend` as threads over
the tables, as in `Pending.lean`, with the time: what a call reads from the clock is never before
what another call has read. The times between two steps are arbitrary.

After a rejection the user is to wait for 72 hours (`WaitState.CooledDown`). `SendFriendRequest`
looks at the latest request of the pair and, when that one is REJECTED, at the time since its
`create_time`; the time of the rejection is `handle_time`, which `update_status` writes and nobody
reads. A request that lay pending for three days can be followed by the next one right after its
rejection (`asks_right_after_rejection`).

`cool_down_kept` is about the runs in which a call that comes too early finds what its check looks
for: when it looks for the latest request, the one that sorts last was rejected and the query does
not fail; when it reads the clock, that request is less than 72 hours old; and no rejection has come
between its query and its insert. There the check does what it is for.
-/

namespace ChatNow

open Prog FriendOp

/-! ### The machine -/

/-- The requests are from one user to the same peer. -/
def FriendApply.SamePair (a x : FriendApply) : Prop := x.user_id = a.user_id ∧ x.peer_id = a.peer_id

/-- The request was handled 72 hours ago, or before. -/
def FriendApply.Over (x : FriendApply) (now : ℤ) : Prop :=
  x.handle_time.any (· + hours 72 ≤ now) = true

/-- The request was created 72 hours after the given one was handled, or later. -/
def FriendApply.Waited (a x : FriendApply) : Prop := x.Over a.create_time

instance (a x : FriendApply) : Decidable (a.SamePair x) := inferInstanceAs (Decidable (_ ∧ _))

instance (x : FriendApply) (now : ℤ) : Decidable (x.Over now) :=
  inferInstanceAs (Decidable (_ = true))

instance (a x : FriendApply) : Decidable (a.Waited x) := inferInstanceAs (Decidable (x.Over _))

/-- What there was when a thread looked for the latest request of a pair. -/
structure Look where
  thread : ℕ
  user_id : String
  peer_id : String
  time : ℤ
  rows : List FriendApply
  rejections : List FriendApply

namespace Look

variable (y : Look)

/-- The requests that may sort last. -/
def latest : List FriendApply :=
  y.rows.filter fun a ↦ ∀ b ∈ y.rows, b.create_time ≤ a.create_time

/-- A rejection of the pair is less than 72 hours old. -/
def Cooling (now : ℤ) : Prop :=
  ∃ x ∈ y.rejections, x.user_id = y.user_id ∧ x.peer_id = y.peer_id ∧ ¬x.Over now

/-- The request that sorts last was rejected. -/
def Refused : Prop := y.latest ≠ [] ∧ ∀ a ∈ y.latest, a.status = .REJECTED

/-- The request that sorts last is less than 72 hours old. -/
def Young (now : ℤ) : Prop := ∀ a ∈ y.latest, now < a.create_time + hours 72

instance (now : ℤ) : Decidable (y.Cooling now) :=
  inferInstanceAs (Decidable (∃ x ∈ y.rejections, _ ∧ _ ∧ _))

instance : Decidable y.Refused := inferInstanceAs (Decidable (_ ∧ _))

instance (now : ℤ) : Decidable (y.Young now) := inferInstanceAs (Decidable (∀ a ∈ y.latest, _))

end Look

/-- The tables with the time, and what has happened to requests. -/
structure WaitState where
  apply : ApplyState := {}
  /-- What was last read from the clock. -/
  now : ℤ
  /-- The requests that have been rejected, as they were written. -/
  rejections : List FriendApply := []
  /-- What there was when threads looked for the latest request. -/
  looks : List Look := []
  /-- The requests that have been recorded, each with the rejections before it. -/
  sent : List (FriendApply × List FriendApply) := []

namespace WaitState

/-- The tables as they are, at some time. -/
def start (tables : RelState) (now : ℤ) : WaitState where
  apply := { tables }
  now := now
  rejections := tables.applies.rows.filter (·.status = .REJECTED)

variable (s : WaitState)

/-- The clock does not go back. -/
def onTime : FriendOp → ApplyChoice → Bool
  | .handling .clock, c => decide (s.now ≤ c.now)
  | _, _ => true

/-- What there is when the thread looks for the latest request of the pair. -/
def look (i : ℕ) (uid pid : String) : Look where
  thread := i
  user_id := uid
  peer_id := pid
  time := s.now
  rows := s.apply.tables.appliesOf uid pid
  rejections := s.rejections

/-- What is noted of a call by thread `i`. -/
def note (i : ℕ) : (o : FriendOp) → o.Res → ApplyChoice → WaitState
  | .handling .clock, now, _ => { s with now }
  | .handling (.writeApply r), _, c =>
    if c.acts = true ∧ (s.apply.tables.applies.find r.event_id).isSome ∧ r.status = .REJECTED then
      { s with rejections := r :: s.rejections }
    else s
  | .select_latest uid pid, _, _ => { s with looks := s.look i uid pid :: s.looks }
  | .insertApply ev, _, c =>
    if c.acts = true ∧ (s.apply.tables.applies.insert ev).isSome then
      { s with sent := (ev, s.rejections) :: s.sent }
    else s
  | _, _, _ => s

/-- The effect of a call by thread `i`. -/
def exec (i : ℕ) (o : FriendOp) (c : ApplyChoice) (s : WaitState) : Option (o.Res × WaitState) :=
  if s.onTime o c then
    (s.apply.exec i o c).map fun x ↦ (x.1, { s.note i o x.1 c with apply := x.2 })
  else none

/-- Whoever has been rejected has waited for 72 hours before asking again. -/
def CooledDown : Prop := ∀ y ∈ s.sent, ∀ x ∈ y.2, y.1.SamePair x → y.1.Waited x

instance : Decidable s.CooledDown :=
  inferInstanceAs (Decidable (∀ y ∈ s.sent, ∀ x ∈ y.2, y.1.SamePair x → y.1.Waited x))

end WaitState

abbrev WaitPool := Pool FriendOp FriendOp.Res WaitState

/-- The effect of an event. -/
def WaitState.env : ApplyEv → WaitPool → Option WaitPool
  | .call c, p => some ⟨p.threads ++ [c.text], p.shared⟩
  | .crash i, p => some ⟨p.threads.set i (.ret ()), p.shared⟩

/-- The relationship service in time. -/
def waitService : Machine FriendOp FriendOp.Res WaitState ApplyChoice ApplyEv :=
  ⟨WaitState.exec, WaitState.env⟩

/-- A call that looks for the latest request while a rejection of the pair is less than 72 hours old
gets an answer, and the request that sorts last was rejected; it reads the clock while that request
is less than 72 hours old; and it records no request when a rejection that is less than 72 hours old
has come since. -/
def refusalInSight : Machine.Guard FriendOp FriendOp.Res WaitState ApplyChoice ApplyEv where
  onOp i o c s :=
    match o with
    | .select_latest uid pid => (s.look i uid pid).Cooling s.now →
        c.fault = false ∧ (s.look i uid pid).Refused
    | .handling .clock => ∀ y ∈ s.looks, y.thread = i → y.Cooling c.now → y.Young c.now
    | .insertApply ev => c.acts = true → ∀ x ∈ s.rejections, ev.SamePair x → ¬ev.Waited x →
        ∀ y ∈ s.looks, y.thread = i → x ∈ y.rejections
    | _ => True
  onEv _ _ := True

/-! ### The contract of a call -/

/-- How far a call has come. -/
inductive WaitPhase
  | idle
  /-- It was shown the latest request of the pair. -/
  | shown (uid pid : String) (last : Option FriendApply)
  /-- It has read the clock since. -/
  | timed (uid pid : String) (last : Option FriendApply) (now : ℤ)
  | closed

/-- The clock has been read. -/
def WaitPhase.tick (now : ℤ) : WaitPhase → WaitPhase
  | shown uid pid last => timed uid pid last now
  | timed uid pid last _ => timed uid pid last now
  | t => t

/-- The call has read no later time. -/
def WaitPhase.Before (now : ℤ) : WaitPhase → Prop
  | timed _ _ _ before => before ≤ now
  | _ => True

/-- A request that was rejected is 72 hours old at the given time. -/
def Due (last : Option FriendApply) (now : ℤ) : Prop :=
  ∀ x, last = some x → x.status = .REJECTED → x.create_time + hours 72 ≤ now

/-- What a call may do. -/
def waitContract : Contract FriendOp FriendOp.Res WaitPhase where
  allowed t o :=
    match o with
    | .select_latest _ _ => t = .idle
    | .insertApply ev =>
      ∃ last, t = .timed ev.user_id ev.peer_id last ev.create_time ∧ Due last ev.create_time
    | _ => True
  admits t o r :=
    match o, r with
    | .handling .clock, now => t.Before now
    | _, _ => True
  next t o r :=
    match o, r with
    | .handling .clock, now => t.tick now
    | .select_latest uid pid, last => .shown uid pid last
    | .insertApply _, _ => .closed
    | _, _ => t

section Meets

variable {uid pid : String} {last : Option FriendApply} {t : WaitPhase}

/-- The call may go on: it has seen that the latest request was not rejected, or when. -/
inductive Passed (uid pid : String) (last : Option FriendApply) : WaitPhase → Prop
  | unrejected (h : ∀ x, last = some x → x.status ≠ .REJECTED) :
    Passed uid pid last (.shown uid pid last)
  | due {now : ℤ} (h : Due last now) : Passed uid pid last (.timed uid pid last now)

theorem Due.mono {now now' : ℤ} (h : Due last now) (hle : now ≤ now') : Due last now' :=
  fun x hx hst ↦ Int.le_trans (h x hx hst) hle

/-- What has passed is due at every later reading of the clock. -/
theorem Passed.tick {now : ℤ} (h : Passed uid pid last t) (hadm : t.Before now) :
    t.tick now = .timed uid pid last now ∧ Due last now := by
  cases h with
  | unrejected h => exact ⟨rfl, fun x hx hst ↦ absurd hst (h x hx)⟩
  | due h => exact ⟨rfl, h.mono hadm⟩

/-- The check lets a call pass that is not early. -/
theorem rejected_lately_passes :
    (rejected_lately last).Meets waitContract (.shown uid pid last) fun t lately ↦
      lately = false → Passed uid pid last t := by
  cases last with
  | none => exact fun _ ↦ .unrejected fun x hx ↦ absurd hx.symm (Option.some_ne_none x)
  | some a =>
    rw [rejected_lately]
    split
    · next hrej =>
      refine meets_op_bind.2 ⟨trivial, fun (now : ℤ) _ hlate ↦ .due fun x hx _ ↦ ?_⟩
      obtain rfl := Option.some.inj hx
      have hold : ¬now - a.create_time < hours 72 := of_decide_eq_false hlate
      omega
    · next hrej =>
      intro _
      refine .unrejected fun x hx ↦ ?_
      obtain rfl := Option.some.inj hx
      exact hrej

theorem record_apply_due (h : Passed uid pid last t) :
    (record_apply uid pid).Meets waitContract t fun _ _ ↦ True := by
  refine meets_op_bind.2 ⟨trivial, fun event_id _ ↦ meets_op_bind.2 ⟨trivial, fun now hnow ↦ ?_⟩⟩
  obtain ⟨heq, hdue⟩ := h.tick hnow
  refine meets_op_bind.2 ⟨trivial, fun create_time hlater ↦ ?_⟩
  have hpassed : Passed uid pid last (t.tick now) := heq ▸ .due hdue
  obtain ⟨heq', hdue'⟩ := hpassed.tick hlater
  refine meets_op_bind.2 ⟨⟨last, heq', hdue'⟩, fun ok _ ↦ ?_⟩
  cases ok <;> trivial

/-- A request is recorded by a call that has passed the check. -/
theorem SendFriendRequest_passes (req : SendFriendReq) :
    (SendFriendRequest uid req).Meets waitContract .idle fun _ _ ↦ True := by
  rw [SendFriendRequest]
  split
  · trivial
  · refine meets_op_bind.2 ⟨trivial, fun blocked _ ↦ ?_⟩
    cases blocked with
    | true => trivial
    | false =>
      refine meets_op_bind.2 ⟨trivial, fun friends _ ↦ ?_⟩
      cases friends with
      | true => trivial
      | false =>
        refine meets_op_bind.2 ⟨trivial, fun pending _ ↦ ?_⟩
        cases pending with
        | true => trivial
        | false =>
          refine meets_op_bind.2 ⟨rfl, fun last _ ↦ ?_⟩
          refine rejected_lately_passes.bind fun t lately hpass ↦ ?_
          cases lately with
          | true => trivial
          | false => exact record_apply_due (hpass rfl)

/-- Every call keeps to the contract. -/
theorem FriendCall.text_waits (c : FriendCall) :
    c.text.Meets waitContract .idle fun _ _ ↦ True := by
  cases c with
  | send uid req => exact (SendFriendRequest_passes req).bind fun _ _ _ ↦ trivial
  | handle uid req =>
    have hbody : (HandleFriend uid req).Meets waitContract .idle fun _ _ ↦ True :=
      .lift (.of_allowed fun _ _ ↦ trivial)
    exact hbody.bind fun _ _ _ ↦ trivial
  | remove uid req =>
    have hbody : (RemoveFriend uid req).Meets waitContract .idle fun _ _ ↦ True := by
      rw [RemoveFriend]
      split
      · trivial
      · refine meets_op_bind.2 ⟨trivial, fun friends _ ↦ ?_⟩
        cases friends with
        | false => trivial
        | true =>
          refine meets_op_bind.2 ⟨trivial, fun now _ ↦ meets_op_bind.2 ⟨trivial, fun ok _ ↦ ?_⟩⟩
          cases ok <;> trivial
    exact hbody.bind fun _ _ _ ↦ trivial

end Meets

/-! ### The invariant -/

/-- The answer to the thread that has looked: while a rejection of the pair is less than 72 hours
old, a rejected request that sorts last. -/
structure Look.Shows (y : Look) (i : ℕ) (uid pid : String) (last : Option FriendApply) : Prop where
  thread : y.thread = i
  user_id : y.user_id = uid
  peer_id : y.peer_id = pid
  refused : y.Cooling y.time → ∃ a ∈ y.latest, last = some a ∧ a.status = .REJECTED

/-- What a call has seen. -/
def WaitPhase.Saw (looks : List Look) (i : ℕ) : WaitPhase → Prop
  | shown uid pid last => ∃ y ∈ looks, y.Shows i uid pid last
  | timed uid pid last now =>
    ∃ y ∈ looks, y.Shows i uid pid last ∧ (y.Cooling now → y.Young now) ∧ y.time ≤ now
  | _ => True

/-- What the calls that have not ended know of the requests that were there and of the time. -/
structure WaitInv (ts : List WaitPhase) (s : WaitState) : Prop where
  past : ∀ y ∈ s.looks, y.time ≤ s.now
  saw : ∀ (i : ℕ) (t : WaitPhase), ts[i]? = some t → t.Saw s.looks i
  before : ∀ (i : ℕ) (t : WaitPhase), ts[i]? = some t → t.Before s.now
  cooled : s.CooledDown

section Steps

variable {ts : List WaitPhase} {s s' : WaitState} {i : ℕ} {t t' : WaitPhase} {y : Look}

theorem FriendApply.Over.mono {x : FriendApply} {now now' : ℤ} (h : x.Over now)
    (hle : now ≤ now') : x.Over now' := by
  obtain ⟨handled, heq, hover⟩ := (Option.any_eq_true _ _).1 h
  refine (Option.any_eq_true _ _).2 ⟨handled, heq, ?_⟩
  exact decide_eq_true (Int.le_trans (of_decide_eq_true hover) hle)

theorem Look.Cooling.of_le {now now' : ℤ} (h : y.Cooling now') (hle : now ≤ now') :
    y.Cooling now := by
  obtain ⟨x, hx, huid, hpid, hearly⟩ := h
  exact ⟨x, hx, huid, hpid, fun hover ↦ hearly (hover.mono hle)⟩

theorem WaitPhase.Before.mono {now now' : ℤ} (h : t.Before now) (hle : now ≤ now') :
    t.Before now' := by
  cases t with
  | idle | shown | closed => trivial
  | timed uid pid last before => exact Int.le_trans h hle

theorem WaitPhase.before_tick (now : ℤ) : (t.tick now).Before now := by
  cases t with
  | idle | closed => trivial
  | shown | timed => exact Int.le_refl now

theorem WaitPhase.Saw.mono {looks looks' : List Look} (h : t.Saw looks i)
    (hsub : looks ⊆ looks') : t.Saw looks' i := by
  cases t with
  | idle | closed => trivial
  | shown uid pid last =>
    obtain ⟨y, hy, hshows⟩ := h
    exact ⟨y, hsub hy, hshows⟩
  | timed uid pid last now =>
    obtain ⟨y, hy, hshows⟩ := h
    exact ⟨y, hsub hy, hshows⟩

/-- The clock is read while the request that sorts last is less than 72 hours old, if need be. -/
theorem WaitInv.saw_tick {now : ℤ} (h : WaitInv ts s) (ht : ts[i]? = some t) (hle : s.now ≤ now)
    (hG : ∀ y ∈ s.looks, y.thread = i → y.Cooling now → y.Young now) :
    (t.tick now).Saw s.looks i := by
  have hsaw := h.saw i t ht
  cases t with
  | idle | closed => trivial
  | shown uid pid last =>
    obtain ⟨y, hy, hshows⟩ := hsaw
    exact ⟨y, hy, hshows, hG y hy hshows.thread, Int.le_trans (h.past y hy) hle⟩
  | timed uid pid last before =>
    obtain ⟨y, hy, hshows, -⟩ := hsaw
    exact ⟨y, hy, hshows, hG y hy hshows.thread, Int.le_trans (h.past y hy) hle⟩

/-- What a thread does before it looks, or after. -/
theorem WaitInv.move (h : WaitInv ts s) (hlooks : s'.looks = s.looks) (hcool : s'.CooledDown)
    (hnow : s.now ≤ s'.now) (hsaw : t'.Saw s.looks i) (hbefore : t'.Before s'.now) :
    WaitInv (ts.set i t') s' where
  past y hy := Int.le_trans (h.past y (hlooks ▸ hy)) hnow
  saw j u hj := by
    rw [hlooks]
    rcases Pool.getElem?_set_cases hj with ⟨rfl, rfl⟩ | ⟨-, hj⟩
    · exact hsaw
    · exact h.saw j u hj
  before j u hj := by
    rcases Pool.getElem?_set_cases hj with ⟨-, rfl⟩ | ⟨-, hj⟩
    · exact hbefore
    · exact (h.before j u hj).mono hnow
  cooled := hcool

/-- An operation that changes nothing that is noted of the time and of the queries. -/
theorem WaitInv.pass (h : WaitInv ts s) (ht : ts[i]? = some t) (hlooks : s'.looks = s.looks)
    (hsent : s'.sent = s.sent) (hnow : s'.now = s.now) : WaitInv (ts.set i t) s' := by
  refine h.move hlooks (fun y hy ↦ h.cooled y (hsent ▸ hy)) (Int.le_of_eq hnow.symm)
    (h.saw i t ht) ?_
  rw [hnow]
  exact h.before i t ht

/-- `select_latest`: where a rejection is in sight, the call is shown one that sorts last. -/
theorem WaitInv.looked {uid pid : String} {last : Option FriendApply} {c : ApplyChoice}
    {a : ApplyState} (h : WaitInv ts s)
    (hG : refusalInSight.onOp i (.select_latest uid pid) c s)
    (hx : s.apply.exec i (.select_latest uid pid) c = some (last, a)) :
    WaitInv (ts.set i (.shown uid pid last))
      { s with apply := a, looks := s.look i uid pid :: s.looks } where
  past y hy := by
    rcases List.mem_cons.1 hy with rfl | hy
    · exact Int.le_refl _
    · exact h.past y hy
  saw j u hj := by
    rcases Pool.getElem?_set_cases hj with ⟨rfl, rfl⟩ | ⟨-, hj⟩
    · refine ⟨s.look j uid pid, List.mem_cons_self, rfl, rfl, rfl, fun hcooling ↦ ?_⟩
      obtain ⟨hfault, hne, hrefused⟩ := hG hcooling
      obtain ⟨x, hquery, heq⟩ := Option.map_eq_some_iff.1 hx
      obtain ⟨rfl, -⟩ := Prod.mk.inj heq
      rw [FriendOp.exec, if_neg (ne_true_of_eq_false hfault)] at hquery
      obtain ⟨hlatest, hanswer⟩ := Option.ite_none_right_eq_some.1 hquery
      obtain rfl := Option.some.inj hanswer
      cases hlast : c.latest with
      | none =>
        rw [hlast] at hlatest
        have hrows : (s.look j uid pid).rows = [] := hlatest
        exact absurd (by rw [Look.latest, hrows]; rfl) hne
      | some b =>
        rw [hlast] at hlatest
        have hb : b ∈ (s.look j uid pid).latest :=
          List.mem_filter.2 ⟨hlatest.1, decide_eq_true hlatest.2⟩
        exact ⟨b, hb, rfl, hrefused b hb⟩
    · exact (h.saw j u hj).mono (List.subset_cons_self _ _)
  before j u hj := by
    rcases Pool.getElem?_set_cases hj with ⟨-, rfl⟩ | ⟨-, hj⟩
    · trivial
    · exact h.before j u hj
  cooled := h.cooled

/-- A request that is recorded: the check has let it pass, so no rejection of the pair is less than
72 hours old. -/
theorem WaitInv.waited {last : Option FriendApply} {ev : FriendApply} (h : WaitInv ts s)
    (ht : ts[i]? = some (.timed ev.user_id ev.peer_id last ev.create_time))
    (hdue : Due last ev.create_time)
    (hG : ∀ x ∈ s.rejections, ev.SamePair x → ¬ev.Waited x →
      ∀ y ∈ s.looks, y.thread = i → x ∈ y.rejections) :
    ∀ x ∈ s.rejections, ev.SamePair x → ev.Waited x := by
  intro x hx hpair
  by_contra hearly
  obtain ⟨y, hy, ⟨hthread, huid, hpid, hrefused⟩, hyoung, htime⟩ := h.saw i _ ht
  have hcooling : y.Cooling ev.create_time :=
    ⟨x, hG x hx hpair hearly y hy hthread, hpair.1.trans huid.symm, hpair.2.trans hpid.symm, hearly⟩
  -- the check was shown a rejected request, and has found it old
  obtain ⟨a, ha, hlast, hrej⟩ := hrefused (hcooling.of_le htime)
  have hold : a.create_time + hours 72 ≤ ev.create_time := hdue a hlast hrej
  have hnew : ev.create_time < a.create_time + hours 72 := hyoung hcooling a ha
  omega

theorem wait_exec {o : FriendOp} {c : ApplyChoice} {r : o.Res} (hx : s.exec i o c = some (r, s')) :
    s.onTime o c = true ∧ ∃ a, s.apply.exec i o c = some (r, a) ∧
      s' = { s.note i o r c with apply := a } := by
  obtain ⟨htime, hx⟩ := Option.ite_none_right_eq_some.1 hx
  obtain ⟨⟨r', a⟩, ha, heq⟩ := Option.map_eq_some_iff.1 hx
  obtain ⟨rfl, rfl⟩ := Prod.mk.inj heq
  exact ⟨htime, a, ha, rfl⟩

/-- An operation of `HandleFriendRequest`: only a rejection and the time are noted. -/
theorem waitInv_handling {o : RelOp} {c : ApplyChoice} {r : o.Res} (h : WaitInv ts s)
    (ht : ts[i]? = some t) (hG : refusalInSight.onOp i (handling o) c s)
    (hx : s.exec i (handling o) c = some (r, s')) :
    waitContract.admits t (handling o) r ∧
      WaitInv (ts.set i (waitContract.next t (handling o) r)) s' := by
  obtain ⟨htime, a, ha, rfl⟩ := wait_exec hx
  cases o with
  | clock =>
    obtain ⟨rfl, -⟩ := Prod.mk.inj (Option.some.inj ha)
    have hle : s.now ≤ c.now := of_decide_eq_true htime
    refine ⟨(h.before i t ht).mono hle, ?_⟩
    exact h.move rfl h.cooled hle (h.saw_tick ht hle hG) (t.before_tick c.now)
  | writeApply x =>
    refine ⟨trivial, ?_⟩
    simp only [WaitState.note]
    split <;> exact h.pass ht rfl rfl rfl
  | selectApply | insertRelation | createConversation | respond =>
    exact ⟨trivial, h.pass ht rfl rfl rfl⟩

/-- **Every call of a thread** keeps the invariant, and is answered as its contract says. -/
theorem waitInv_call {o : FriendOp} {c : ApplyChoice} {r : o.Res} (h : WaitInv ts s)
    (ht : ts[i]? = some t) (hallowed : waitContract.allowed t o) (hG : refusalInSight.onOp i o c s)
    (hx : s.exec i o c = some (r, s')) :
    waitContract.admits t o r ∧ WaitInv (ts.set i (waitContract.next t o r)) s' := by
  cases o with
  | handling o => exact waitInv_handling h ht hG hx
  | is_blocked | relationExists | exists_pending | uuid | removeRelation =>
    obtain ⟨-, a, -, rfl⟩ := wait_exec hx
    exact ⟨trivial, h.pass ht rfl rfl rfl⟩
  | select_latest uid pid =>
    obtain ⟨-, a, ha, rfl⟩ := wait_exec hx
    exact ⟨trivial, h.looked hG ha⟩
  | insertApply ev =>
    obtain ⟨-, a, -, rfl⟩ := wait_exec hx
    obtain ⟨last, rfl, hdue⟩ := hallowed
    refine ⟨trivial, ?_⟩
    simp only [WaitState.note]
    split
    · next hins =>
      refine h.move rfl (fun y hy ↦ ?_) (Int.le_refl _) trivial trivial
      rcases List.mem_cons.1 hy with rfl | hy
      · exact h.waited ht hdue (hG hins.1)
      · exact h.cooled y hy
    · exact h.move rfl h.cooled (Int.le_refl _) trivial trivial

end Steps

/-! ### Runs -/

theorem waitInv_event {ts : List WaitPhase} {p p' : WaitPool} {e : ApplyEv}
    (h : WaitInv ts p.shared) (hm : p.Meets waitContract (fun _ ↦ True) ts)
    (hx : WaitState.env e p = some p') :
    ∃ ts', WaitInv ts' p'.shared ∧ p'.Meets waitContract (fun _ ↦ True) ts' := by
  cases e with
  | crash i =>
    obtain rfl := Option.some.inj hx
    exact ⟨ts, h, hm.stop (fun _ ↦ trivial) i _⟩
  | call c =>
    obtain rfl := Option.some.inj hx
    refine ⟨ts ++ [.idle], ⟨h.past, fun j t hj ↦ ?_, fun j t hj ↦ ?_, h.cooled⟩,
      hm.spawn c.text_waits _⟩
    · rcases Pool.getElem?_append_cases hj with ⟨-, rfl⟩ | ⟨-, hj⟩
      · trivial
      · exact h.saw j t hj
    · rcases Pool.getElem?_append_cases hj with ⟨-, rfl⟩ | ⟨-, hj⟩
      · trivial
      · exact h.before j t hj

/-- **The cool-down is kept** in every run in which a call that comes too early finds the rejection
in sight. -/
theorem cool_down_kept (tables : RelState) (now : ℤ) (p : WaitPool)
    (hr : waitService.Reach refusalInSight ⟨[], .start tables now⟩ p) : p.shared.CooledDown := by
  obtain ⟨ts, h, -⟩ : ∃ ts, WaitInv ts p.shared ∧ p.Meets waitContract (fun _ ↦ True) ts := by
    refine Machine.invariant hr ⟨[], ⟨fun y hy ↦ ?_, fun i t hi ↦ ?_, fun i t hi ↦ ?_,
      fun y hy ↦ ?_⟩, .nil⟩ ?_ ?_
    · exact absurd hy List.not_mem_nil
    · simp at hi
    · simp at hi
    · exact absurd hy List.not_mem_nil
    · intro ts s i t o c r s' h hi ha hG hx
      exact waitInv_call h hi ha hG hx
    · intro ts p e p' h hm _ hx
      exact waitInv_event h hm hx
  exact h.cooled

instance (i : ℕ) (o : FriendOp) (c : ApplyChoice) (s : WaitState) :
    Decidable (refusalInSight.onOp i o c s) :=
  match o with
  | .select_latest uid pid => inferInstanceAs (Decidable ((s.look i uid pid).Cooling s.now →
      c.fault = false ∧ (s.look i uid pid).Refused))
  | .handling .clock =>
    inferInstanceAs (Decidable (∀ y ∈ s.looks, y.thread = i → y.Cooling c.now → y.Young c.now))
  | .insertApply ev => inferInstanceAs (Decidable (c.acts = true → ∀ x ∈ s.rejections,
      ev.SamePair x → ¬ev.Waited x → ∀ y ∈ s.looks, y.thread = i → x ∈ y.rejections))
  | .handling (.selectApply _) => .isTrue trivial
  | .handling (.writeApply _) => .isTrue trivial
  | .handling (.insertRelation _ _ _) => .isTrue trivial
  | .handling (.createConversation _) => .isTrue trivial
  | .handling (.respond _) => .isTrue trivial
  | .is_blocked _ _ => .isTrue trivial
  | .relationExists _ _ => .isTrue trivial
  | .exists_pending _ _ => .isTrue trivial
  | .uuid => .isTrue trivial
  | .removeRelation _ _ _ => .isTrue trivial

instance (e : ApplyEv) (p : WaitPool) : Decidable (refusalInSight.onEv e p) := .isTrue trivial

/-- Alice asks bob, at the given time; her latest request before may have been rejected. -/
def asksAt (i : ℕ) (event_id : String) (now : ℤ) (latest : Option FriendApply := none) :
    List (Machine.Label ApplyChoice ApplyEv) :=
  .event (.call (.send "alice" ⟨"bob"⟩)) :: List.replicate 3 (.call i {}) ++
    .call i { latest } :: List.replicate latest.toList.length (.call i { now }) ++
    [.call i { uuid := event_id }, .call i { now }, .call i { now }, .call i {}]

/-- Bob refuses, at the given time. -/
def refusesAt (i : ℕ) (event_id : String) (now : ℤ) : List (Machine.Label ApplyChoice ApplyEv) :=
  [.event (.call (.handle "bob" ⟨"", event_id, false, "alice"⟩)), .call i {}, .call i {},
    .call i { now }, .call i {}]

/-- What alice finds of her first request. -/
def refused (now : ℤ) : FriendApply := ⟨"e1", "alice", "bob", .REJECTED, 0, some now⟩

/-- Bob refuses after an hour. Alice asks again after two days, in vain, and when the 72 hours are
over. -/
theorem cool_down_kept_after_an_hour :
    ∃ p, waitService.Reach refusalInSight ⟨[], .start {} 0⟩ p ∧ p.shared.sent.length = 2 ∧
      p.shared.rejections = [refused (hours 1)] ∧ p.shared.CooledDown := by
  obtain ⟨p, hp, hsent, hrej⟩ := Machine.exists_of_run waitService refusalInSight ⟨[], .start {} 0⟩
    (asksAt 0 "e1" 0 ++ refusesAt 1 "e1" (hours 1) ++
      (asksAt 2 "" (hours 49) (refused (hours 1))).take 6 ++
      asksAt 3 "e2" (hours 73) (refused (hours 1)))
    (fun p ↦ p.shared.sent.length = 2 ∧ p.shared.rejections = [refused (hours 1)])
    (by decide +kernel)
  exact ⟨p, hp, hsent, hrej, cool_down_kept {} 0 p hp⟩

/-- Bob refuses after eighty hours, and an hour later alice has asked again. -/
theorem asks_right_after_rejection :
    ∃ p, waitService.Reach .any ⟨[], .start {} 0⟩ p ∧
      p.shared.rejections = [refused (hours 80)] ∧
      p.shared.apply.tables.applies.find "e2" =
        some ⟨"e2", "alice", "bob", .PENDING, hours 81, none⟩ ∧
      ¬p.shared.CooledDown := by
  obtain ⟨p, hp, hearly⟩ := Machine.exists_of_run waitService .any ⟨[], .start {} 0⟩
    (asksAt 0 "e1" 0 ++ refusesAt 1 "e1" (hours 80) ++
      asksAt 2 "e2" (hours 81) (refused (hours 80)))
    (fun p ↦ p.shared.rejections = [refused (hours 80)] ∧
      p.shared.apply.tables.applies.find "e2" =
        some ⟨"e2", "alice", "bob", .PENDING, hours 81, none⟩ ∧
      ¬p.shared.CooledDown) (by decide +kernel)
  exact ⟨p, hp, hearly⟩

end ChatNow
