import ChatNow.Relationship.HandleFriendRequest

/-!
# A friend request is handled once

`RelState.Handled` says of an event that it has left PENDING at most once, that at most one call has
answered with success, and that no rows of a relation have been inserted for it if it ends as
REJECTED.

`HandleFriendRequest` reads the status in one transaction and writes it in another, with no look at
what stands there by then, so two calls that have both read PENDING both go on: one agrees and one
rejects, and both succeed. `friend_request_handled` is about the runs in which this does not happen:
a status is written over PENDING, or ACCEPTED over ACCEPTED. In the second case the unique key of
the relation stops the later call.

The contract of a call (`RelPhase`) is what it knows of the row. Under the assumption a row that is
not pending stays as it is (`RelState.Keeps`), so what a call knows stays true.
-/

namespace ChatNow

open Prog RelOp

/-- Who asks whom, in which event. -/
def FriendApply.parties (a : FriendApply) : String × String × String :=
  (a.event_id, a.user_id, a.peer_id)

namespace RelState

/-- Thread `i` handles the event. -/
def On (s : RelState) (event_id : String) (i : ℕ) : Prop :=
  ∃ req, s.requests[i]? = some req ∧ req.notify_event_id = event_id

/-- The event has been handled once at most, and nothing is left of a call that agreed if it has
been rejected. -/
structure Handled (s : RelState) (event_id : String) : Prop where
  left_once : s.left.count event_id ≤ 1
  one_succeeds : ∀ i ∈ s.succeeded, ∀ j ∈ s.succeeded, s.On event_id i → s.On event_id j → i = j
  none_inserted : ∀ a, s.applies.find event_id = some a → a.status = .REJECTED →
    ∀ i ∈ s.inserted, ¬ s.On event_id i

/-- No call has begun. -/
structure Fresh (s : RelState) : Prop where
  requests : s.requests = []
  left : s.left = []
  inserted : s.inserted = []
  succeeded : s.succeeded = []

end RelState

/-- A status is written over PENDING, or ACCEPTED over ACCEPTED. -/
def stillPending : Machine.Guard RelOp RelOp.Res RelState RelChoice RelEv where
  onOp _ o c s :=
    match o with
    | writeApply r => c.acts = true → ∀ a, s.applies.find r.event_id = some a →
        a.status = .PENDING ∨ a.status = .ACCEPTED ∧ r.status = .ACCEPTED
    | _ => True
  onEv _ _ := True

/-! ### The contract of a call -/

/-- What a call knows of its event. -/
inductive RelPhase
  | idle
  /-- It has read the row. -/
  | holds (a : FriendApply)
  /-- It has written ACCEPTED. -/
  | accepted (a : FriendApply)
  /-- It has rejected the event, or inserted the rows of the relation. -/
  | won (a : FriendApply)
  | closed

/-- A call of `HandleFriendRequest`. -/
structure RelCall where
  event_id : String
  phase : RelPhase := .idle

/-- What a call may do, and what it gets. -/
def relContract : Contract RelOp RelOp.Res RelCall where
  allowed t o :=
    match o with
    | selectApply event_id => event_id = t.event_id ∧ ∀ a, t.phase ≠ .won a
    | writeApply r => ∃ a, t.phase = .holds a ∧ r.parties = a.parties ∧
        (r.status = .ACCEPTED ∨ r.status = .REJECTED)
    | insertRelation uid pid _ => ∃ a, t.phase = .accepted a ∧ uid = a.peer_id ∧ pid = a.user_id
    | respond (.ok _) => ∃ a, t.phase = .won a
    | _ => True
  admits t o r :=
    match o, r with
    | selectApply event_id, some a => a.event_id = event_id ∧
        ∀ b, t.phase = .holds b → a.parties = b.parties
    | _, _ => True
  next t o r :=
    match o, r with
    | selectApply _, some a => { t with phase := .holds a }
    | selectApply _, none => { t with phase := .closed }
    | writeApply a, true =>
      { t with phase := if a.status = .ACCEPTED then .accepted a else .won a }
    | writeApply _, false => { t with phase := .closed }
    | insertRelation _ _ _, true =>
      match t.phase with
      | .accepted a => { t with phase := .won a }
      | _ => t
    | insertRelation _ _ _, false => { t with phase := .closed }
    | _, _ => t

section Meets

variable {e : String} {a : FriendApply}

/-- The status is written to the row that the call has read. -/
theorem FriendApplyTable.update_status_meets {st : FriendApplyStatus}
    (hst : st = .ACCEPTED ∨ st = .REJECTED) :
    (update_status e st).Meets relContract ⟨e, .holds a⟩ fun t ok ↦
      ok = true → ∃ r : FriendApply, r.parties = a.parties ∧
        t = ⟨e, if st = .ACCEPTED then .accepted r else .won r⟩ := by
  refine meets_op_bind.2 ⟨⟨rfl, fun _ h ↦ RelPhase.noConfusion h⟩, fun r hr ↦ ?_⟩
  cases r with
  | none =>
    intro h
    cases h
  | some r =>
    have hparties : r.parties = a.parties := hr.2 a rfl
    refine meets_op_bind.2 ⟨trivial, fun now _ ↦ ⟨⟨r, rfl, rfl, hst⟩, fun ok _ hok ↦ ?_⟩⟩
    obtain rfl : ok = true := hok
    exact ⟨{ r with status := st, handle_time := some now }, hparties, rfl⟩

theorem create_private_meets {t : RelCall} (rid uid : String) :
    (create_private rid uid).Meets relContract t fun t' _ ↦ t' = t := by
  refine meets_op_bind.2 ⟨trivial, fun r _ ↦ ?_⟩
  cases r with
  | none => rfl
  | some r =>
    cases r with
    | error e => rfl
    | ok id => rfl

/-- The answer is success only when the call has won. -/
def RelCall.Answers (t : RelCall) : Except ServiceError HandleFriendRsp → Prop
  | .ok _ => ∃ a, t.phase = .won a
  | .error _ => True

theorem handle_pending_meets {uid : String} {req : HandleFriendReq}
    (ha : a.parties = (e, req.apply_user_id, uid)) (he : req.notify_event_id = e) :
    (handle_pending uid req).Meets relContract ⟨e, .holds a⟩ RelCall.Answers := by
  unfold handle_pending
  rw [he]
  split
  · refine (FriendApplyTable.update_status_meets (a := a) (.inr rfl)).bind fun t ok ht ↦ ?_
    cases ok with
    | false => exact trivial
    | true =>
      obtain ⟨r, -, rfl⟩ := ht rfl
      exact ⟨r, rfl⟩
  · refine (FriendApplyTable.update_status_meets (a := a) (.inl rfl)).bind fun t ok ht ↦ ?_
    cases ok with
    | false => exact trivial
    | true =>
      obtain ⟨r, hr, rfl⟩ := ht rfl
      have hpair : (r.event_id, r.user_id, r.peer_id) = (e, req.apply_user_id, uid) := hr.trans ha
      obtain ⟨-, hpair⟩ := Prod.mk.inj hpair
      obtain ⟨huser, hpeer⟩ := Prod.mk.inj hpair
      refine meets_op_bind.2 ⟨trivial, fun now _ ↦ ⟨⟨r, rfl, hpeer.symm, huser.symm⟩, ?_⟩⟩
      intro ok _
      cases ok with
      | false => exact trivial
      | true =>
        refine (create_private_meets _ _).bind fun t id ht ↦ ?_
        rw [ht]
        exact ⟨r, rfl⟩

/-- `HandleFriendRequest` keeps to the contract. -/
theorem HandleFriendRequest_meets (uid : String) (req : HandleFriendReq) :
    (HandleFriendRequest uid req).Meets relContract ⟨req.notify_event_id, .idle⟩
      fun _ _ ↦ True := by
  have hbody : (handle_friend_request uid req).Meets relContract ⟨req.notify_event_id, .idle⟩
      RelCall.Answers := by
    unfold handle_friend_request
    split
    · exact trivial
    · refine meets_op_bind.2 ⟨⟨rfl, fun _ h ↦ RelPhase.noConfusion h⟩, fun r hr ↦ ?_⟩
      cases r with
      | none => exact trivial
      | some ev =>
        have hevent : ev.event_id = req.notify_event_id := hr.1
        show Prog.Meets relContract (ite _ _ _) _ _
        split
        · exact trivial
        · next hparties =>
          rw [not_or, not_not, not_not] at hparties
          split
          · exact trivial
          · refine handle_pending_meets ?_ rfl
            rw [FriendApply.parties, hevent, hparties.1, hparties.2]
  refine hbody.bind fun t rsp ht ↦ ⟨?_, fun _ _ ↦ trivial⟩
  cases rsp with
  | error e => exact trivial
  | ok rsp => exact ht

end Meets

/-! ### What stays -/

namespace RelState

/-- A row that is not pending stays as it is, and so do the relations. -/
structure Keeps (s s' : RelState) : Prop where
  applies : ∀ e a, s.applies.find e = some a → ∃ b, s'.applies.find e = some b ∧
    b.parties = a.parties ∧ (a.status ≠ .PENDING → b.status = a.status)
  relations : ∀ k, (s.relations.find k).isSome = true → (s'.relations.find k).isSome = true

variable {s s' : RelState} {e : String} {a : FriendApply}

theorem Keeps.of_eq (ha : s'.applies = s.applies) (hr : s'.relations = s.relations) :
    s.Keeps s' := by
  refine ⟨fun e a h ↦ ⟨a, ?_, rfl, fun _ ↦ rfl⟩, fun k h ↦ ?_⟩
  · rwa [ha]
  · rwa [hr]

/-- The row of the event has the parties of `a`, and its status is one of those given. -/
def Row (s : RelState) (e : String) (a : FriendApply) (P : FriendApplyStatus → Prop) : Prop :=
  ∃ b, s.applies.find e = some b ∧ b.parties = a.parties ∧ P b.status

/-- A row that is not pending is known for good. -/
theorem Keeps.row {P : FriendApplyStatus → Prop} (hk : s.Keeps s') (h : s.Row e a P)
    (hP : ∀ st, P st → st ≠ .PENDING) : s'.Row e a P := by
  obtain ⟨b, hb, hparties, hst⟩ := h
  obtain ⟨b', hb', hparties', hst'⟩ := hk.applies e b hb
  refine ⟨b', hb', hparties'.trans hparties, ?_⟩
  rw [hst' (hP _ hst)]
  exact hst

end RelState

/-- The events that have left PENDING have done so once, and are not pending. -/
structure RelState.LeftOnce (s : RelState) : Prop where
  gone : ∀ e ∈ s.left, ∃ a, s.applies.find e = some a ∧ a.status ≠ .PENDING
  once : ∀ e, s.left.count e ≤ 1

namespace RelState

variable {s s' : RelState} {e : String}

theorem LeftOnce.keep (h : s.LeftOnce) (hk : s.Keeps s') (hleft : s'.left = s.left) :
    s'.LeftOnce := by
  constructor
  · intro e he
    obtain ⟨a, ha, hst⟩ := h.gone e (hleft ▸ he)
    obtain ⟨a', ha', -, hst'⟩ := hk.applies e a ha
    refine ⟨a', ha', ?_⟩
    rwa [hst' hst]
  · rw [hleft]
    exact h.once

/-- A pending event leaves. -/
theorem LeftOnce.leave {a b : FriendApply} (h : s.LeftOnce) (hk : s.Keeps s')
    (ha : s.applies.find e = some a) (hpend : a.status = .PENDING)
    (hb : s'.applies.find e = some b) (hst : b.status ≠ .PENDING) (hleft : s'.left = e :: s.left) :
    s'.LeftOnce := by
  have hnew : e ∉ s.left := by
    intro he
    obtain ⟨a', ha', hst'⟩ := h.gone e he
    obtain rfl : a = a' := Option.some.inj (ha.symm.trans ha')
    exact hst' hpend
  constructor
  · intro e' he'
    rw [hleft] at he'
    rcases List.mem_cons.1 he' with rfl | he'
    · exact ⟨b, hb, hst⟩
    · obtain ⟨a', ha', hst'⟩ := h.gone e' he'
      obtain ⟨b', hb', -, hstb⟩ := hk.applies e' a' ha'
      refine ⟨b', hb', ?_⟩
      rwa [hstb hst']
  · intro e'
    rw [hleft, List.count_cons]
    split
    · next heq =>
      obtain rfl : e = e' := by simpa using heq
      have hzero : s.left.count e = 0 := List.count_eq_zero.2 hnew
      omega
    · exact h.once e'

end RelState

/-- What is known in a phase is true. -/
def RelCall.Knows (s : RelState) (t : RelCall) : Prop :=
  match t.phase with
  | .idle => True
  | .holds a => a.event_id = t.event_id ∧ s.Row t.event_id a fun _ ↦ True
  | .accepted a => s.Row t.event_id a (· = .ACCEPTED)
  | .won a => s.Row t.event_id a (· = .REJECTED) ∨
      s.Row t.event_id a (· = .ACCEPTED) ∧ (s.relations.find (a.peer_id, a.user_id)).isSome = true
  | .closed => True

theorem RelState.Keeps.knows {s s' : RelState} {t : RelCall} (hk : s.Keeps s') (h : t.Knows s) :
    t.Knows s' := by
  obtain ⟨e, ph⟩ := t
  have hst {st₀ : FriendApplyStatus} (hne : st₀ ≠ .PENDING) :
      ∀ st, st = st₀ → st ≠ FriendApplyStatus.PENDING := by
    rintro st rfl
    exact hne
  cases ph with
  | idle => exact trivial
  | holds a =>
    obtain ⟨hevent, b, hb, hparties, -⟩ := h
    obtain ⟨b', hb', hparties', -⟩ := hk.applies e b hb
    exact ⟨hevent, b', hb', hparties'.trans hparties, trivial⟩
  | accepted a =>
    have hrow : s.Row e a (· = .ACCEPTED) := h
    exact hk.row hrow (hst (by decide))
  | won a =>
    rcases h with h | ⟨h, hrel⟩
    · exact .inl (hk.row h (hst (by decide)))
    · exact .inr ⟨hk.row h (hst (by decide)), hk.relations _ hrel⟩
  | closed => exact trivial

/-- The call has settled its event. -/
def RelCall.Won (t : RelCall) : Prop := ∃ a, t.phase = .won a

/-- The calls and the tables agree. -/
structure RelInv (ts : List RelCall) (s : RelState) : Prop where
  events : s.requests.map (·.notify_event_id) = ts.map (·.event_id)
  knows : ∀ (i : ℕ) (t : RelCall), ts[i]? = some t → t.Knows s
  left : s.LeftOnce
  one : ∀ (i j : ℕ) (t u : RelCall), ts[i]? = some t → ts[j]? = some u → t.Won → u.Won →
    t.event_id = u.event_id → i = j
  inserted : ∀ i ∈ s.inserted, ∃ t a, ts[i]? = some t ∧ s.applies.find t.event_id = some a ∧
    a.status = .ACCEPTED
  succeeded : ∀ i ∈ s.succeeded, ∃ t, ts[i]? = some t ∧ t.Won

section Steps

variable {ts : List RelCall} {s s' : RelState} {i : ℕ} {t t' : RelCall}

/-- **What a step of one call has to show.** The rows keep what the others know; a call that has
won stays so, and one that wins is the first for its event. -/
theorem RelInv.move (h : RelInv ts s) (hi : ts[i]? = some t) (hk : s.Keeps s')
    (hreq : s'.requests = s.requests) (hevent : t'.event_id = t.event_id) (hknows : t'.Knows s')
    (hleft : s'.LeftOnce) (hwon : t.Won → t'.Won)
    (hfirst : t'.Won → t.Won ∨ ∀ (j : ℕ) u, ts[j]? = some u → u.Won → u.event_id ≠ t.event_id)
    (hins : ∀ j ∈ s'.inserted, j ∈ s.inserted ∨
      j = i ∧ ∃ a, s'.applies.find t.event_id = some a ∧ a.status = .ACCEPTED)
    (hsucc : ∀ j ∈ s'.succeeded, j ∈ s.succeeded ∨ j = i ∧ t.Won) :
    RelInv (ts.set i t') s' := by
  have hself : (ts.set i t')[i]? = some t' := by
    rw [List.getElem?_set_self (List.getElem?_eq_some_iff.1 hi).1]
  have hother {j : ℕ} {u : RelCall} (hu : ts[j]? = some u) :
      ∃ u', (ts.set i t')[j]? = some u' ∧ u'.event_id = u.event_id ∧ (u.Won → u'.Won) := by
    rcases eq_or_ne i j with rfl | hij
    · obtain rfl : t = u := Option.some.inj (hi.symm.trans hu)
      exact ⟨t', hself, hevent, hwon⟩
    · refine ⟨u, ?_, rfl, id⟩
      rwa [List.getElem?_set_ne hij]
  refine ⟨?_, fun j u hu ↦ ?_, hleft, fun j k u v hu hv hju hkv huv ↦ ?_, ?_, ?_⟩
  · obtain ⟨hlt, rfl⟩ := List.getElem?_eq_some_iff.1 hi
    rw [hreq, h.events, List.map_set, hevent, ← List.map_set, List.set_getElem_self]
  · rcases Pool.getElem?_set_cases hu with ⟨-, rfl⟩ | ⟨-, hu⟩
    · exact hknows
    · exact hk.knows (h.knows j u hu)
  · -- two calls that have won: both before, or this one has just won
    rcases Pool.getElem?_set_cases hu with ⟨rfl, rfl⟩ | ⟨-, hu'⟩
    · rcases Pool.getElem?_set_cases hv with ⟨rfl, rfl⟩ | ⟨-, hv'⟩
      · rfl
      · rcases hfirst hju with hold | hnew
        · exact h.one _ _ t v hi hv' hold hkv (hevent ▸ huv)
        · exact absurd (huv.symm.trans hevent) (hnew k v hv' hkv)
    · rcases Pool.getElem?_set_cases hv with ⟨rfl, rfl⟩ | ⟨-, hv'⟩
      · rcases hfirst hkv with hold | hnew
        · exact h.one _ _ u t hu' hi hju hold (huv.trans hevent)
        · exact absurd (huv.trans hevent) (hnew j u hu' hju)
      · exact h.one _ _ u v hu' hv' hju hkv huv
  · intro j hj
    rcases hins j hj with hj | ⟨rfl, a, ha, hst⟩
    · obtain ⟨u, a, hu, ha, hst⟩ := h.inserted j hj
      obtain ⟨u', hu', hev, -⟩ := hother hu
      obtain ⟨b, hb, -, hst'⟩ := hk.applies _ a ha
      refine ⟨u', b, hu', hev ▸ hb, ?_⟩
      rw [hst' (by rw [hst]; decide), hst]
    · exact ⟨t', a, hself, hevent ▸ ha, hst⟩
  · intro j hj
    rcases hsucc j hj with hj | ⟨rfl, hw⟩
    · obtain ⟨u, hu, hw⟩ := h.succeeded j hj
      obtain ⟨u', hu', -, hw'⟩ := hother hu
      exact ⟨u', hu', hw' hw⟩
    · exact ⟨t', hself, hwon hw⟩

/-- A step that changes no row. -/
theorem RelInv.stay (h : RelInv ts s) (hi : ts[i]? = some t) (hevent : t'.event_id = t.event_id)
    (hknows : t'.Knows s) (hwon : t'.Won ↔ t.Won) : RelInv (ts.set i t') s :=
  h.move hi (.of_eq rfl rfl) rfl hevent hknows h.left hwon.2
    (fun hw ↦ .inl (hwon.1 hw)) (fun _ hj ↦ .inl hj) fun _ hj ↦ .inl hj

/-- What the write of a status does when it is made under the assumption: the row it hits is
pending, or accepted and stays so. -/
theorem write_spec {r b : FriendApply} (hb : s.applies.find r.event_id = some b)
    (hparties : r.parties = b.parties) (hr : r.status ≠ .PENDING)
    (hG : b.status = .PENDING ∨ b.status = .ACCEPTED ∧ r.status = .ACCEPTED) :
    s.Keeps (s.write r) ∧ (s.write r).applies.find r.event_id = some r ∧
      (s.write r).relations = s.relations ∧ (s.write r).requests = s.requests ∧
      (s.write r).inserted = s.inserted ∧ (s.write r).succeeded = s.succeeded ∧
      ((s.write r).left = s.left ∨
        b.status = .PENDING ∧ (s.write r).left = r.event_id :: s.left) := by
  have hself := Table.find_write_self (t := s.applies) (r := r) hb
  have hwrite : s.write r =
      { s with
        applies := s.applies.write r
        left := if b.status = .PENDING ∧ r.status ≠ .PENDING then r.event_id :: s.left
          else s.left } := by
    simp only [RelState.write, hb]
  rw [hwrite]
  refine ⟨⟨fun e a ha ↦ ?_, fun _ hk ↦ hk⟩, hself, rfl, rfl, rfl, rfl, ?_⟩
  · by_cases he : r.event_id = e
    · subst he
      obtain rfl : b = a := Option.some.inj (hb.symm.trans ha)
      refine ⟨r, hself, hparties, fun hne ↦ ?_⟩
      rcases hG with hG | ⟨hb', hr'⟩
      · exact absurd hG hne
      · rw [hb', hr']
    · refine ⟨a, ?_, rfl, fun _ ↦ rfl⟩
      rwa [Table.find_write_ne _ he]
  · by_cases hpend : b.status = .PENDING
    · exact .inr ⟨hpend, if_pos ⟨hpend, hr⟩⟩
    · exact .inl (if_neg fun hand ↦ hpend hand.1)

/-- The commit of `update_status`: the call that reports success has accepted or rejected the
event, and if it has rejected it no other call has won. -/
theorem relInv_write {r : FriendApply} {c : RelChoice} (h : RelInv ts s) (hi : ts[i]? = some t)
    (ha : relContract.allowed t (writeApply r)) (hG : stillPending.onOp i (writeApply r) c s)
    (ok : Bool) (hok : ok = (!c.fault && (s.applies.find r.event_id).isSome)) :
    RelInv (ts.set i (relContract.next t (writeApply r) ok)) (if c.acts then s.write r else s) := by
  obtain ⟨a, hphase, hparties, hstatus⟩ := ha
  have hknows := h.knows i t hi
  rw [RelCall.Knows, hphase] at hknows
  obtain ⟨hevent, b, hb, hbparties, -⟩ := hknows
  have hr : r.status ≠ .PENDING := by
    rcases hstatus with hst | hst <;> rw [hst] <;> decide
  have hkey : r.event_id = t.event_id := (Prod.mk.inj hparties).1.trans hevent
  have hnot : ¬ t.Won := by
    rintro ⟨a', ha'⟩
    rw [hphase] at ha'
    cases ha'
  by_cases hacts : c.acts = true
  swap
  · -- nothing has been written, and failure is reported
    have hfalse : ok = false := by
      rw [hok, RelChoice.fault_of_not_acts hacts]
      rfl
    rw [if_neg hacts, hfalse]
    exact h.stay hi rfl trivial ⟨fun ⟨_, hw⟩ ↦ RelPhase.noConfusion hw, fun hw ↦ absurd hw hnot⟩
  rw [if_pos hacts]
  rw [← hkey] at hb
  have hGb := hG hacts b hb
  obtain ⟨hk, hself, hrel, hreq, hins, hsucc, hleft⟩ := write_spec hb
    (hparties.trans hbparties.symm) hr hGb
  have hleft' : (s.write r).LeftOnce := by
    rcases hleft with hleft | ⟨hpend, hleft⟩
    · exact h.left.keep hk hleft
    · exact h.left.leave hk hb hpend hself hr hleft
  have hrow {P : FriendApplyStatus → Prop} (hP : P r.status) :
      (s.write r).Row t.event_id r P := ⟨r, hkey ▸ hself, rfl, hP⟩
  -- a call that wins here rejects, so that the row was pending and nobody has won
  have hfirst : r.status = .REJECTED →
      ∀ (j : ℕ) u, ts[j]? = some u → u.Won → u.event_id ≠ t.event_id := by
    rintro hrej j u hu ⟨a', ha'⟩ hue
    have hpend : b.status = .PENDING := by
      rcases hGb with hpend | ⟨-, hacc⟩
      · exact hpend
      · rw [hrej] at hacc
        cases hacc
    have hknows := h.knows j u hu
    rw [RelCall.Knows, ha', hue, ← hkey] at hknows
    rcases hknows with ⟨b', hb', -, hst⟩ | ⟨⟨b', hb', -, hst⟩, -⟩ <;>
    · obtain rfl : b = b' := Option.some.inj (hb.symm.trans hb')
      rw [hpend] at hst
      cases hst
  refine h.move hi hk hreq ?_ ?_ hleft' (fun hw ↦ absurd hw hnot) ?_ ?_ ?_
  · cases ok <;> rfl
  · cases ok with
    | false => exact trivial
    | true =>
      rcases hstatus with hst | hst
      · simp only [relContract, RelCall.Knows, hst, if_true]
        exact hrow hst
      · simp only [relContract, RelCall.Knows, hst, reduceCtorEq, if_false]
        exact .inl (hrow hst)
  · rintro ⟨a', ha'⟩
    cases ok with
    | false => cases ha'
    | true =>
      rcases hstatus with hst | hst
      · simp only [relContract, hst, if_true] at ha'
        cases ha'
      · exact .inr (hfirst hst)
  · intro j hj
    exact .inl (hins ▸ hj)
  · intro j hj
    exact .inl (hsucc ▸ hj)

/-- `RelationTable::insert`: the rows of a pair are there once, so a call that inserts them is the
first to win. -/
theorem relInv_insert {uid pid : String} {now : ℤ} {c : RelChoice} {ok : Bool}
    (h : RelInv ts s) (hi : ts[i]? = some t)
    (ha : relContract.allowed t (insertRelation uid pid now))
    (hx : RelState.exec i (insertRelation uid pid now) c s = some (ok, s')) :
    RelInv (ts.set i (relContract.next t (insertRelation uid pid now) ok)) s' := by
  obtain ⟨a, hphase, rfl, rfl⟩ := ha
  have hrow : s.Row t.event_id a (· = .ACCEPTED) := by
    have hknows := h.knows i t hi
    rwa [RelCall.Knows, hphase] at hknows
  have hnot : ¬ t.Won := by
    rintro ⟨a', ha'⟩
    rw [hphase] at ha'
    cases ha'
  have hclosed : RelInv (ts.set i { t with phase := .closed }) s :=
    h.stay hi rfl trivial ⟨fun ⟨_, hw⟩ ↦ RelPhase.noConfusion hw, fun hw ↦ absurd hw hnot⟩
  simp only [RelState.exec] at hx
  cases hins : s.relations.insertAll (RelState.pair a.peer_id a.user_id now) with
  | none =>
    rw [hins] at hx
    obtain ⟨rfl, rfl⟩ := Prod.mk.inj (Option.some.inj hx)
    exact hclosed
  | some relations =>
    rw [hins] at hx
    obtain ⟨rfl, rfl⟩ := Prod.mk.inj (Option.some.inj hx)
    by_cases hacts : c.acts = true
    swap
    · rw [if_neg hacts, RelChoice.fault_of_not_acts hacts]
      exact hclosed
    rw [if_pos hacts]
    obtain ⟨hnew, -⟩ := Table.find_insertAll hins
    obtain ⟨habsent, hthere⟩ := hnew _ List.mem_cons_self
    have hk : s.Keeps (s.relate i relations) := by
      refine ⟨fun e b hb ↦ ⟨b, hb, rfl, fun _ ↦ rfl⟩, fun k hk ↦ ?_⟩
      obtain ⟨r, hr⟩ := Option.isSome_iff_exists.1 hk
      rw [show (s.relate i relations).relations.find k = some r from
        Table.find_of_insertAll hins hr]
      rfl
    have hrow' : (s.relate i relations).Row t.event_id a (· = .ACCEPTED) := hrow
    have hfirst : ∀ (j : ℕ) u, ts[j]? = some u → u.Won → u.event_id ≠ t.event_id := by
      rintro j u hu ⟨a', ha'⟩ hue
      obtain ⟨b, hb, hbparties, hst⟩ := hrow
      have hknows := h.knows j u hu
      rw [RelCall.Knows, ha', hue] at hknows
      rcases hknows with ⟨b', hb', -, hst'⟩ | ⟨⟨b', hb', hparties', -⟩, hrel⟩
      · obtain rfl : b = b' := Option.some.inj (hb.symm.trans hb')
        rw [hst] at hst'
        cases hst'
      · -- it has inserted the rows of the same pair
        obtain rfl : b = b' := Option.some.inj (hb.symm.trans hb')
        have hpair : a'.parties = a.parties := hparties'.symm.trans hbparties
        obtain ⟨-, hpair⟩ := Prod.mk.inj hpair
        obtain ⟨huser, hpeer⟩ := Prod.mk.inj hpair
        rw [huser, hpeer, show s.relations.find (a.peer_id, a.user_id) = none from habsent] at hrel
        cases hrel
    refine h.move hi hk rfl ?_ ?_ (h.left.keep hk rfl) (fun hw ↦ absurd hw hnot)
      (fun _ ↦ .inr hfirst) (fun j hj ↦ ?_) fun j hj ↦ .inl hj
    · cases c.fault with
      | false => simp only [relContract, hphase, Bool.not_false]
      | true => rfl
    · cases c.fault with
      | false =>
        simp only [relContract, hphase, Bool.not_false]
        refine .inr ⟨hrow', ?_⟩
        rw [show (s.relate i relations).relations.find (a.peer_id, a.user_id) = _ from hthere]
        rfl
      | true => exact trivial
    · rcases List.mem_cons.1 hj with rfl | hj
      · obtain ⟨b, hb, -, hst⟩ := hrow
        exact .inr ⟨rfl, b, hb, hst⟩
      · exact .inl hj

/-- **Every call of a thread** keeps what the calls and the tables agree on. -/
theorem relInv_call {o : RelOp} {c : RelChoice} {r : o.Res} (h : RelInv ts s)
    (hi : ts[i]? = some t) (ha : relContract.allowed t o) (hG : stillPending.onOp i o c s)
    (hx : RelState.exec i o c s = some (r, s')) :
    relContract.admits t o r ∧ RelInv (ts.set i (relContract.next t o r)) s' := by
  have hstay : RelInv (ts.set i t) s := h.stay hi rfl (h.knows i t hi) Iff.rfl
  cases o with
  | clock =>
    obtain ⟨-, rfl⟩ := Prod.mk.inj (Option.some.inj hx)
    exact ⟨trivial, hstay⟩
  | createConversation req =>
    obtain ⟨-, rfl⟩ := Prod.mk.inj (Option.some.inj hx)
    exact ⟨trivial, hstay⟩
  | selectApply event_id =>
    obtain ⟨rfl, hnot⟩ := ha
    obtain ⟨hr, rfl⟩ := Prod.mk.inj (Option.some.inj hx)
    have hnot' : ¬ t.Won := fun ⟨a, hw⟩ ↦ hnot a hw
    cases r with
    | none =>
      exact ⟨trivial, h.stay hi rfl trivial
        ⟨fun ⟨_, hw⟩ ↦ RelPhase.noConfusion hw, fun hw ↦ absurd hw hnot'⟩⟩
    | some a =>
      have hfind : s.applies.find t.event_id = some a := (Option.ite_none_left_eq_some.1 hr).2
      have hevent : a.event_id = t.event_id := Table.key_of_find hfind
      refine ⟨⟨hevent, fun b hb ↦ ?_⟩, h.stay hi rfl ⟨hevent, a, hfind, rfl, trivial⟩
        ⟨fun ⟨_, hw⟩ ↦ RelPhase.noConfusion hw, fun hw ↦ absurd hw hnot'⟩⟩
      have hknows := h.knows i t hi
      rw [RelCall.Knows, hb] at hknows
      obtain ⟨-, b', hb', hparties, -⟩ := hknows
      obtain rfl : a = b' := Option.some.inj (hfind.symm.trans hb')
      exact hparties
  | writeApply a =>
    obtain ⟨hr, rfl⟩ := Prod.mk.inj (Option.some.inj hx)
    exact ⟨trivial, relInv_write h hi ha hG r hr.symm⟩
  | insertRelation uid pid now => exact ⟨trivial, relInv_insert h hi ha hx⟩
  | respond rsp =>
    obtain ⟨-, rfl⟩ := Prod.mk.inj (Option.some.inj hx)
    cases rsp with
    | error e => exact ⟨trivial, hstay⟩
    | ok rsp =>
      have hk : s.Keeps { s with succeeded := i :: s.succeeded } := .of_eq rfl rfl
      refine ⟨trivial, h.move hi hk rfl rfl (hk.knows (h.knows i t hi)) (h.left.keep hk rfl) id .inl
        (fun j hj ↦ .inl hj) fun j hj ↦ ?_⟩
      rcases List.mem_cons.1 hj with rfl | hj
      · exact .inr ⟨rfl, ha⟩
      · exact .inl hj

end Steps

/-! ### Runs -/

theorem relInv_event {ts : List RelCall} {p p' : RelPool} {e : RelEv} (h : RelInv ts p.shared)
    (hm : p.Meets relContract (fun _ ↦ True) ts) (hx : RelState.env e p = some p') :
    ∃ ts', RelInv ts' p'.shared ∧ p'.Meets relContract (fun _ ↦ True) ts' := by
  cases e with
  | crash i =>
    obtain rfl := Option.some.inj hx
    exact ⟨ts, h, hm.stop (fun _ ↦ trivial) i _⟩
  | handle uid req =>
    obtain rfl := Option.some.inj hx
    have hmem {j : ℕ} {u : RelCall} (hu : ts[j]? = some u) :
        (ts ++ [⟨req.notify_event_id, .idle⟩])[j]? = some u := Pool.getElem?_append_of_some hu
    have hold {j : ℕ} {u : RelCall} (hu : (ts ++ [⟨req.notify_event_id, .idle⟩])[j]? = some u)
        (hw : u.Won) : ts[j]? = some u := by
      refine Pool.getElem?_of_append hu ?_
      rintro rfl
      obtain ⟨a, ha⟩ := hw
      cases ha
    refine ⟨ts ++ [⟨req.notify_event_id, .idle⟩], ⟨?_, fun j u hu ↦ ?_, ⟨h.left.gone, h.left.once⟩,
      fun j k u v hu hv hju hkv huv ↦ h.one j k u v (hold hu hju) (hold hv hkv) hju hkv huv,
      fun j hj ↦ ?_, fun j hj ↦ ?_⟩, hm.spawn (HandleFriendRequest_meets uid req) _⟩
    · rw [List.map_append, List.map_append, h.events]
      rfl
    · rcases Pool.getElem?_append_cases hu with ⟨-, rfl⟩ | ⟨-, hu⟩
      · exact trivial
      · exact h.knows j u hu
    · obtain ⟨t, a, ht, ha, hst⟩ := h.inserted j hj
      exact ⟨t, a, hmem ht, ha, hst⟩
    · obtain ⟨t, ht, hw⟩ := h.succeeded j hj
      exact ⟨t, hmem ht, hw⟩

theorem relInv_fresh {s : RelState} (hs : s.Fresh) : RelInv [] s where
  events := by rw [hs.requests]; rfl
  knows _ _ h := absurd h (by simp)
  left :=
    { gone e he := by rw [hs.left] at he; exact absurd he List.not_mem_nil
      once e := by rw [hs.left]; exact Nat.zero_le 1 }
  one _ _ _ _ h := absurd h (by simp)
  inserted i hi := by rw [hs.inserted] at hi; exact absurd hi List.not_mem_nil
  succeeded i hi := by rw [hs.succeeded] at hi; exact absurd hi List.not_mem_nil

/-- Where the calls and the tables agree, every event has been handled once at most. -/
theorem RelInv.handled {ts : List RelCall} {s : RelState} (h : RelInv ts s) (event_id : String) :
    s.Handled event_id := by
  have hcall {i : ℕ} {t : RelCall} (hon : s.On event_id i) (ht : ts[i]? = some t) :
      t.event_id = event_id := by
    obtain ⟨req, hreq, rfl⟩ := hon
    have hreq' : (s.requests.map (·.notify_event_id))[i]? = some req.notify_event_id := by
      rw [List.getElem?_map, hreq]
      rfl
    rw [h.events, List.getElem?_map, ht] at hreq'
    exact Option.some.inj hreq'
  refine ⟨h.left.once event_id, fun i hi j hj honi honj ↦ ?_, fun a ha hst i hi hon ↦ ?_⟩
  · obtain ⟨t, ht, hw⟩ := h.succeeded i hi
    obtain ⟨u, hu, hw'⟩ := h.succeeded j hj
    exact h.one i j t u ht hu hw hw' ((hcall honi ht).trans (hcall honj hu).symm)
  · obtain ⟨t, b, ht, hb, hst'⟩ := h.inserted i hi
    rw [hcall hon ht, ha] at hb
    obtain rfl := Option.some.inj hb
    rw [hst] at hst'
    cases hst'

/-- **A friend request is handled once** in every run in which a status is written over PENDING
only, or ACCEPTED over ACCEPTED. -/
theorem friend_request_handled (s₀ : RelState) (hs : s₀.Fresh) (p : RelPool)
    (hr : relationService.Reach stillPending ⟨[], s₀⟩ p) (event_id : String) :
    p.shared.Handled event_id := by
  obtain ⟨ts, h, -⟩ : ∃ ts, RelInv ts p.shared ∧ p.Meets relContract (fun _ ↦ True) ts := by
    refine Machine.invariant hr ⟨[], relInv_fresh hs, .nil⟩ ?_ ?_
    · intro ts s i t o c r s' h hi ha hG hx
      exact relInv_call h hi ha hG hx
    · intro ts p e p' h hm _ hx
      exact relInv_event h hm hx
  exact h.handled event_id

instance (i : ℕ) (o : RelOp) (c : RelChoice) (s : RelState) :
    Decidable (stillPending.onOp i o c s) :=
  match o with
  | .writeApply r =>
    match h : s.applies.find r.event_id with
    | none => .isTrue fun _ a ha ↦ by
        rw [h] at ha
        cases ha
    | some b =>
      decidable_of_iff
        (c.acts = true → b.status = .PENDING ∨ b.status = .ACCEPTED ∧ r.status = .ACCEPTED)
        ⟨fun hb hacts a ha ↦ by
          rw [h] at ha
          obtain rfl := Option.some.inj ha
          exact hb hacts, fun hb hacts ↦ hb hacts b h⟩
  | .clock => .isTrue trivial
  | .selectApply _ => .isTrue trivial
  | .insertRelation _ _ _ => .isTrue trivial
  | .createConversation _ => .isTrue trivial
  | .respond _ => .isTrue trivial

instance (e : RelEv) (p : RelPool) : Decidable (stillPending.onEv e p) := .isTrue trivial

/-- Alice has asked bob. -/
def aliceAsked : RelState where
  applies := ⟨[{ event_id := "e1", user_id := "alice", peer_id := "bob" }],
    List.pairwise_singleton _ _⟩

theorem aliceAsked_fresh : aliceAsked.Fresh := ⟨rfl, rfl, rfl, rfl⟩

/-- Bob answers on two devices; both calls have read the event before either writes. -/
def bobAnswers (agree : Bool) (n : ℕ) : List (Machine.Label RelChoice RelEv) :=
  [.event (.handle "bob" { notify_event_id := "e1", agree := true, apply_user_id := "alice" }),
    .event (.handle "bob" { notify_event_id := "e1", agree, apply_user_id := "alice" }),
    .call 0 {}, .call 1 {}] ++ List.replicate 7 (.call 0 {}) ++ List.replicate n (.call 1 {})

/-- Bob agrees twice: the rows of the relation are there when the second call comes to them. -/
theorem friend_request_handled_agreed :
    aliceAsked.Fresh ∧ ∃ p, relationService.Reach stillPending ⟨[], aliceAsked⟩ p ∧
      p.shared.succeeded = [0] ∧ p.shared.Handled "e1" := by
  obtain ⟨p, hp, hone⟩ := Machine.exists_of_run relationService stillPending ⟨[], aliceAsked⟩
    (bobAnswers true 6) (fun p ↦ p.shared.succeeded = [0]) (by decide)
  exact ⟨aliceAsked_fresh, p, hp, hone, friend_request_handled _ aliceAsked_fresh p hp "e1"⟩

/-- Bob agrees and rejects: both calls succeed, and the event is rejected with its relation
inserted. -/
theorem friend_request_agreed_and_rejected :
    ∃ p, relationService.Reach .any ⟨[], aliceAsked⟩ p ∧
      p.shared.succeeded = [1, 0] ∧ p.shared.inserted = [0] ∧
      (p.shared.applies.find "e1").map (·.status) = some .REJECTED ∧
      ¬ p.shared.Handled "e1" := by
  obtain ⟨p, hp, hsucc, hins, hst, hon⟩ := Machine.exists_of_run relationService .any
    ⟨[], aliceAsked⟩ (bobAnswers false 4)
    (fun p ↦ p.shared.succeeded = [1, 0] ∧ p.shared.inserted = [0] ∧
      (p.shared.applies.find "e1").map (·.status) = some .REJECTED ∧
      p.shared.requests.map (·.notify_event_id) = ["e1", "e1"]) (by decide)
  have hOn {i : ℕ} (hi : ["e1", "e1"][i]? = some "e1") : p.shared.On "e1" i := by
    rw [← hon, List.getElem?_map] at hi
    exact Option.map_eq_some_iff.1 hi
  refine ⟨p, hp, hsucc, hins, hst, fun h ↦ ?_⟩
  have heq := h.one_succeeds 1 (by rw [hsucc]; decide) 0 (by rw [hsucc]; decide)
    (hOn rfl) (hOn rfl)
  omega

end ChatNow
