import ChatNow.Relationship.Friendship

/-!
# One pending request

Any number of calls of `SendFriendRequest`, `HandleFriendRequest` and `RemoveFriend` as threads over
the tables. `SendFriendRequest` asks `exists_pending` in one transaction and inserts its row in
another, and nothing but the event id is unique in `friend_apply`: of two calls of one user to one
peer that have both asked before either inserts, both insert (`two_requests_pending`).

`ApplyState.OnePending` is what the check is there for: a user has one request to a peer PENDING at
most, and `exists_pending` sees it. `one_request_pending` is about the runs in which a call that
inserts finds no request PENDING that was not there when it asked, and in which `exists_pending`
does not fail where it has something to find. Then the check is what keeps a second request away:
what was there when the call asked was not PENDING (`ApplyPhase.free`), and a status that is written
is never PENDING.
-/

namespace ChatNow

open Prog FriendOp

/-- The request of the one user to the other waits for an answer. -/
def FriendApply.Asks (a : FriendApply) (uid pid : String) : Prop :=
  a.user_id = uid ∧ a.peer_id = pid ∧ a.status = .PENDING

instance (a : FriendApply) (uid pid : String) : Decidable (a.Asks uid pid) :=
  inferInstanceAs (Decidable (_ ∧ _))

/-- How many requests of the one user to the other are PENDING. -/
def RelState.pendings (s : RelState) (uid pid : String) : ℕ :=
  s.applies.count fun a ↦ decide (a.Asks uid pid)

/-! ### The machine -/

/-- What the environment decides at a call. -/
structure ApplyChoice extends FriendChoice where
  /-- What `query_one` makes of more than one row. -/
  more : Bool := false

/-- The tables, and what the calls have seen of them. -/
structure ApplyState where
  tables : RelState := {}
  /-- For a thread that has called `exists_pending`, the requests of the pair that were there. -/
  asked : List (ℕ × String) := []

namespace ApplyState

variable (s : ApplyState)

/-- What `exists_pending` answers. `query_one` is for queries with one row at most: with more rows
an assertion fails, or what it answers is not known. -/
def exists_pending (uid pid : String) (c : ApplyChoice) : Bool :=
  !c.fault && if s.tables.pendings uid pid ≤ 1 then
    (s.tables.appliesOf uid pid).any (·.status = .PENDING) else c.more

/-- The effect of a call by thread `i`. -/
def exec (i : ℕ) : (o : FriendOp) → ApplyChoice → ApplyState → Option (o.Res × ApplyState)
  | .handling o, c, s =>
    (s.tables.exec i o c.toRelChoice).map fun x ↦ (x.1, { s with tables := x.2 })
  | .exists_pending uid pid, c, s =>
    some (s.exists_pending uid pid c, { s with
      asked := (s.tables.appliesOf uid pid).map (fun a ↦ (i, a.event_id)) ++ s.asked })
  | o, c, s => (o.exec c.toFriendChoice s.tables).map fun x ↦ (x.1, { s with tables := x.2 })

end ApplyState

/-- What a call does. -/
def FriendCall.text : FriendCall → FriendM Unit
  | send uid req => do
    let _ ← SendFriendRequest uid req
    return ()
  | handle peer_uid req => do
    let _ ← HandleFriend peer_uid req
    return ()
  | remove uid req => do
    let _ ← RemoveFriend uid req
    return ()

/-- What can happen beside the transactions. -/
inductive ApplyEv
  /-- A request arrives. -/
  | call (c : FriendCall)
  /-- A thread is gone. -/
  | crash (i : ℕ)

abbrev ApplyPool := Pool FriendOp FriendOp.Res ApplyState

/-- The effect of an event. -/
def ApplyState.env : ApplyEv → ApplyPool → Option ApplyPool
  | .call c, p => some ⟨p.threads ++ [c.text], p.shared⟩
  | .crash i, p => some ⟨p.threads.set i (.ret ()), p.shared⟩

/-- The relationship service, with all calls that touch `friend_apply`. -/
def applyService : Machine FriendOp FriendOp.Res ApplyState ApplyChoice ApplyEv :=
  ⟨ApplyState.exec, ApplyState.env⟩

/-- One request is PENDING at most, and `exists_pending` answers whether there is one, unless it
fails where there is. -/
structure ApplyState.OnePending (s : ApplyState) : Prop where
  le_one : ∀ uid pid, s.tables.pendings uid pid ≤ 1
  seen : ∀ uid pid i c, (c.fault = true → s.tables.pendings uid pid = 0) →
    ∃ s', s.exec i (.exists_pending uid pid) c =
      some (decide (0 < s.tables.pendings uid pid), s')

/-- `exists_pending` does not fail while a request is PENDING, and a call that inserts finds no
request PENDING that was not there when it asked. -/
def pendingSeen : Machine.Guard FriendOp FriendOp.Res ApplyState ApplyChoice ApplyEv where
  onOp i o c s :=
    match o with
    | .exists_pending uid pid => c.fault = true → s.tables.pendings uid pid = 0
    | .insertApply ev => c.acts = true → ∀ a ∈ s.tables.applies.rows,
        a.Asks ev.user_id ev.peer_id → (i, a.event_id) ∈ s.asked
    | _ => True
  onEv _ _ := True

/-! ### The contract of a call -/

/-- How far a call has come. -/
inductive ApplyPhase
  | idle
  /-- It was told that no request of the pair is PENDING. -/
  | free (uid pid : String)
  | closed
  deriving DecidableEq

/-- What a call may do. -/
def applyContract : Contract FriendOp FriendOp.Res ApplyPhase where
  allowed t o :=
    match o with
    | .handling (.writeApply r) => r.status ≠ .PENDING
    | .exists_pending _ _ => t = .idle
    | .insertApply ev => t = .free ev.user_id ev.peer_id
    | _ => True
  admits _ _ _ := True
  next t o r :=
    match o, r with
    | .exists_pending uid pid, false => .free uid pid
    | .insertApply _, _ => .closed
    | _, _ => t

section Meets

variable {uid pid : String} {t : ApplyPhase}

theorem rejected_lately_meets (last : Option FriendApply) :
    (rejected_lately last).Meets applyContract t fun t' _ ↦ t' = t := by
  cases last with
  | none => rfl
  | some last =>
    rw [rejected_lately]
    split
    · exact ⟨trivial, fun _ _ ↦ rfl⟩
    · rfl

theorem record_apply_pending_meets :
    (record_apply uid pid).Meets applyContract (.free uid pid) fun _ _ ↦ True := by
  refine meets_op_bind.2 ⟨trivial, fun event_id _ ↦ meets_op_bind.2 ⟨trivial, fun now _ ↦ ?_⟩⟩
  refine meets_op_bind.2 ⟨trivial, fun create_time _ ↦ meets_op_bind.2 ⟨rfl, fun ok _ ↦ ?_⟩⟩
  cases ok <;> trivial

/-- A request is inserted by a call that was told that there is none. -/
theorem SendFriendRequest_meets (req : SendFriendReq) :
    (SendFriendRequest uid req).Meets applyContract .idle fun _ _ ↦ True := by
  rw [SendFriendRequest]
  split
  · trivial
  · refine meets_op_bind.2 ⟨trivial, fun blocked _ ↦ ?_⟩
    cases blocked with
    | true => trivial
    | false =>
      refine meets_op_bind.2 ⟨trivial, fun friends _ ↦ ?_⟩
      cases friends with
      | true => trivial
      | false =>
        refine meets_op_bind.2 ⟨rfl, fun pending _ ↦ ?_⟩
        cases pending with
        | true => trivial
        | false =>
          refine meets_op_bind.2 ⟨trivial, fun last _ ↦ ?_⟩
          refine (rejected_lately_meets last).bind fun t lately ht ↦ ?_
          obtain rfl := ht
          cases lately with
          | true => trivial
          | false => exact record_apply_pending_meets

theorem update_status_meets {event_id : String} {st : FriendApplyStatus} (hst : st ≠ .PENDING) :
    (FriendApplyTable.update_status event_id st).Meets (applyContract.comap handling) t
      fun _ _ ↦ True := by
  refine meets_op_bind.2 ⟨trivial, fun r _ ↦ ?_⟩
  cases r with
  | none => trivial
  | some r => exact meets_op_bind.2 ⟨trivial, fun now _ ↦ ⟨hst, fun _ _ ↦ trivial⟩⟩

/-- Handling a request never makes one PENDING. -/
theorem handle_friend_request_meets (req : HandleFriendReq) :
    (handle_friend_request uid req).Meets (applyContract.comap handling) t fun _ _ ↦ True := by
  have hpending : ∀ t, (handle_pending uid req).Meets (applyContract.comap handling) t
      fun _ _ ↦ True := by
    intro t
    rw [handle_pending]
    split
    · refine (update_status_meets (by decide)).bind fun t ok _ ↦ ?_
      cases ok <;> trivial
    · refine (update_status_meets (by decide)).bind fun t ok _ ↦ ?_
      cases ok with
      | false => trivial
      | true =>
        refine meets_op_bind.2 ⟨trivial, fun now _ ↦ meets_op_bind.2 ⟨trivial, fun ok _ ↦ ?_⟩⟩
        cases ok with
        | false => trivial
        | true =>
          refine meets_op_bind.2 ⟨trivial, fun rsp _ ↦ ?_⟩
          rcases rsp with _ | (_ | _) <;> trivial
  rw [handle_friend_request]
  split
  · trivial
  · refine meets_op_bind.2 ⟨trivial, fun ev _ ↦ ?_⟩
    cases ev with
    | none => trivial
    | some ev =>
      show Prog.Meets _ (ite _ _ _) _ _
      split
      · trivial
      · split
        · trivial
        · exact hpending _

/-- Every call keeps to the contract. -/
theorem FriendCall.text_meets (c : FriendCall) :
    c.text.Meets applyContract .idle fun _ _ ↦ True := by
  cases c with
  | send uid req => exact (SendFriendRequest_meets req).bind fun _ _ _ ↦ trivial
  | handle uid req =>
    exact (Meets.lift (handle_friend_request_meets req)).bind fun _ _ _ ↦ trivial
  | remove uid req =>
    have hbody : (RemoveFriend uid req).Meets applyContract .idle fun _ _ ↦ True := by
      rw [RemoveFriend]
      split
      · trivial
      · refine meets_op_bind.2 ⟨trivial, fun friends _ ↦ ?_⟩
        cases friends with
        | false => trivial
        | true =>
          refine meets_op_bind.2 ⟨trivial, fun now _ ↦ meets_op_bind.2 ⟨trivial, fun ok _ ↦ ?_⟩⟩
          cases ok <;> trivial
    exact hbody.bind fun _ _ _ ↦ trivial

end Meets

/-! ### The invariant -/

/-- A call that was told that nothing is PENDING has seen no request that is. -/
structure PendingInv (ts : List ApplyPhase) (s : ApplyState) : Prop where
  le_one : ∀ uid pid, s.tables.pendings uid pid ≤ 1
  asked : ∀ x ∈ s.asked, ∃ a ∈ s.tables.applies.rows, a.event_id = x.2
  free : ∀ i uid pid, ts[i]? = some (.free uid pid) → ∀ a ∈ s.tables.applies.rows,
    a.Asks uid pid → (i, a.event_id) ∉ s.asked

section Steps

variable {ts : List ApplyPhase} {s s' : ApplyState} {i : ℕ} {t : ApplyPhase}

theorem pendings_eq_zero {s : RelState} {uid pid : String} :
    s.pendings uid pid = 0 ↔ ∀ a ∈ s.applies.rows, ¬a.Asks uid pid := by
  simp only [RelState.pendings, Table.count, List.countP_eq_zero, decide_eq_true_eq]

/-- The rows change from the first table to the second one without a new request. -/
structure Settles (s s' : RelState) : Prop where
  count : ∀ uid pid, s'.pendings uid pid ≤ s.pendings uid pid
  kept : ∀ a ∈ s.applies.rows, ∃ b ∈ s'.applies.rows, b.event_id = a.event_id
  old : ∀ a ∈ s'.applies.rows, a.status = .PENDING → a ∈ s.applies.rows

theorem Settles.of_eq {s s' : RelState} (h : s'.applies = s.applies) : Settles s s' where
  count uid pid := Nat.le_of_eq (by rw [RelState.pendings, RelState.pendings, h])
  kept a ha := ⟨a, h ▸ ha, rfl⟩
  old a ha _ := h ▸ ha

/-- A status that is not PENDING is written. -/
theorem Settles.write {s : RelState} {r : FriendApply} (hr : r.status ≠ .PENDING) :
    Settles s (s.write r) := by
  rw [RelState.write]
  cases hfind : s.applies.find r.event_id with
  | none => exact .of_eq rfl
  | some r₀ =>
    refine ⟨fun uid pid ↦ ?_, fun a ha ↦ ?_, fun a ha hst ↦ ?_⟩
    · have hcount := Table.count_write hfind fun a ↦ decide (a.Asks uid pid)
      have hnot : ¬r.Asks uid pid := fun h ↦ hr h.2.2
      rw [decide_eq_false hnot, if_neg Bool.false_ne_true] at hcount
      show (s.applies.write r).count _ ≤ s.applies.count _
      omega
    · refine ⟨_, List.mem_map_of_mem ha, ?_⟩
      split
      · next h => exact h.symm
      · rfl
    · obtain ⟨b, hb, rfl⟩ := List.mem_map.1 ha
      split at hst
      · exact absurd hst hr
      · next h =>
        rw [if_neg h]
        exact hb

/-- What makes no request PENDING keeps the invariant. -/
theorem PendingInv.settle (h : PendingInv ts s) (hs : Settles s.tables s'.tables)
    (hasked : s'.asked = s.asked) (ht : ts[i]? = some t) : PendingInv (ts.set i t) s' where
  le_one uid pid := Nat.le_trans (hs.count uid pid) (h.le_one uid pid)
  asked x hx := by
    rw [hasked] at hx
    obtain ⟨a, ha, hax⟩ := h.asked x hx
    obtain ⟨b, hb, hba⟩ := hs.kept a ha
    exact ⟨b, hb, hba.trans hax⟩
  free j uid pid hj a ha hasks := by
    have hj' : ts[j]? = some (.free uid pid) := by
      rcases Pool.getElem?_set_cases hj with ⟨rfl, heq⟩ | ⟨-, hj⟩
      · rw [ht, heq]
      · exact hj
    rw [hasked]
    exact h.free j uid pid hj' a (hs.old a ha hasks.2.2) hasks

/-- The invariant looks at the two users of a call only while it is told that it is free. -/
theorem PendingInv.close (h : PendingInv ts s) : PendingInv (ts.set i .closed) s :=
  ⟨h.le_one, h.asked, fun j uid pid hj ↦
    h.free j uid pid (Pool.getElem?_of_set hj ApplyPhase.noConfusion)⟩

theorem any_pending {s : RelState} {uid pid : String} :
    (s.appliesOf uid pid).any (·.status = .PENDING) = decide (0 < s.pendings uid pid) := by
  rw [Bool.eq_iff_iff, decide_eq_true_eq, Nat.pos_iff_ne_zero, Ne, pendings_eq_zero]
  push Not
  simp only [List.any_eq_true, decide_eq_true_eq, RelState.appliesOf, List.mem_filter,
    FriendApply.Asks, and_assoc]

/-- Where one request is PENDING at most, `exists_pending` sees it. -/
theorem exists_pending_eq {uid pid : String} {c : ApplyChoice}
    (h : s.tables.pendings uid pid ≤ 1)
    (hfault : c.fault = true → s.tables.pendings uid pid = 0) :
    s.exists_pending uid pid c = decide (0 < s.tables.pendings uid pid) := by
  rw [ApplyState.exists_pending, if_pos h, any_pending]
  cases hc : c.fault with
  | false => rfl
  | true =>
    rw [hfault hc]
    rfl

/-- `exists_pending`: what is noted for a call that goes on is not PENDING. -/
theorem pendingInv_exists_pending {uid pid : String} {c : ApplyChoice} (h : PendingInv ts s)
    (ht : ts[i]? = some .idle) (hG : pendingSeen.onOp i (.exists_pending uid pid) c s) :
    PendingInv (ts.set i (applyContract.next .idle (.exists_pending uid pid)
        (s.exists_pending uid pid c)))
      { s with
        asked := (s.tables.appliesOf uid pid).map (fun a ↦ (i, a.event_id)) ++ s.asked } := by
  rw [exists_pending_eq (h.le_one uid pid) hG]
  refine ⟨h.le_one, fun x hx ↦ ?_, fun j u p hj a ha hasks hmem ↦ ?_⟩
  · rcases List.mem_append.1 hx with hx | hx
    · obtain ⟨a, ha, rfl⟩ := List.mem_map.1 hx
      exact ⟨a, (List.mem_filter.1 ha).1, rfl⟩
    · exact h.asked x hx
  · rcases Pool.getElem?_set_cases hj with ⟨rfl, heq⟩ | ⟨hji, hj⟩
    · -- the call has been told that there is none, so none is PENDING now
      by_cases hpos : 0 < s.tables.pendings uid pid
      · rw [decide_eq_true hpos] at heq
        cases heq
      · rw [decide_eq_false hpos] at heq
        obtain ⟨rfl, rfl⟩ := ApplyPhase.free.inj heq
        exact pendings_eq_zero.1 (Nat.eq_zero_of_not_pos hpos) a ha hasks
    · rcases List.mem_append.1 hmem with hmem | hmem
      · obtain ⟨b, -, hb⟩ := List.mem_map.1 hmem
        exact hji (Prod.mk.inj hb).1.symm
      · exact h.free j u p hj a ha hasks hmem

/-- `insert`: under the assumption nothing is PENDING there, since the call was told so. -/
theorem pendingInv_insert {ev : FriendApply} {applies : Table FriendApply.event_id}
    (h : PendingInv ts s) (ht : ts[i]? = some (.free ev.user_id ev.peer_id))
    (hG : ∀ a ∈ s.tables.applies.rows, a.Asks ev.user_id ev.peer_id → (i, a.event_id) ∈ s.asked)
    (hins : s.tables.applies.insert ev = some applies) :
    PendingInv (ts.set i .closed) { s with tables := { s.tables with applies } } := by
  obtain ⟨hnew, hrows⟩ := Table.rows_of_insert hins
  have hnone : s.tables.pendings ev.user_id ev.peer_id = 0 :=
    pendings_eq_zero.2 fun a ha hasks ↦ h.free i _ _ ht a ha hasks (hG a ha hasks)
  refine ⟨fun uid pid ↦ ?_, fun x hx ↦ ?_, fun j uid pid hj a ha hasks hmem ↦ ?_⟩
  · have hcount : applies.count _ = s.tables.applies.count _ + _ :=
      Table.count_insert hins fun a ↦ decide (a.Asks uid pid)
    have hle := h.le_one uid pid
    show applies.count _ ≤ 1
    rw [hcount]
    by_cases hasks : ev.Asks uid pid
    · obtain ⟨rfl, rfl, -⟩ := hasks
      rw [show s.tables.applies.count _ = 0 from hnone, Nat.zero_add]
      split <;> omega
    · rw [decide_eq_false hasks, if_neg Bool.false_ne_true]
      exact hle
  · obtain ⟨a, ha, hax⟩ := h.asked x hx
    refine ⟨a, ?_, hax⟩
    rw [hrows]
    exact List.mem_append_left _ ha
  · have hj' := Pool.getElem?_of_set hj ApplyPhase.noConfusion
    rw [hrows] at ha
    rcases List.mem_append.1 ha with ha | ha
    · exact h.free j uid pid hj' a ha hasks hmem
    · -- nobody has seen the new request
      obtain rfl := List.mem_singleton.1 ha
      obtain ⟨b, hb, hbx⟩ := h.asked _ hmem
      exact (Table.find_eq_none _).1 hnew b hb hbx

/-- An operation of `HandleFriendRequest` settles requests at most. -/
theorem settles_of_exec {s s' : RelState} {o : RelOp} {c : RelChoice} {r : o.Res}
    (ha : applyContract.allowed t (handling o)) (hx : s.exec i o c = some (r, s')) :
    Settles s s' := by
  cases o with
  | clock | selectApply | createConversation =>
    obtain ⟨-, rfl⟩ := Prod.mk.inj (Option.some.inj hx)
    exact .of_eq rfl
  | writeApply ev =>
    obtain ⟨-, rfl⟩ := Prod.mk.inj (Option.some.inj hx)
    split
    · exact .write ha
    · exact .of_eq rfl
  | insertRelation uid pid now =>
    simp only [RelState.exec] at hx
    split at hx
    · obtain ⟨-, rfl⟩ := Prod.mk.inj (Option.some.inj hx)
      exact .of_eq rfl
    · obtain ⟨-, rfl⟩ := Prod.mk.inj (Option.some.inj hx)
      split <;> exact .of_eq rfl
  | respond rsp =>
    obtain ⟨-, rfl⟩ := Prod.mk.inj (Option.some.inj hx)
    cases rsp <;> exact .of_eq rfl

/-- **Every call of a thread** keeps the invariant. -/
theorem pendingInv_call {o : FriendOp} {c : ApplyChoice} {r : o.Res} (h : PendingInv ts s)
    (ht : ts[i]? = some t) (ha : applyContract.allowed t o) (hG : pendingSeen.onOp i o c s)
    (hx : s.exec i o c = some (r, s')) : PendingInv (ts.set i (applyContract.next t o r)) s' := by
  cases o with
  | handling o =>
    obtain ⟨⟨r', s₁⟩, hx', heq⟩ := Option.map_eq_some_iff.1 hx
    obtain ⟨rfl, rfl⟩ := Prod.mk.inj heq
    exact h.settle (settles_of_exec ha hx') rfl ht
  | exists_pending uid pid =>
    obtain ⟨rfl, rfl⟩ := Prod.mk.inj (Option.some.inj hx)
    obtain rfl : t = .idle := ha
    exact pendingInv_exists_pending h ht hG
  | insertApply ev =>
    obtain ⟨⟨r', s₁⟩, hx', heq⟩ := Option.map_eq_some_iff.1 hx
    obtain ⟨rfl, rfl⟩ := Prod.mk.inj heq
    simp only [FriendOp.exec] at hx'
    split at hx'
    · obtain ⟨-, rfl⟩ := Prod.mk.inj (Option.some.inj hx')
      exact h.close
    · next applies hins =>
      obtain ⟨-, rfl⟩ := Prod.mk.inj (Option.some.inj hx')
      split
      · next hacts =>
        obtain rfl : t = .free ev.user_id ev.peer_id := ha
        exact pendingInv_insert h ht (hG hacts) hins
      · exact h.close
  | is_blocked | relationExists | uuid =>
    obtain ⟨-, rfl⟩ := Prod.mk.inj (Option.some.inj hx)
    exact h.settle (.of_eq rfl) rfl ht
  | removeRelation uid pid now =>
    obtain ⟨-, rfl⟩ := Prod.mk.inj (Option.some.inj hx)
    refine h.settle (.of_eq ?_) rfl ht
    show RelState.applies (ite _ _ _) = _
    split <;> rfl
  | select_latest uid pid =>
    obtain ⟨⟨r', s₁⟩, hx', heq⟩ := Option.map_eq_some_iff.1 hx
    obtain ⟨rfl, rfl⟩ := Prod.mk.inj heq
    simp only [FriendOp.exec] at hx'
    split at hx'
    · obtain ⟨-, rfl⟩ := Prod.mk.inj (Option.some.inj hx')
      exact h.settle (.of_eq rfl) rfl ht
    · split at hx'
      · obtain ⟨-, rfl⟩ := Prod.mk.inj (Option.some.inj hx')
        exact h.settle (.of_eq rfl) rfl ht
      · cases hx'

end Steps

/-! ### Runs -/

theorem pendingInv_event {ts : List ApplyPhase} {p p' : ApplyPool} {e : ApplyEv}
    (h : PendingInv ts p.shared) (hm : p.Meets applyContract (fun _ ↦ True) ts)
    (hx : ApplyState.env e p = some p') :
    ∃ ts', PendingInv ts' p'.shared ∧ p'.Meets applyContract (fun _ ↦ True) ts' := by
  cases e with
  | crash i =>
    obtain rfl := Option.some.inj hx
    exact ⟨ts, h, hm.stop (fun _ ↦ trivial) i _⟩
  | call c =>
    obtain rfl := Option.some.inj hx
    refine ⟨ts ++ [.idle], ⟨h.le_one, h.asked, fun j uid pid hj ↦ ?_⟩, hm.spawn c.text_meets _⟩
    exact h.free j uid pid (Pool.getElem?_of_append hj ApplyPhase.noConfusion)

theorem PendingInv.onePending {ts : List ApplyPhase} {s : ApplyState} (h : PendingInv ts s) :
    s.OnePending where
  le_one := h.le_one
  seen uid pid _ _ hc :=
    ⟨_, congrArg some (Prod.ext (exists_pending_eq (h.le_one uid pid) hc) rfl)⟩

/-- **One request is PENDING at most**, and `exists_pending` sees it, in every run in which a call
that inserts finds no request PENDING that was not there when it asked, and `exists_pending` does
not fail where it has something to find. -/
theorem one_request_pending (s₀ : ApplyState) (hone : ∀ uid pid, s₀.tables.pendings uid pid ≤ 1)
    (hasked : s₀.asked = []) (p : ApplyPool) (hr : applyService.Reach pendingSeen ⟨[], s₀⟩ p) :
    p.shared.OnePending := by
  obtain ⟨ts, h, -⟩ : ∃ ts, PendingInv ts p.shared ∧
      p.Meets applyContract (fun _ ↦ True) ts := by
    refine Machine.invariant hr ⟨[], ⟨hone, fun x hx ↦ ?_, fun i uid pid hi ↦ ?_⟩, .nil⟩ ?_ ?_
    · rw [hasked] at hx
      exact absurd hx List.not_mem_nil
    · simp at hi
    · intro ts s i t o c r s' h hi ha hG hx
      exact ⟨trivial, pendingInv_call h hi ha hG hx⟩
    · intro ts p e p' h hm _ hx
      exact pendingInv_event h hm hx
  exact h.onePending

instance (i : ℕ) (o : FriendOp) (c : ApplyChoice) (s : ApplyState) :
    Decidable (pendingSeen.onOp i o c s) :=
  match o with
  | .exists_pending uid pid =>
    inferInstanceAs (Decidable (c.fault = true → s.tables.pendings uid pid = 0))
  | .insertApply ev =>
    inferInstanceAs (Decidable (c.acts = true → ∀ a ∈ s.tables.applies.rows,
      a.Asks ev.user_id ev.peer_id → (i, a.event_id) ∈ s.asked))
  | .handling _ => .isTrue trivial
  | .is_blocked _ _ => .isTrue trivial
  | .relationExists _ _ => .isTrue trivial
  | .select_latest _ _ => .isTrue trivial
  | .uuid => .isTrue trivial
  | .removeRelation _ _ _ => .isTrue trivial

instance (e : ApplyEv) (p : ApplyPool) : Decidable (pendingSeen.onEv e p) := .isTrue trivial

/-- Alice clicks twice. -/
def aliceClicks : List (Machine.Label ApplyChoice ApplyEv) :=
  [.event (.call (.send "alice" ⟨"bob"⟩)), .event (.call (.send "alice" ⟨"bob"⟩))]

/-- The rest of a call that has passed all checks. -/
def recordsApply (i : ℕ) (event_id : String) : List (Machine.Label ApplyChoice ApplyEv) :=
  [.call i { uuid := event_id }, .call i {}, .call i {}, .call i {}]

/-- Alice's second click comes after her first one, and is refused. -/
theorem one_request_pending_after_two_clicks :
    ∃ p, applyService.Reach pendingSeen ⟨[], {}⟩ p ∧
      p.shared.tables.pendings "alice" "bob" = 1 ∧ p.shared.OnePending := by
  obtain ⟨p, hp, hone⟩ := Machine.exists_of_run applyService pendingSeen ⟨[], {}⟩
    (aliceClicks ++ List.replicate 4 (.call 0 {}) ++ recordsApply 0 "e1" ++
      List.replicate 3 (.call 1 {}))
    (fun p ↦ p.shared.tables.pendings "alice" "bob" = 1) (by decide +kernel)
  exact ⟨p, hp, hone, one_request_pending {} (fun _ _ ↦ Nat.zero_le 1) rfl p hp⟩

/-- Both of alice's calls ask before either inserts: bob has two requests of hers, and what
`exists_pending` answers to the next call is not known. -/
theorem two_requests_pending :
    ∃ p, applyService.Reach .any ⟨[], {}⟩ p ∧ p.shared.tables.pendings "alice" "bob" = 2 ∧
      ¬p.shared.OnePending := by
  obtain ⟨p, hp, htwo⟩ := Machine.exists_of_run applyService .any ⟨[], {}⟩
    (aliceClicks ++ List.replicate 4 (.call 0 {}) ++ List.replicate 4 (.call 1 {}) ++
      recordsApply 0 "e1" ++ recordsApply 1 "e2")
    (fun p ↦ p.shared.tables.pendings "alice" "bob" = 2) (by decide +kernel)
  refine ⟨p, hp, htwo, fun h ↦ ?_⟩
  have hle := h.le_one "alice" "bob"
  omega

end ChatNow
