import ChatNow.Lib.Exec
import ChatNow.Relationship.HandleFriendRequest

/-!
# Friends, strangers and friends again

`SendFriendRequest` and `RemoveFriend` of `relationship/source/relationship_server.h`, beside
`HandleFriendRequest`, and the histories of their calls: the calls come one after another, and any
transaction of any of them may fail, with or without its effect.

`RelationTable::remove` marks the rows of a pair and keeps them, and `uk_user_peer` is over all
rows. So the rows of a pair can be inserted once, and two users who have been friends cannot become
friends again: the acceptance is committed, and the insert after it fails
(`agree_all_or_nothing`, `second_acceptance_fails`).
-/

namespace ChatNow

open Prog

/-! ### The text -/

/-- `SendFriendReq`. -/
structure SendFriendReq where
  respondent_id : String
  deriving DecidableEq

/-- `SendFriendRsp`, beside its header. -/
structure SendFriendRsp where
  notify_event_id : String
  deriving DecidableEq

/-- `RemoveFriendReq`. -/
structure RemoveFriendReq where
  peer_id : String
  deriving DecidableEq

/-- The operations of the three requests. -/
inductive FriendOp
  /-- An operation of `HandleFriendRequest`. -/
  | handling (o : RelOp)
  /-- `UserBlockTable::is_blocked`. -/
  | is_blocked (blocker blocked : String)
  /-- `RelationTable::exists`; a query that fails answers `false`. -/
  | relationExists (uid pid : String)
  /-- `FriendApplyTable::exists_pending`; a query that fails answers `false`. -/
  | exists_pending (uid pid : String)
  /-- `FriendApplyTable::select_latest`; a query that fails answers as if there were none. -/
  | select_latest (uid pid : String)
  | uuid
  /-- The commit of `FriendApplyTable::insert`. -/
  | insertApply (ev : FriendApply)
  /-- The commit of `RelationTable::remove`, at the given time. -/
  | removeRelation (uid pid : String) (now : ℤ)

/-- What each operation answers. -/
@[reducible]
def FriendOp.Res : FriendOp → Type
  | handling o => o.Res
  | is_blocked _ _ => Bool
  | relationExists _ _ => Bool
  | exists_pending _ _ => Bool
  | select_latest _ _ => Option FriendApply
  | uuid => String
  | insertApply _ => Bool
  | removeRelation _ _ _ => Bool

/-- Programs of the three requests. -/
abbrev FriendM := Prog FriendOp FriendOp.Res

open FriendOp

/-- `microsec_clock::universal_time`. -/
def universal_time : FriendM ℤ := op (handling .clock)

/-- `boost::posix_time::hours`, in microseconds. -/
def hours (n : ℤ) : ℤ := n * 3600000000

/-- `FriendApplyTable::insert`. -/
def FriendApplyTable.insert (ev : FriendApply) : FriendM Bool := do
  let create_time ← universal_time
  op (insertApply { ev with create_time })

/-- `RelationTable::remove`. -/
def RelationTable.remove (uid pid : String) : FriendM Bool := do
  let now ← universal_time
  op (removeRelation uid pid now)

/-- A new request is recorded. -/
def record_apply (uid pid : String) : FriendM (Except ServiceError SendFriendRsp) := do
  let event_id ← op uuid
  let create_time ← universal_time
  if ← FriendApplyTable.insert { event_id, user_id := uid, peer_id := pid, create_time } then
    return .ok ⟨event_id⟩
  else return .error ⟨error.kSystemInternalError, "insert friend_apply failed"⟩

/-- The last request was rejected less than 72 hours ago. -/
def rejected_lately : Option FriendApply → FriendM Bool
  | none => return false
  | some last => do
    if last.status = .REJECTED then
      let now ← universal_time
      return decide (now - last.create_time < hours 72)
    else return false

/-- `SendFriendRequest`, for a caller that is logged in. -/
def SendFriendRequest (uid : String) (req : SendFriendReq) :
    FriendM (Except ServiceError SendFriendRsp) := do
  if req.respondent_id = "" ∨ uid = req.respondent_id then
    return .error ⟨error.kSystemInvalidArgument, "invalid respondent_id"⟩
  else if ← op (is_blocked req.respondent_id uid) then
    return .error ⟨error.kRelationshipBlocked, "blocked by peer"⟩
  else if ← op (relationExists uid req.respondent_id) then
    return .error ⟨error.kRelationshipAlreadyFriends, "already friends"⟩
  else if ← op (exists_pending uid req.respondent_id) then
    return .error ⟨error.kRelationshipRequestPending, "friend request already pending"⟩
  else
    let last ← op (select_latest uid req.respondent_id)
    if ← rejected_lately last then
      return .error ⟨error.kRelationshipRequestPending, "rejected within 72h"⟩
    else record_apply uid req.respondent_id

/-- `RemoveFriend`, for a caller that is logged in. -/
def RemoveFriend (uid : String) (req : RemoveFriendReq) : FriendM (Except ServiceError Unit) := do
  if req.peer_id = "" ∨ uid = req.peer_id then
    return .error ⟨error.kSystemInvalidArgument, "invalid peer_id"⟩
  else if ← op (relationExists uid req.peer_id) then
    if ← RelationTable.remove uid req.peer_id then return .ok ()
    else return .error ⟨error.kSystemInternalError, "remove relation failed"⟩
  else return .error ⟨error.kRelationshipNotFriends, "not friends"⟩

/-! ### The tables -/

/-- What the environment decides at a call. -/
structure FriendChoice extends RelChoice where
  /-- Whether the caller is blocked. -/
  blocked : Bool := false
  /-- The row that the query for the latest request returns. -/
  latest : Option FriendApply := none
  uuid : String := ""

namespace RelState

variable (s : RelState)

/-- The row `(uid, pid)` is there and `NORMAL`. -/
def normal (uid pid : String) : Bool := (s.relations.find (uid, pid)).any (·.status = .NORMAL)

/-- The two users are friends, in both directions. -/
def Friends (uid pid : String) : Prop := s.normal uid pid = true ∧ s.normal pid uid = true

/-- There is a row of the pair, whatever its status. -/
def Related (uid pid : String) : Prop :=
  s.relations.find (uid, pid) ≠ none ∨ s.relations.find (pid, uid) ≠ none

instance (uid pid : String) : Decidable (s.Friends uid pid) := inferInstanceAs (Decidable (_ ∧ _))

/-- `soft_delete`. -/
def soft_delete (uid pid : String) (now : ℤ) (t : Table Relation.key) : Table Relation.key :=
  match t.find (uid, pid) with
  | none => t
  | some r => t.write { r with status := .DELETED, update_time := now }

/-- The requests of the user to the peer. -/
def appliesOf (uid pid : String) : List FriendApply :=
  s.applies.rows.filter fun ev ↦ ev.user_id = uid ∧ ev.peer_id = pid

/-- `ORDER BY create_time DESC LIMIT 1` may return this. -/
def IsLatest (uid pid : String) : Option FriendApply → Prop
  | none => s.appliesOf uid pid = []
  | some last => last ∈ s.appliesOf uid pid ∧
      ∀ ev ∈ s.appliesOf uid pid, ev.create_time ≤ last.create_time

instance (uid pid : String) (last : Option FriendApply) : Decidable (s.IsLatest uid pid last) :=
  match last with
  | none => inferInstanceAs (Decidable (s.appliesOf uid pid = []))
  | some last => inferInstanceAs (Decidable (last ∈ s.appliesOf uid pid ∧
      ∀ ev ∈ s.appliesOf uid pid, ev.create_time ≤ last.create_time))

end RelState

/-- The effect of an operation. -/
def FriendOp.exec : (o : FriendOp) → FriendChoice → RelState → Option (o.Res × RelState)
  | handling o, c, s => s.exec 0 o c.toRelChoice
  | is_blocked _ _, c, s => some (c.blocked, s)
  | relationExists uid pid, c, s => some (!c.fault && decide (s.Friends uid pid), s)
  | exists_pending uid pid, c, s =>
    some (!c.fault && (s.appliesOf uid pid).any (·.status = .PENDING), s)
  | select_latest uid pid, c, s =>
    if c.fault then some (none, s)
    else if s.IsLatest uid pid c.latest then some (c.latest, s) else none
  | uuid, c, s => some (c.uuid, s)
  | insertApply ev, c, s =>
    match s.applies.insert ev with
    | none => some (false, s)
    | some applies => some (!c.fault, if c.acts then { s with applies } else s)
  | removeRelation uid pid now, c, s =>
    some (!c.fault, if c.acts then
      { s with relations :=
          RelState.soft_delete pid uid now (RelState.soft_delete uid pid now s.relations) }
      else s)

/-! ### Histories -/

/-- `HandleFriendRequest` among the others. -/
def HandleFriend (peer_uid : String) (req : HandleFriendReq) :
    FriendM (Except ServiceError HandleFriendRsp) :=
  (handle_friend_request peer_uid req).lift handling

/-- A call. -/
inductive FriendCall
  | send (uid : String) (req : SendFriendReq)
  | handle (peer_uid : String) (req : HandleFriendReq)
  | remove (uid : String) (req : RemoveFriendReq)

/-- The call takes the tables from one state to another. -/
def FriendCall.Takes (s s' : RelState) : FriendCall → Prop
  | send uid req => ∃ rsp, (SendFriendRequest uid req).Exec FriendOp.exec s rsp s'
  | handle peer_uid req => ∃ rsp, (HandleFriend peer_uid req).Exec FriendOp.exec s rsp s'
  | remove uid req => ∃ rsp, (RemoveFriend uid req).Exec FriendOp.exec s rsp s'

/-- The states that a history of calls goes through, the last one first. -/
inductive FriendHistory : List RelState → Prop
  | start : FriendHistory [{}]
  | call {c : FriendCall} {s s' : RelState} {past : List RelState} (h : FriendHistory (s :: past))
      (hc : c.Takes s s') : FriendHistory (s' :: s :: past)

/-! ### What a call does to the rows of a pair -/

section Rows

variable {s s₁ s₂ s' : RelState} {o : FriendOp} {c : FriendChoice} {r : o.Res}

/-- The operation inserts rows. -/
def FriendOp.Inserts : FriendOp → Prop
  | handling (.insertRelation _ _ _) => True
  | _ => False

theorem normal_iff {uid pid : String} :
    s.normal uid pid = true ↔ ∃ r, s.relations.find (uid, pid) = some r ∧ r.status = .NORMAL := by
  rw [RelState.normal, Option.any_eq_true]
  simp only [decide_eq_true_eq]

theorem RelState.Friends.related {uid pid : String} (h : s.Friends uid pid) :
    s.Related uid pid := by
  obtain ⟨r, hr, -⟩ := normal_iff.1 h.1
  exact .inl (by simp [hr])

theorem RelState.Friends.symm {uid pid : String} (h : s.Friends uid pid) : s.Friends pid uid :=
  ⟨h.2, h.1⟩

theorem find_soft_delete {uid pid : String} {now : ℤ} {t : Table Relation.key}
    {k : String × String} :
    (RelState.soft_delete uid pid now t).find k ≠ none ↔ t.find k ≠ none := by
  rw [RelState.soft_delete]
  split
  · exact Iff.rfl
  · rw [Table.find_write, Ne, Option.map_eq_none_iff]

/-- Only an insertion changes the rows while a request is handled. -/
theorem relations_of_exec {i : ℕ} {o : RelOp} {c : RelChoice} {r : o.Res}
    (h : s.exec i o c = some (r, s')) :
    s'.relations = s.relations ∨ ∃ uid pid now, o = .insertRelation uid pid now ∧
      s.relations.insertAll (RelState.pair uid pid now) = some s'.relations := by
  cases o with
  | clock | selectApply | createConversation =>
    obtain ⟨-, rfl⟩ := Prod.mk.inj (Option.some.inj h)
    exact .inl rfl
  | writeApply ev =>
    obtain ⟨-, rfl⟩ := Prod.mk.inj (Option.some.inj h)
    left
    split
    · rw [RelState.write]
      split <;> rfl
    · rfl
  | respond rsp =>
    obtain ⟨-, rfl⟩ := Prod.mk.inj (Option.some.inj h)
    cases rsp <;> exact .inl rfl
  | insertRelation uid pid now =>
    simp only [RelState.exec] at h
    split at h
    · obtain ⟨-, rfl⟩ := Prod.mk.inj (Option.some.inj h)
      exact .inl rfl
    · next relations hins =>
      obtain ⟨-, rfl⟩ := Prod.mk.inj (Option.some.inj h)
      split
      · exact .inr ⟨uid, pid, now, rfl, hins⟩
      · exact .inl rfl

/-- The same rows are there, whatever has become of them. -/
def SameKeys (s s' : RelState) : Prop :=
  ∀ k, s'.relations.find k ≠ none ↔ s.relations.find k ≠ none

theorem SameKeys.trans (h : SameKeys s s₁) (h' : SameKeys s₁ s') : SameKeys s s' :=
  fun k ↦ (h' k).trans (h k)

/-- Whatever does not insert leaves the keys of the rows as they are. -/
theorem keys_of_exec (h : o.exec c s = some (r, s')) (ho : ¬o.Inserts) : SameKeys s s' := by
  intro k
  cases o with
  | handling o =>
    rcases relations_of_exec h with heq | ⟨uid, pid, now, rfl, -⟩
    · rw [heq]
    · exact absurd trivial ho
  | is_blocked | relationExists | exists_pending | uuid =>
    obtain ⟨-, rfl⟩ := Prod.mk.inj (Option.some.inj h)
    exact Iff.rfl
  | select_latest uid pid =>
    simp only [FriendOp.exec] at h
    split at h
    · obtain ⟨-, rfl⟩ := Prod.mk.inj (Option.some.inj h)
      exact Iff.rfl
    · split at h
      · obtain ⟨-, rfl⟩ := Prod.mk.inj (Option.some.inj h)
        exact Iff.rfl
      · cases h
  | insertApply ev =>
    simp only [FriendOp.exec] at h
    split at h
    · obtain ⟨-, rfl⟩ := Prod.mk.inj (Option.some.inj h)
      exact Iff.rfl
    · obtain ⟨-, rfl⟩ := Prod.mk.inj (Option.some.inj h)
      split <;> exact Iff.rfl
  | removeRelation uid pid now =>
    obtain ⟨-, rfl⟩ := Prod.mk.inj (Option.some.inj h)
    split
    · exact find_soft_delete.trans find_soft_delete
    · exact Iff.rfl

/-- Who has just been given rows is friends with the peer. -/
theorem friends_of_insertAll {uid pid : String} {now : ℤ}
    (h : s.relations.insertAll (RelState.pair uid pid now) = some s'.relations) :
    s'.Friends uid pid := by
  have hnew := (Table.find_insertAll h).1
  constructor
  · exact normal_iff.2 ⟨_, (hnew _ List.mem_cons_self).2, rfl⟩
  · exact normal_iff.2 ⟨_, (hnew _ (List.mem_cons_of_mem _ List.mem_cons_self)).2, rfl⟩

/-- Rows are there to stay, and who has been given rows since the first state is friends with the
peer. -/
structure RowsSince (s₀ s : RelState) : Prop where
  kept : ∀ k, s₀.relations.find k ≠ none → s.relations.find k ≠ none
  fresh : ∀ uid pid, s₀.relations.find (uid, pid) = none → s.relations.find (uid, pid) ≠ none →
    s.Friends uid pid

theorem RowsSince.refl (s : RelState) : RowsSince s s :=
  ⟨fun _ h ↦ h, fun _ _ h h' ↦ absurd h h'⟩

theorem RowsSince.of_keys (h : SameKeys s s') : RowsSince s s' :=
  ⟨fun k ↦ (h k).2, fun _ _ hnone hsome ↦ absurd hnone ((h _).1 hsome)⟩

theorem RowsSince.related {uid pid : String} (h : RowsSince s s') (hr : s.Related uid pid) :
    s'.Related uid pid :=
  hr.imp (h.kept _) (h.kept _)

/-- An operation of `HandleFriendRequest` at most adds friends. -/
theorem RowsSince.handling {s₀ : RelState} {i : ℕ} {o : RelOp} {c : RelChoice} {r : o.Res}
    (h : RowsSince s₀ s) (hx : s.exec i o c = some (r, s')) : RowsSince s₀ s' := by
  rcases relations_of_exec hx with heq | ⟨uid, pid, now, rfl, hins⟩
  · refine ⟨fun k hk ↦ heq ▸ h.kept k hk, fun uid pid hnone hsome ↦ ?_⟩
    have hf : s.Friends uid pid := h.fresh uid pid hnone (heq ▸ hsome)
    simpa only [RelState.Friends, RelState.normal, heq] using hf
  · obtain ⟨hnew, hold⟩ := Table.find_insertAll hins
    have hfriends : s'.Friends uid pid := friends_of_insertAll hins
    have hkeep : ∀ k r, s.relations.find k = some r → s'.relations.find k = some r :=
      fun k r ↦ Table.find_of_insertAll hins
    refine ⟨fun k hk ↦ ?_, fun uid' pid' hnone hsome ↦ ?_⟩
    · obtain ⟨r, hr⟩ := Option.ne_none_iff_exists'.1 (h.kept k hk)
      rw [hkeep k r hr]
      exact Option.some_ne_none r
    · by_cases hmine : (uid, pid) = (uid', pid')
      · obtain ⟨rfl, rfl⟩ := Prod.mk.inj hmine
        exact hfriends
      · by_cases htheirs : (pid, uid) = (uid', pid')
        · obtain ⟨rfl, rfl⟩ := Prod.mk.inj htheirs
          exact hfriends.symm
        · have hsame : s'.relations.find (uid', pid') = s.relations.find (uid', pid') := by
            refine hold _ fun r hr ↦ ?_
            rcases List.mem_pair.1 hr with rfl | rfl
            · exact hmine
            · exact htheirs
          have hf := h.fresh uid' pid' hnone (hsame ▸ hsome)
          obtain ⟨r₁, hr₁, hn₁⟩ := normal_iff.1 hf.1
          obtain ⟨r₂, hr₂, hn₂⟩ := normal_iff.1 hf.2
          exact ⟨normal_iff.2 ⟨r₁, hkeep _ _ hr₁, hn₁⟩, normal_iff.2 ⟨r₂, hkeep _ _ hr₂, hn₂⟩⟩

end Rows

/-! ### Every history -/

section Calls

variable {s s' : RelState} {uid pid : String}

/-- A contract for programs that insert no rows. -/
abbrev noInsert : Contract FriendOp FriendOp.Res Unit := .only _ fun o ↦ ¬o.Inserts

theorem record_apply_meets : (record_apply uid pid).Meets noInsert () fun _ _ ↦ True := by
  refine ⟨id, fun event_id _ ↦ ⟨id, fun create_time _ ↦ ⟨id, fun now _ ↦ ⟨id, fun r _ ↦ ?_⟩⟩⟩⟩
  cases r <;> trivial

theorem sendFriendRequest_meets {req : SendFriendReq} :
    (SendFriendRequest uid req).Meets noInsert () fun _ _ ↦ True := by
  rw [SendFriendRequest]
  split
  · trivial
  · refine meets_op_bind.2 ⟨id, fun blocked _ ↦ ?_⟩
    cases blocked with
    | true => trivial
    | false =>
      refine meets_op_bind.2 ⟨id, fun friends _ ↦ ?_⟩
      cases friends with
      | true => trivial
      | false =>
        refine meets_op_bind.2 ⟨id, fun pending _ ↦ ?_⟩
        cases pending with
        | true => trivial
        | false =>
          refine meets_op_bind.2 ⟨id, fun last _ ↦ ?_⟩
          have hlately : (rejected_lately last).Meets noInsert () fun _ _ ↦ True := by
            cases last with
            | none => trivial
            | some last =>
              rw [rejected_lately]
              split
              · exact ⟨id, fun _ _ ↦ trivial⟩
              · trivial
          refine hlately.bind fun _ lately _ ↦ ?_
          cases lately with
          | true => trivial
          | false => exact record_apply_meets

theorem removeFriend_meets {req : RemoveFriendReq} :
    (RemoveFriend uid req).Meets noInsert () fun _ _ ↦ True := by
  rw [RemoveFriend]
  split
  · trivial
  · refine meets_op_bind.2 ⟨id, fun friends _ ↦ ?_⟩
    cases friends with
    | false => trivial
    | true =>
      refine ⟨id, fun now _ ↦ ⟨id, fun r _ ↦ ?_⟩⟩
      cases r <;> trivial

theorem rows_of_noInsert {α : Type} {p : FriendM α} {a : α}
    (h : p.Meets noInsert () fun _ _ ↦ True) (hx : p.Exec FriendOp.exec s a s') :
    RowsSince s s' := by
  refine RowsSince.of_keys (h.along (I := fun _ ↦ True) (R := SameKeys) hx trivial
    (fun _ _ ↦ Iff.rfl) SameKeys.trans ?_).2
  intro t o c s r s' ho _ hx
  exact ⟨trivial, trivial, keys_of_exec hx ho⟩

/-- **A call keeps the rows that are there, and makes friends of those it gives rows.** -/
theorem FriendCall.Takes.rows {c : FriendCall} (h : c.Takes s s') : RowsSince s s' := by
  cases c with
  | send uid req =>
    obtain ⟨rsp, hx⟩ := h
    exact rows_of_noInsert sendFriendRequest_meets hx
  | remove uid req =>
    obtain ⟨rsp, hx⟩ := h
    exact rows_of_noInsert removeFriend_meets hx
  | handle peer_uid req =>
    obtain ⟨rsp, hx⟩ := h
    have hm : (HandleFriend peer_uid req).Meets (.only _ fun o ↦ ∃ o', o = handling o') ()
        fun _ _ ↦ True :=
      Meets.lift (meets_only (fun o ↦ ⟨o, rfl⟩) _)
    refine (hm.along (I := RowsSince s) (R := fun _ _ ↦ True) hx (.refl s) (fun _ ↦ trivial)
      (fun _ _ ↦ trivial) ?_).1
    rintro t _ c s₁ r s₂ ⟨o, rfl⟩ hI hx
    exact ⟨trivial, hI.handling hx, trivial⟩

/-- **A pair has rows exactly when the two have been friends.** -/
theorem FriendHistory.related_iff {past : List RelState} (h : FriendHistory (s :: past)) :
    s.Related uid pid ↔ ∃ s₀ ∈ s :: past, s₀.Friends uid pid := by
  generalize hs : s :: past = states at h
  induction h generalizing s past with
  | start =>
    obtain ⟨rfl, rfl⟩ := List.cons.inj hs
    refine iff_of_false ?_ ?_
    · rintro (h | h) <;> exact h rfl
    · rintro ⟨s₀, hs₀, hf⟩
      rw [List.mem_singleton.1 hs₀] at hf
      cases hf.1
  | @call c s₁ s₂ past₁ _ hc ih =>
    obtain ⟨rfl, rfl⟩ := List.cons.inj hs
    have hrows := hc.rows
    constructor
    · intro hrel
      by_cases hold : s₁.Related uid pid
      · obtain ⟨s₀, hs₀, hf⟩ := (ih rfl).1 hold
        exact ⟨s₀, List.mem_cons_of_mem _ hs₀, hf⟩
      · rw [RelState.Related, not_or, not_not, not_not] at hold
        refine ⟨s, List.mem_cons_self, ?_⟩
        rcases hrel with hrel | hrel
        · exact hrows.fresh uid pid hold.1 hrel
        · exact (hrows.fresh pid uid hold.2 hrel).symm
    · rintro ⟨s₀, hs₀, hf⟩
      rcases List.mem_cons.1 hs₀ with rfl | hs₀
      · exact hf.related
      · exact hrows.related ((ih rfl).2 ⟨s₀, hs₀, hf⟩)

end Calls

/-! ### Agreeing -/

/-- What the environment decides at the transactions of a call that agrees, in their order: the
event is read, and read again by `update_status`, which commits its new status, and the rows of the
pair are inserted. -/
structure AgreeChoices where
  event : FriendChoice
  status : FriendChoice
  commit : FriendChoice
  rows : FriendChoice

/-- The choices at the transactions; the clock is read before each of the commits. -/
def AgreeChoices.of (cs : List FriendChoice) : AgreeChoices where
  event := cs.getD 0 {}
  status := cs.getD 1 {}
  commit := cs.getD 3 {}
  rows := cs.getD 5 {}

/-- The call gets as far as the commit of the acceptance, which takes place. -/
structure CommitsAcceptance (peer_uid : String) (req : HandleFriendReq) (ev : FriendApply)
    (cs : AgreeChoices) : Prop where
  event_id : req.notify_event_id ≠ ""
  apply_uid : req.apply_user_id ≠ ""
  other : peer_uid ≠ req.apply_user_id
  user : ev.user_id = req.apply_user_id
  peer : ev.peer_id = peer_uid
  event_read : cs.event.fault = false
  status_read : cs.status.fault = false
  commits : cs.commit.acts = true

/-- The two are friends when the call succeeds, and nothing has changed when it fails. -/
def AllOrNothing (peer_uid : String) (req : HandleFriendReq) (s s' : RelState) :
    Except ServiceError HandleFriendRsp → Prop
  | .ok _ => s'.Friends peer_uid req.apply_user_id
  | .error _ => (s'.applies.find req.notify_event_id).map (·.status) = some .PENDING ∧
      s'.relations = s.relations

/-- How a call that agrees to a pending event ends. -/
inductive AgreeEnd (peer_uid : String) (req : HandleFriendReq) (ev : FriendApply)
    (cs : AgreeChoices) (s s' : RelState) : Except ServiceError HandleFriendRsp → Prop
  /-- It fails before the acceptance is committed. -/
  | stopped {e : ServiceError} (hc : ¬CommitsAcceptance peer_uid req ev cs)
      (hst : (s'.applies.find req.notify_event_id).map (·.status) = some .PENDING)
      (hrows : s'.relations = s.relations) : AgreeEnd peer_uid req ev cs s s' (.error e)
  /-- It fails although the acceptance is committed. -/
  | broken {e : ServiceError} (hc : CommitsAcceptance peer_uid req ev cs)
      (hwhy : cs.commit.fault = true ∨ cs.rows.fault = true ∨
        s.Related peer_uid req.apply_user_id)
      (hst : (s'.applies.find req.notify_event_id).map (·.status) = some .ACCEPTED) :
      AgreeEnd peer_uid req ev cs s s' (.error e)
  /-- It succeeds. -/
  | done {rsp : HandleFriendRsp} (hc : CommitsAcceptance peer_uid req ev cs)
      (hcommit : cs.commit.fault = false) (hrows : cs.rows.fault = false)
      (hnew : ¬s.Related peer_uid req.apply_user_id)
      (hf : s'.Friends peer_uid req.apply_user_id) : AgreeEnd peer_uid req ev cs s s' (.ok rsp)

section Agree

variable {peer_uid : String} {req : HandleFriendReq} {ev : FriendApply} {cs : List FriendChoice}
  {s s' : RelState} {rsp : Except ServiceError HandleFriendRsp}

/-- The effect of an operation while a request is handled. -/
abbrev handlingExec (o : RelOp) : FriendChoice → RelState → Option (o.Res × RelState) :=
  FriendOp.exec (handling o)

/-- The row is found after a write, and its status with it. -/
theorem status_write {r : FriendApply} (h : s.applies.find r.event_id = some ev) :
    ((s.write r).applies.find r.event_id).map (·.status) = some r.status := by
  rw [RelState.write, h]
  show ((s.applies.write r).find r.event_id).map _ = _
  rw [Table.find_write_self h]
  rfl

theorem relations_write {r : FriendApply} : (s.write r).relations = s.relations := by
  rw [RelState.write]
  split <;> rfl

/-- A pair that has no rows gets them, and no other. -/
theorem insertAll_pair {uid pid : String} {now : ℤ} (hne : uid ≠ pid) :
    (s.relations.insertAll (RelState.pair uid pid now)).isSome = true ↔ ¬s.Related uid pid := by
  constructor
  · intro h hrel
    obtain ⟨t, ht⟩ := Option.isSome_iff_exists.1 h
    have hnone := (Table.find_insertAll ht).1
    rcases hrel with hrel | hrel
    · exact hrel (hnone _ List.mem_cons_self).1
    · exact hrel (hnone _ (List.mem_cons_of_mem _ List.mem_cons_self)).1
  · intro h
    rw [RelState.Related, not_or, not_not, not_not] at h
    have hkeys : (uid, pid) ≠ (pid, uid) := fun e ↦ hne (Prod.mk.inj e).1
    obtain ⟨t, ht⟩ := Option.isSome_iff_exists.1 (Table.insert_isSome.2 h.1 :
      (s.relations.insert ⟨uid, pid, .NORMAL, now, now⟩).isSome = true)
    have hfree : t.find (pid, uid) = none := by
      rw [Table.find_insert ht]
      exact (if_neg hkeys).trans h.2
    obtain ⟨t', ht'⟩ := Option.isSome_iff_exists.1 (Table.insert_isSome.2 hfree :
      (t.insert ⟨pid, uid, .NORMAL, now, now⟩).isSome = true)
    rw [RelState.pair, Table.insertAll, ht, Option.bind_some, Table.insertAll, ht']
    rfl

/-- The insert of the rows, and the rest of the call. -/
theorem run_insert {k : Bool → RelM (Except ServiceError HandleFriendRsp)} {uid pid : String}
    (hne : uid ≠ pid)
    (h : (RelationTable.insert uid pid >>= k).run handlingExec cs s = some (rsp, s')) :
    ∃ s₁, s₁.applies = s.applies ∧
      (((cs.getD 1 {}).fault = true ∨ s.Related uid pid) ∧
          (k false).run handlingExec (cs.drop 2) s₁ = some (rsp, s') ∨
        (cs.getD 1 {}).fault = false ∧ ¬s.Related uid pid ∧ s₁.Friends uid pid ∧
          (k true).run handlingExec (cs.drop 2) s₁ = some (rsp, s')) := by
  obtain ⟨c, cs, now, s₁, rfl, hx, h⟩ := run_call h
  obtain ⟨rfl, rfl⟩ := Prod.mk.inj (Option.some.inj hx)
  obtain ⟨c', cs, r, s₂, rfl, hx, h⟩ := run_call h
  have hpair : (s.relations.insertAll (RelState.pair uid pid c.now)).isSome = true ↔
      ¬s.Related uid pid := insertAll_pair hne
  simp only [handlingExec, FriendOp.exec, RelState.exec] at hx
  split at hx
  · next hnone =>
    obtain ⟨rfl, rfl⟩ := Prod.mk.inj (Option.some.inj hx)
    rw [hnone] at hpair
    have hrel : s.Related uid pid := by
      by_contra hrel
      exact Bool.noConfusion (hpair.2 hrel)
    exact ⟨s, rfl, .inl ⟨.inr hrel, h⟩⟩
  · next t hsome =>
    obtain ⟨rfl, rfl⟩ := Prod.mk.inj (Option.some.inj hx)
    rw [hsome] at hpair
    cases hfault : c'.fault with
    | true =>
      rw [hfault] at h
      refine ⟨_, ?_, .inl ⟨.inl hfault, h⟩⟩
      split <;> rfl
    | false =>
      have hacts : c'.acts = true := by rw [RelChoice.acts, hfault]; rfl
      rw [hfault, if_pos hacts] at h
      have hf : (s.relate 0 t).Friends uid pid := friends_of_insertAll hsome
      exact ⟨s.relate 0 t, rfl, .inr ⟨hfault, hpair.1 rfl, hf, h⟩⟩

/-- The change of the event's status, and the rest of the call. -/
theorem run_update_status {k : Bool → RelM (Except ServiceError HandleFriendRsp)}
    {event_id : String} {st : FriendApplyStatus} (hev : s.applies.find event_id = some ev)
    (h : (FriendApplyTable.update_status event_id st >>= k).run handlingExec cs s =
      some (rsp, s')) :
    (cs.getD 0 {}).fault = true ∧ (k false).run handlingExec (cs.drop 1) s = some (rsp, s') ∨
      (cs.getD 0 {}).fault = false ∧ ∃ now,
        (k !(cs.getD 2 {}).fault).run handlingExec (cs.drop 3)
          (if (cs.getD 2 {}).acts then s.write { ev with status := st, handle_time := some now }
          else s) = some (rsp, s') := by
  obtain rfl : ev.event_id = event_id := Table.key_of_find hev
  obtain ⟨c, cs, r, s₁, rfl, hx, h⟩ := run_call h
  obtain ⟨rfl, rfl⟩ := Prod.mk.inj (Option.some.inj hx)
  cases hfault : c.fault with
  | true =>
    rw [hfault, if_pos rfl] at h
    exact .inl ⟨hfault, h⟩
  | false =>
    rw [hfault, if_neg Bool.false_ne_true, hev] at h
    obtain ⟨c', cs, now, s₁, rfl, hx, h⟩ := run_call h
    obtain ⟨rfl, rfl⟩ := Prod.mk.inj (Option.some.inj hx)
    obtain ⟨c'', cs, r, s₂, rfl, hx, h⟩ := run_call h
    obtain ⟨rfl, rfl⟩ := Prod.mk.inj (Option.some.inj hx)
    refine .inr ⟨hfault, c'.now, ?_⟩
    rw [hev, Option.isSome_some, Bool.and_true] at h
    exact h

/-- The end of a call that has made friends. -/
theorem run_create_private {request_id uid : String} {α : Type} {f : Option String → α} {a : α}
    (h : (create_private request_id uid >>= fun id ↦ (ret (f id) : RelM α)).run handlingExec cs s =
      some (a, s')) : (∃ id, a = f id) ∧ s' = s := by
  obtain ⟨c, cs, r, s₁, rfl, hx, h⟩ := run_call h
  obtain ⟨rfl, rfl⟩ := Prod.mk.inj (Option.some.inj hx)
  rcases hr : c.rsp with _ | (_ | _) <;>
  · rw [hr] at h
    obtain ⟨rfl, rfl⟩ := run_ret h
    exact ⟨⟨_, rfl⟩, rfl⟩

/-- What `HandleFriendRequest` does with a pending event when it agrees. -/
theorem run_handle_pending (hev : s.applies.find req.notify_event_id = some ev)
    (hst : ev.status = .PENDING) (ha : req.agree = true) (hne : peer_uid ≠ req.apply_user_id)
    {c : FriendChoice} (hacc : ∀ cs', CommitsAcceptance peer_uid req ev (.of (c :: cs')) ↔
      (cs'.getD 0 {}).fault = false ∧ (cs'.getD 2 {}).acts = true)
    (h : (handle_pending peer_uid req).run handlingExec cs s = some (rsp, s')) :
    AgreeEnd peer_uid req ev (.of (c :: cs)) s s' rsp := by
  have hpending : (s.applies.find req.notify_event_id).map (·.status) = some .PENDING := by
    rw [hev, Option.map_some, hst]
  have hid : ev.event_id = req.notify_event_id := Table.key_of_find hev
  rw [handle_pending, ha] at h
  rcases run_update_status hev h with ⟨hfault, h⟩ | ⟨hread, now, h⟩
  · obtain ⟨rfl, rfl⟩ := run_ret h
    refine .stopped (fun hc ↦ ?_) hpending rfl
    rw [((hacc cs).1 hc).1] at hfault
    cases hfault
  · cases hacts : (cs.getD 2 {}).acts with
    | false =>
      have hfault : (cs.getD 2 {}).fault = true :=
        RelChoice.fault_of_not_acts (by rw [hacts]; exact Bool.false_ne_true)
      rw [hfault, hacts, if_neg Bool.false_ne_true] at h
      obtain ⟨rfl, rfl⟩ := run_ret h
      refine .stopped (fun hc ↦ ?_) hpending rfl
      rw [((hacc cs).1 hc).2] at hacts
      cases hacts
    | true =>
      have hc : CommitsAcceptance peer_uid req ev (.of (c :: cs)) := (hacc cs).2 ⟨hread, hacts⟩
      rw [hacts, if_pos rfl] at h
      have haccepted :
          ((s.write { ev with status := .ACCEPTED, handle_time := some now }).applies.find
            req.notify_event_id).map (·.status) = some .ACCEPTED :=
        hid ▸ status_write (r := { ev with status := .ACCEPTED, handle_time := some now })
          (hid ▸ hev)
      cases hfault : (cs.getD 2 {}).fault with
      | true =>
        rw [hfault] at h
        obtain ⟨rfl, rfl⟩ := run_ret h
        exact .broken hc (.inl hfault) haccepted
      | false =>
        rw [hfault] at h
        have hrel : (s.write { ev with status := .ACCEPTED, handle_time := some now }).Related
            peer_uid req.apply_user_id ↔ s.Related peer_uid req.apply_user_id := by
          rw [RelState.Related, RelState.Related, relations_write]
        have hat : (AgreeChoices.of (c :: cs)).rows = (cs.drop 3).getD 1 {} := by
          rw [List.getD_eq_getElem?_getD, List.getElem?_drop, ← List.getD_eq_getElem?_getD]
          rfl
        obtain ⟨s₁, happ, ⟨hwhy, h⟩ | ⟨hrows, hnew, hf, h⟩⟩ := run_insert hne h
        · obtain ⟨rfl, rfl⟩ := run_ret h
          exact .broken hc (.inr (hwhy.imp (fun hf ↦ hat ▸ hf) hrel.1)) (happ ▸ haccepted)
        · obtain ⟨⟨id, rfl⟩, rfl⟩ := run_create_private h
          exact .done hc hfault (hat ▸ hrows) (mt hrel.2 hnew) hf

/-- **How a call ends that agrees to a pending event.** -/
theorem run_handle_friend (hev : s.applies.find req.notify_event_id = some ev)
    (hst : ev.status = .PENDING) (ha : req.agree = true)
    (h : (HandleFriend peer_uid req).run FriendOp.exec cs s = some (rsp, s')) :
    AgreeEnd peer_uid req ev (.of cs) s s' rsp := by
  have hpending : (s.applies.find req.notify_event_id).map (·.status) = some .PENDING := by
    rw [hev, Option.map_some, hst]
  rw [HandleFriend, run_lift, handle_friend_request] at h
  split at h
  · next hbad =>
    obtain ⟨rfl, rfl⟩ := run_ret h
    refine .stopped (fun hc ↦ ?_) hpending rfl
    rcases hbad with hbad | hbad | hbad
    · exact hc.event_id hbad
    · exact hc.apply_uid hbad
    · exact hc.other hbad
  · next hgood =>
    obtain ⟨hid, huid, hne⟩ := by simpa only [not_or] using hgood
    obtain ⟨c, cs, r, s₁, rfl, hx, h⟩ := run_call h
    obtain ⟨rfl, rfl⟩ := Prod.mk.inj (Option.some.inj hx)
    cases hfault : c.fault with
    | true =>
      rw [hfault, if_pos rfl] at h
      obtain ⟨rfl, rfl⟩ := run_ret h
      refine .stopped (fun hc ↦ ?_) hpending rfl
      exact Bool.false_ne_true (hc.event_read.symm.trans hfault)
    | false =>
      rw [hfault, if_neg Bool.false_ne_true, hev] at h
      simp only [Prog.bind] at h
      split at h
      · next hparties =>
        obtain ⟨rfl, rfl⟩ := run_ret h
        refine .stopped (fun hc ↦ ?_) hpending rfl
        rcases hparties with hp | hp
        · exact hp hc.user
        · exact hp hc.peer
      · next hparties =>
        obtain ⟨hu, hp⟩ := by simpa only [not_or, ne_eq, not_not] using hparties
        rw [if_neg (by simp [hst])] at h
        refine run_handle_pending hev hst ha hne (fun cs' ↦ ?_) h
        constructor
        · intro hc
          exact ⟨hc.status_read, hc.commits⟩
        · rintro ⟨hread, hacts⟩
          exact ⟨hid, huid, hne, hu, hp, hfault, hread, hacts⟩

end Agree

/-! ### Histories that are computed -/

/-- The state after a call with the given choices. -/
def FriendCall.run (cs : List FriendChoice) (s : RelState) : FriendCall → Option RelState
  | send uid req => ((SendFriendRequest uid req).run FriendOp.exec cs s).map (·.2)
  | handle peer_uid req => ((HandleFriend peer_uid req).run FriendOp.exec cs s).map (·.2)
  | remove uid req => ((RemoveFriend uid req).run FriendOp.exec cs s).map (·.2)

theorem FriendCall.takes_of_run {cs : List FriendChoice} {s s' : RelState} {c : FriendCall}
    (h : c.run cs s = some s') : c.Takes s s' := by
  cases c with
  | send | handle | remove =>
    obtain ⟨⟨rsp, s₁⟩, hrun, rfl⟩ := Option.map_eq_some_iff.1 h
    exact ⟨rsp, exec_of_run hrun⟩

/-- The history of the given calls. -/
def friendHistory : List (FriendCall × List FriendChoice) → RelState → List RelState →
    Option (RelState × List RelState)
  | [], s, past => some (s, past)
  | (c, cs) :: calls, s, past => (c.run cs s).bind fun s' ↦ friendHistory calls s' (s :: past)

theorem FriendHistory.of_calls {calls : List (FriendCall × List FriendChoice)} {s s' : RelState}
    {past past' : List RelState} (h : FriendHistory (s :: past))
    (hx : friendHistory calls s past = some (s', past')) : FriendHistory (s' :: past') := by
  induction calls generalizing s past with
  | nil =>
    obtain ⟨rfl, rfl⟩ := Prod.mk.inj (Option.some.inj hx)
    exact h
  | cons c calls ih =>
    obtain ⟨s₁, hs₁, hx⟩ := Option.bind_eq_some_iff.1 hx
    exact ih (h.call (FriendCall.takes_of_run hs₁)) hx

/-- A concrete history, and what can be decided of its states. -/
theorem exists_history (calls : List (FriendCall × List FriendChoice))
    (P : RelState × List RelState → Prop) [DecidablePred P]
    (h : (friendHistory calls {} []).any (fun x ↦ P x) = true) :
    ∃ s past, FriendHistory (s :: past) ∧ P (s, past) := by
  obtain ⟨⟨s, past⟩, hx, hP⟩ := (Option.any_eq_true _ _).1 h
  exact ⟨s, past, FriendHistory.start.of_calls hx, of_decide_eq_true hP⟩

/-- **Accepting makes friends of those who never were.** After every history, a call that agrees to
a pending event leaves two friends or no trace exactly when it does not come to commit the
acceptance, or that commit is acknowledged, the insert of the rows does not fail, and the two have
never been friends before. -/
theorem agree_all_or_nothing (s : RelState) (past : List RelState)
    (hh : FriendHistory (s :: past)) (peer_uid : String) (req : HandleFriendReq)
    (ev : FriendApply) (hev : s.applies.find req.notify_event_id = some ev)
    (hst : ev.status = .PENDING) (ha : req.agree = true) (cs : List FriendChoice)
    (rsp : Except ServiceError HandleFriendRsp) (s' : RelState)
    (h : (HandleFriend peer_uid req).run FriendOp.exec cs s = some (rsp, s')) :
    AllOrNothing peer_uid req s s' rsp ↔
      (CommitsAcceptance peer_uid req ev (.of cs) →
        (AgreeChoices.of cs).commit.fault = false ∧ (AgreeChoices.of cs).rows.fault = false ∧
          ∀ s₀ ∈ s :: past, ¬s₀.Friends peer_uid req.apply_user_id) := by
  have hrel : s.Related peer_uid req.apply_user_id ↔
      ∃ s₀ ∈ s :: past, s₀.Friends peer_uid req.apply_user_id := hh.related_iff
  cases run_handle_friend hev hst ha h with
  | stopped hc hstill hrows => exact iff_of_true ⟨hstill, hrows⟩ fun h ↦ absurd h hc
  | broken hc hwhy haccepted =>
    refine iff_of_false (fun hall ↦ ?_) fun hgood ↦ ?_
    · have hstill := hall.1
      rw [haccepted] at hstill
      cases hstill
    · obtain ⟨hcommit, hrows, hnew⟩ := hgood hc
      rcases hwhy with hf | hf | hf
      · exact Bool.false_ne_true (hcommit.symm.trans hf)
      · exact Bool.false_ne_true (hrows.symm.trans hf)
      · obtain ⟨s₀, hs₀, hfriends⟩ := hrel.1 hf
        exact hnew s₀ hs₀ hfriends
  | done hc hcommit hrows hnew hf =>
    exact iff_of_true hf fun _ ↦
      ⟨hcommit, hrows, fun s₀ hs₀ hfriends ↦ hnew (hrel.2 ⟨s₀, hs₀, hfriends⟩)⟩

/-- Alice asks Bob to be friends; her latest request before is given. -/
def aliceAsks (event_id : String) (latest : Option FriendApply := none) :
    FriendCall × List FriendChoice :=
  (.send "alice" ⟨"bob"⟩, [{}, {}, {}, { latest }, { uuid := event_id }, {}, {}, {}])

/-- Bob's answer. -/
def agreeTo (event_id : String) : HandleFriendReq :=
  { notify_event_id := event_id, agree := true, apply_user_id := "alice" }

/-- Bob's answer makes them friends. -/
theorem agree_all_or_nothing_first : ∃ s past rsp s', FriendHistory (s :: past) ∧
    (HandleFriend "bob" (agreeTo "e1")).run FriendOp.exec (List.replicate 7 {}) s =
      some (.ok rsp, s') ∧ s'.Friends "bob" "alice" := by
  obtain ⟨s, past, hh, hev, hnew, hrsp⟩ := exists_history [aliceAsks "e1"]
    (fun x ↦ x.1.applies.find "e1" = some ⟨"e1", "alice", "bob", .PENDING, 0, none⟩ ∧
      (∀ s₀ ∈ x.1 :: x.2, ¬s₀.Friends "bob" "alice") ∧
      ((HandleFriend "bob" (agreeTo "e1")).run FriendOp.exec (List.replicate 7 {}) x.1).map
        (·.1) = some (.ok {})) (by decide +kernel)
  obtain ⟨⟨rsp, s'⟩, hrun, rfl⟩ := Option.map_eq_some_iff.1 hrsp
  have hall := (agree_all_or_nothing s past hh "bob" (agreeTo "e1") _ hev rfl rfl _ _ s' hrun).2
    fun _ ↦ ⟨rfl, rfl, hnew⟩
  exact ⟨s, past, _, s', hh, hrun, hall⟩

/-- They become friends, Alice removes Bob and asks again. Bob's second acceptance is committed, his
request fails, and they are no friends. -/
theorem second_acceptance_fails : ∃ s past, FriendHistory (s :: past) ∧
    s.applies.find "e2" = some ⟨"e2", "alice", "bob", .PENDING, 0, none⟩ ∧
    ∃ rsp s', (HandleFriend "bob" (agreeTo "e2")).run FriendOp.exec (List.replicate 6 {}) s =
        some (rsp, s') ∧
      rsp = .error ⟨error.kSystemInternalError, "insert relation failed"⟩ ∧
      (s'.applies.find "e2").map (·.status) = some .ACCEPTED ∧ ¬s'.Friends "bob" "alice" ∧
      ¬AllOrNothing "bob" (agreeTo "e2") s s' rsp := by
  obtain ⟨s, past, hh, hev, hrun⟩ := exists_history
    [aliceAsks "e1", (.handle "bob" (agreeTo "e1"), List.replicate 7 {}),
      (.remove "alice" ⟨"bob"⟩, List.replicate 3 {}),
      aliceAsks "e2" (some ⟨"e1", "alice", "bob", .ACCEPTED, 0, some 0⟩)]
    (fun x ↦ x.1.applies.find "e2" = some ⟨"e2", "alice", "bob", .PENDING, 0, none⟩ ∧
      ((HandleFriend "bob" (agreeTo "e2")).run FriendOp.exec (List.replicate 6 {}) x.1).any
        (fun y ↦ y.1 = .error ⟨error.kSystemInternalError, "insert relation failed"⟩ ∧
          (y.2.applies.find "e2").map (·.status) = some .ACCEPTED ∧
          ¬y.2.Friends "bob" "alice") = true) (by decide +kernel)
  obtain ⟨⟨rsp, s'⟩, hrun, hend⟩ := (Option.any_eq_true _ _).1 hrun
  obtain ⟨rfl, hst, hf⟩ := of_decide_eq_true hend
  refine ⟨s, past, hh, hev, _, s', hrun, rfl, hst, hf, fun hall ↦ ?_⟩
  have hpending : _ = some FriendApplyStatus.PENDING := hall.1
  rw [show (agreeTo "e2").notify_event_id = "e2" from rfl, hst] at hpending
  cases hpending

end ChatNow
