import ChatNow.Common.ErrorCodes
import ChatNow.Lib.Pool
import ChatNow.Lib.Table
import ChatNow.Proto.Conversation

/-!
# Handling a friend request

`HandleFriendRequest` of `relationship/source/relationship_server.h` with the methods of
`mysql_friend_apply.hpp` and `mysql_relation.hpp` that it calls, and any number of calls as threads
over the two tables.

`update_status` reads the event without a lock and writes the whole row back, so its read and its
commit are two operations; `RelationTable::insert` persists both rows of a pair or none, and is one.
The conversation service is asked for a private conversation at the end; what it answers decides
nothing but the id in the response.

A transaction may fail, and what it was to do may have been committed all the same
(`RelChoice.acts`). A crash takes a thread away where it stands.
-/

namespace ChatNow

open Prog

/-! ### Rows and messages -/

/-- `FriendApplyStatus`. -/
inductive FriendApplyStatus
  | PENDING
  | ACCEPTED
  | REJECTED
  | CANCELED
  | EXPIRED
  deriving DecidableEq

/-- `FriendApply`. -/
structure FriendApply where
  event_id : String
  user_id : String
  peer_id : String
  status : FriendApplyStatus := .PENDING
  /-- In microseconds, as all times here. -/
  create_time : ℤ := 0
  handle_time : Option ℤ := none
  deriving DecidableEq

/-- `RelationStatus`. -/
inductive RelationStatus
  | NORMAL
  | BLOCKED
  | DELETED
  deriving DecidableEq

/-- `Relation`. -/
structure Relation where
  user_id : String
  peer_id : String
  status : RelationStatus := .NORMAL
  create_time : ℤ
  update_time : ℤ
  deriving DecidableEq

/-- `uk_user_peer`. -/
def Relation.key (r : Relation) : String × String := (r.user_id, r.peer_id)

/-- `HandleFriendReq`. -/
structure HandleFriendReq where
  request_id : String := ""
  notify_event_id : String
  agree : Bool
  apply_user_id : String
  deriving DecidableEq

/-- `HandleFriendRsp`, beside its header. -/
structure HandleFriendRsp where
  new_conversation_id : Option String := none
  deriving DecidableEq

/-! ### The text -/

/-- The operations of `HandleFriendRequest`. -/
inductive RelOp
  /-- `microsec_clock::universal_time`. -/
  | clock
  /-- The query for an event; a query that fails answers as if there were none. -/
  | selectApply (event_id : String)
  /-- The commit of `update_status`. -/
  | writeApply (r : FriendApply)
  /-- `RelationTable::insert`, at the given time. -/
  | insertRelation (uid pid : String) (now : ℤ)
  /-- The call of `CreateConversation`; `none` when there is no answer. -/
  | createConversation (req : conversation.CreateConversationReq)
  /-- The response is sent. -/
  | respond (rsp : Except ServiceError HandleFriendRsp)

/-- What each operation answers. -/
@[reducible]
def RelOp.Res : RelOp → Type
  | clock => ℤ
  | selectApply _ => Option FriendApply
  | writeApply _ => Bool
  | insertRelation _ _ _ => Bool
  | createConversation _ => Option (Except ServiceError (Option String))
  | respond _ => Unit

/-- Programs of the relationship service. -/
abbrev RelM := Prog RelOp RelOp.Res

open RelOp

/-- `FriendApplyTable::update_status`. -/
def FriendApplyTable.update_status (event_id : String) (new_status : FriendApplyStatus) :
    RelM Bool := do
  match ← op (selectApply event_id) with
  | none => return false
  | some r =>
    let now ← op clock
    op (writeApply { r with status := new_status, handle_time := some now })

/-- `RelationTable::insert`. -/
def RelationTable.insert (uid pid : String) : RelM Bool := do
  let now ← op clock
  op (insertRelation uid pid now)

/-- The private conversation of two new friends; an answer that is missing or negative is only
logged. -/
def create_private (request_id apply_uid : String) : RelM (Option String) := do
  match ← op (createConversation
      { request_id, type := .PRIVATE, name := some "", member_ids := [apply_uid] }) with
  | some (.ok conversation_id) => return conversation_id
  | _ => return none

/-- What `HandleFriendRequest` does when the event is pending. -/
def handle_pending (peer_uid : String) (req : HandleFriendReq) :
    RelM (Except ServiceError HandleFriendRsp) := do
  if !req.agree then
    if ← FriendApplyTable.update_status req.notify_event_id .REJECTED then return .ok {}
    else return .error ⟨error.kSystemInternalError, "update apply rejected failed"⟩
  else if ← FriendApplyTable.update_status req.notify_event_id .ACCEPTED then
    if ← RelationTable.insert peer_uid req.apply_user_id then
      let new_conversation_id ← create_private req.request_id req.apply_user_id
      return .ok { new_conversation_id }
    else return .error ⟨error.kSystemInternalError, "insert relation failed"⟩
  else return .error ⟨error.kSystemInternalError, "update apply accepted failed"⟩

/-- The body of `HandleFriendRequest`, for a caller that is logged in. -/
def handle_friend_request (peer_uid : String) (req : HandleFriendReq) :
    RelM (Except ServiceError HandleFriendRsp) := do
  if req.notify_event_id = "" ∨ req.apply_user_id = "" ∨ peer_uid = req.apply_user_id then
    return .error ⟨error.kSystemInvalidArgument, "invalid event_id / apply_user_id"⟩
  else
    match ← op (selectApply req.notify_event_id) with
    | none => return .error ⟨error.kSystemInvalidArgument, "event not found"⟩
    | some ev =>
      if ev.user_id ≠ req.apply_user_id ∨ ev.peer_id ≠ peer_uid then
        return .error ⟨error.kSystemInvalidArgument, "event not found"⟩
      else if ev.status ≠ .PENDING then
        return .error ⟨error.kRelationshipRequestPending, "event not pending"⟩
      else handle_pending peer_uid req

/-- `HandleFriendRequest`. -/
def HandleFriendRequest (peer_uid : String) (req : HandleFriendReq) : RelM Unit := do
  let rsp ← handle_friend_request peer_uid req
  op (respond rsp)

/-! ### The machine -/

/-- The tables, and what the calls have done. -/
structure RelState where
  /-- `friend_apply`. -/
  applies : Table FriendApply.event_id := .empty
  /-- `relation`. -/
  relations : Table Relation.key := .empty
  /-- The requests, by thread. -/
  requests : List HandleFriendReq := []
  /-- The events that a write has taken out of PENDING, once for each time. -/
  left : List String := []
  /-- The threads that have inserted the rows of a pair. -/
  inserted : List ℕ := []
  /-- The threads that have answered with success. -/
  succeeded : List ℕ := []

/-- What the environment decides at a call. -/
structure RelChoice where
  /-- The call fails. -/
  fault : Bool := false
  /-- Its effect takes place all the same. -/
  late : Bool := false
  now : ℤ := 0
  rsp : Option (Except ServiceError (Option String)) := none

/-- The effect of the call takes place. -/
def RelChoice.acts (c : RelChoice) : Bool := !c.fault || c.late

/-- What has no effect fails. -/
theorem RelChoice.fault_of_not_acts {c : RelChoice} (h : ¬ c.acts = true) : c.fault = true := by
  by_contra hfault
  refine h ?_
  rw [acts, Bool.eq_false_iff.2 hfault]
  rfl

namespace RelState

variable (s : RelState)

/-- The row is written back. -/
def write (r : FriendApply) : RelState :=
  match s.applies.find r.event_id with
  | none => s
  | some r₀ =>
    { s with
      applies := s.applies.write r
      left := if r₀.status = .PENDING ∧ r.status ≠ .PENDING then r.event_id :: s.left else s.left }

/-- The two rows of a pair. -/
def pair (uid pid : String) (now : ℤ) : List Relation :=
  [{ user_id := uid, peer_id := pid, create_time := now, update_time := now },
    { user_id := pid, peer_id := uid, create_time := now, update_time := now }]

/-- The thread has inserted rows, which are there now. -/
def relate (i : ℕ) (relations : Table Relation.key) : RelState :=
  { s with relations := relations, inserted := i :: s.inserted }

/-- The effect of a call by thread `i`. -/
def exec (i : ℕ) : (o : RelOp) → RelChoice → RelState → Option (RelOp.Res o × RelState)
  | clock, c, s => some (c.now, s)
  | selectApply event_id, c, s =>
    some (if c.fault then none else s.applies.find event_id, s)
  | writeApply r, c, s =>
    some (!c.fault && (s.applies.find r.event_id).isSome, if c.acts then s.write r else s)
  | insertRelation uid pid now, c, s =>
    match s.relations.insertAll (pair uid pid now) with
    | none => some (false, s)
    | some relations => some (!c.fault, if c.acts then s.relate i relations else s)
  | createConversation _, c, s => some (c.rsp, s)
  | respond rsp, _, s =>
    some ((), match rsp with
      | .ok _ => { s with succeeded := i :: s.succeeded }
      | .error _ => s)

end RelState

/-- What can happen beside the calls. -/
inductive RelEv
  /-- A request arrives. -/
  | handle (peer_uid : String) (req : HandleFriendReq)
  /-- A thread is gone. -/
  | crash (i : ℕ)

abbrev RelPool := Pool RelOp RelOp.Res RelState

/-- The effect of an event. -/
def RelState.env : RelEv → RelPool → Option RelPool
  | .handle peer_uid req, p =>
    some ⟨p.threads ++ [HandleFriendRequest peer_uid req],
      { p.shared with requests := p.shared.requests ++ [req] }⟩
  | .crash i, p => some ⟨p.threads.set i (.ret ()), p.shared⟩

/-- The relationship service. -/
def relationService : Machine RelOp RelOp.Res RelState RelChoice RelEv :=
  ⟨RelState.exec, RelState.env⟩

end ChatNow
