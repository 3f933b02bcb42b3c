import ChatNow.Conversation.Tables
import ChatNow.Lib.Pool
import ChatNow.Lib.Table
import ChatNow.Push.WireAgreement

/-!
# Recalls and pins

`RecallMessage`, `PinMessage` and `UnpinMessage` of `message/source/message_server.h` with the
methods of `mysql_message.hpp` and `mysql_message_pin.hpp` that they call, and any number of calls
as threads over the two tables.

`update_status_to_recalled` reads a row that is NORMAL without a lock and writes the whole row back
by its id, so its read and its commit are two operations; so are `count_by_conversation` and the
insert of `PinMessage`. What a query finds of the members is up to the environment. A transaction
may fail, and what it was to do may have been committed all the same (`MsgChoice.acts`). A notice
that the exchange does not confirm is left in the outbox of the service, which publishes it later.
-/

namespace ChatNow

open Prog

/-! ### Rows and messages -/

/-- `MessagePin`. Times are in microseconds. -/
structure MessagePin where
  session_id : String
  message_id : UInt64
  pinned_by : String
  pinned_at : ℤ
  deriving DecidableEq

/-- `uk_conv_msg`. -/
def MessagePin.key (p : MessagePin) : String × UInt64 := (p.session_id, p.message_id)

/-- A message of a conversation, as a request names it. -/
structure MessageRef where
  conversation_id : String
  message_id : Int64
  deriving DecidableEq

/-- The id as the tables have it. -/
def MessageRef.mid (r : MessageRef) : UInt64 := r.message_id.toUInt64

/-- `RecallMessageReq`. -/
abbrev RecallMessageReq := MessageRef

/-- `PinMessageReq`. -/
abbrev PinMessageReq := MessageRef

/-- `UnpinMessageReq`. -/
abbrev UnpinMessageReq := MessageRef

/-- `MessagePinTable::list_by_conversation`, the latest pin first. -/
def MessagePinTable.list_by_conversation (pins : Table MessagePin.key) (cid : String)
    (limit : ℕ) : List UInt64 :=
  (((pins.rows.filter (·.session_id = cid)).mergeSort
    fun p q ↦ decide (q.pinned_at ≤ p.pinned_at)).take limit).map (·.message_id)

/-- `kRecallTimeoutMs`. -/
def kRecallTimeoutMs : Int64 := 120 * 1000

/-- `kPinLimit`. -/
def kPinLimit : ℕ := 10

/-- `kSystemUserId`. -/
def MessageService.kSystemUserId : String := "__system__"

/-! ### The text -/

/-- The operations of the three requests. -/
inductive MsgOp
  /-- `now_ms_`. -/
  | now_ms
  /-- `microsec_clock::universal_time`. -/
  | clock
  /-- `select_by_id`; a query that fails answers as if there were no row. -/
  | selectById (mid : UInt64)
  /-- The query of `update_status_to_recalled`, for a row that is NORMAL. -/
  | selectNormal (mid : UInt64)
  /-- The commit of `update_status_to_recalled`. -/
  | updateRecalled (m : MessageRow)
  /-- `ConversationMemberTable::select_self`. -/
  | selectSelf (cid uid : String)
  /-- `count_by_conversation`; a query that fails answers 0. -/
  | countPins (cid : String)
  /-- The commit of `MessagePinTable::insert`; a row that is there already is a success. -/
  | insertPin (p : MessagePin)
  /-- `MessagePinTable::remove`. -/
  | removePin (cid : String) (mid : UInt64)
  /-- A notice is published on the push exchange, or left in the outbox. -/
  | publish (n : PushPayload)
  /-- The response is sent. -/
  | respond (rsp : Except ServiceError Unit)

/-- What each operation answers. -/
@[reducible]
def MsgOp.Res : MsgOp → Type
  | now_ms => Int64
  | clock => ℤ
  | selectById _ => Option MessageRow
  | selectNormal _ => Option MessageRow
  | updateRecalled _ => Bool
  | selectSelf _ _ => Option ConversationMember
  | countPins _ => ℕ
  | insertPin _ => Bool
  | removePin _ _ => Bool
  | publish _ => Unit
  | respond _ => Unit

/-- Programs of the message service. -/
abbrev MsgM := Prog MsgOp MsgOp.Res

open MsgOp

/-- What `conv_role_` and `require_member_` throw. -/
def not_member : ServiceError :=
  ⟨error.kConversationNotMember, "user not member of conversation"⟩

/-- `conv_role_`. -/
def conv_role_ (cid uid : String) : MsgM (Except ServiceError MemberRole) := do
  if uid = MessageService.kSystemUserId then return .ok .OWNER
  else
    match ← op (selectSelf cid uid) with
    | none => return .error not_member
    | some self => return if self.is_quit then .error not_member else .ok self.role

/-- The role is that of an owner or admin. -/
def MemberRole.is_admin (role : MemberRole) : Bool := role = .OWNER ∨ role = .ADMIN

/-- The row that `update_status_to_recalled` writes. The columns are those that the readers use, so
that `revoke_time` is left out. -/
def MessageRow.recalled (m : MessageRow) : MessageRow :=
  { m with status := .REVOKED, content := "" }

/-- `MessageTable::update_status_to_recalled`. -/
def MessageTable.update_status_to_recalled (mid : UInt64) : MsgM Bool := do
  match ← op (selectNormal mid) with
  | none => return false
  | some m => op (updateRecalled m.recalled)

/-- `MessagePinTable::insert`. -/
def MessagePinTable.insert (cid : String) (mid : UInt64) (pinner_uid : String) : MsgM Bool := do
  let pinned_at ← op clock
  op (insertPin { session_id := cid, message_id := mid, pinned_by := pinner_uid, pinned_at })

/-- Why the row cannot be recalled. -/
def row_refusal (cid : String) (msg : MessageRow) : Option ServiceError :=
  if msg.session_id ≠ cid then some ⟨error.kMessageNotFound, "cid mismatch"⟩
  else if msg.status = .REVOKED then some ⟨error.kMessageAlreadyRecalled, "already recalled"⟩
  else if msg.status = .DELETED then some ⟨error.kMessageNotFound, "deleted"⟩
  else none

/-- Why the caller cannot recall the row. -/
def caller_refusal (role : MemberRole) (uid : String) (msg : MessageRow) (now : Int64) :
    Option ServiceError :=
  let age_ms := now - msg.create_time
  if role.is_admin then none
  else if msg.user_id ≠ uid then some ⟨error.kConversationNoPermission, "not msg author"⟩
  else if kRecallTimeoutMs ≤ age_ms then
    some ⟨error.kMessageRecallTimeout, "exceed 120s window"⟩
  else none

/-- What `RecallMessage` does when nothing speaks against it. -/
def recall_allowed (req : RecallMessageReq) : MsgM (Except ServiceError Unit) := do
  if ← MessageTable.update_status_to_recalled req.mid then
    op (publish (.recalled req.conversation_id req.message_id))
    return .ok ()
  else return .error ⟨error.kMessageAlreadyRecalled, "race lost or not recallable"⟩

/-- The body of `RecallMessage`, for a caller that is logged in. -/
def recall_message (uid : String) (req : RecallMessageReq) : MsgM (Except ServiceError Unit) := do
  match ← op (selectById req.mid) with
  | none => return .error ⟨error.kMessageNotFound, "mid not found"⟩
  | some msg =>
    match row_refusal req.conversation_id msg with
    | some e => return .error e
    | none =>
      match ← conv_role_ req.conversation_id uid with
      | .error e => return .error e
      | .ok role =>
        let now ← op now_ms
        match caller_refusal role uid msg now with
        | some e => return .error e
        | none => recall_allowed req

/-- `RecallMessage`. -/
def RecallMessage (uid : String) (req : RecallMessageReq) : MsgM Unit := do
  let rsp ← recall_message uid req
  op (respond rsp)

/-- Owners and admins pin and unpin; in a private conversation every member does. -/
def pin_right (cid uid : String) (refusal : String) : MsgM (Except ServiceError Unit) := do
  match ← conv_role_ cid uid with
  | .error e => return .error e
  | .ok role =>
    return if role.is_admin ∨ "p_".toList.isPrefixOf cid.toList then .ok ()
      else .error ⟨error.kConversationNoPermission, refusal⟩

/-- What `PinMessage` throws at the limit. -/
def pin_limit_exceeded : ServiceError := ⟨error.kSystemInvalidArgument, "pin limit exceeded (10)"⟩

/-- What `PinMessage` throws when the insert fails. -/
def pin_insert_failed : ServiceError := ⟨error.kSystemInternalError, "pin insert failed"⟩

/-- What `PinMessage` does with a message of the conversation. -/
def pin_found (uid : String) (req : PinMessageReq) : MsgM (Except ServiceError Unit) := do
  let n ← op (countPins req.conversation_id)
  if kPinLimit ≤ n then return .error pin_limit_exceeded
  else if ← MessagePinTable.insert req.conversation_id req.mid uid then
    op (publish (.pin req.conversation_id req.message_id uid true))
    return .ok ()
  else return .error pin_insert_failed

/-- The body of `PinMessage`, for a caller that is logged in. -/
def pin_message (uid : String) (req : PinMessageReq) : MsgM (Except ServiceError Unit) := do
  match ← pin_right req.conversation_id uid "only OWNER/ADMIN can pin" with
  | .error e => return .error e
  | .ok () =>
    match ← op (selectById req.mid) with
    | none => return .error ⟨error.kMessageNotFound, "mid"⟩
    | some msg =>
      if msg.session_id ≠ req.conversation_id then return .error ⟨error.kMessageNotFound, "mid"⟩
      else pin_found uid req

/-- `PinMessage`. -/
def PinMessage (uid : String) (req : PinMessageReq) : MsgM Unit := do
  let rsp ← pin_message uid req
  op (respond rsp)

/-- The body of `UnpinMessage`, for a caller that is logged in. -/
def unpin_message (uid : String) (req : UnpinMessageReq) : MsgM (Except ServiceError Unit) := do
  match ← pin_right req.conversation_id uid "only OWNER/ADMIN can unpin" with
  | .error e => return .error e
  | .ok () =>
    if ← op (removePin req.conversation_id req.mid) then
      op (publish (.pin req.conversation_id req.message_id uid false))
      return .ok ()
    else return .error ⟨error.kSystemInternalError, "unpin failed"⟩

/-- `UnpinMessage`. -/
def UnpinMessage (uid : String) (req : UnpinMessageReq) : MsgM Unit := do
  let rsp ← unpin_message uid req
  op (respond rsp)

/-- A call. -/
inductive MsgCall
  | recalls (uid : String) (req : RecallMessageReq)
  | pins (uid : String) (req : PinMessageReq)
  | unpins (uid : String) (req : UnpinMessageReq)
  deriving DecidableEq

/-- What a call does. -/
def MsgCall.text : MsgCall → MsgM Unit
  | recalls uid req => RecallMessage uid req
  | pins uid req => PinMessage uid req
  | unpins uid req => UnpinMessage uid req

/-! ### The machine -/

/-- The tables, and what the calls have done. -/
structure MsgState where
  /-- `message`. -/
  messages : Table MessageRow.message_id := .empty
  /-- `message_pin`. -/
  pins : Table MessagePin.key := .empty
  /-- The calls, by thread. -/
  calls : List MsgCall := []
  /-- The threads that have come to `update_status_to_recalled`. -/
  tried : List ℕ := []
  /-- The commits of `update_status_to_recalled`, by thread. -/
  revoked : List (ℕ × UInt64) := []
  /-- The threads that have counted the pins while their message was among them. -/
  repins : List ℕ := []
  /-- The threads that have counted the pins of a conversation, without a failure, where no new row
  has been committed since then. -/
  standing : List (ℕ × String) := []
  /-- What has been published, by thread. -/
  published : List (ℕ × PushPayload) := []
  /-- The responses, by thread. -/
  answers : List (ℕ × Except ServiceError Unit) := []

/-- What the environment decides at a call. -/
structure MsgChoice where
  /-- The call fails. -/
  fault : Bool := false
  /-- Its effect takes place all the same. -/
  late : Bool := false
  now_ms : Int64 := 0
  now : ℤ := 0
  /-- What is found of the caller's membership. -/
  self : Option ConversationMember := none

/-- The effect of the call takes place. -/
def MsgChoice.acts (c : MsgChoice) : Bool := !c.fault || c.late

theorem MsgChoice.fault_of_not_acts {c : MsgChoice} (h : ¬c.acts = true) : c.fault = true := by
  by_contra hfault
  exact h (by rw [acts, Bool.eq_false_iff.2 hfault]; rfl)

namespace MsgState

variable (s : MsgState)

/-- How many pins the conversation has. -/
def count_by_conversation (cid : String) : ℕ := s.pins.count fun p ↦ decide (p.session_id = cid)

/-- The call of thread `i` pins a message that is pinned. -/
def repinned (i : ℕ) : Bool :=
  match s.calls[i]? with
  | some (.pins _ req) => (s.pins.find (req.conversation_id, req.mid)).isSome
  | _ => false

/-- The effect of a call by thread `i`. -/
def exec (i : ℕ) : (o : MsgOp) → MsgChoice → MsgState → Option (o.Res × MsgState)
  | .now_ms, c, s => some (c.now_ms, s)
  | .clock, c, s => some (c.now, s)
  | .selectById mid, c, s => some (if c.fault then none else s.messages.find mid, s)
  | .selectNormal mid, c, s =>
    some (if c.fault then none else (s.messages.find mid).filter (·.status = .NORMAL),
      { s with tried := i :: s.tried })
  | .updateRecalled m, c, s =>
    match s.messages.find m.message_id with
    | none => some (false, s)
    | some _ => some (!c.fault, if c.acts then
        { s with messages := s.messages.write m, revoked := (i, m.message_id) :: s.revoked }
        else s)
  | .selectSelf _ _, c, s => some (c.self, s)
  | .countPins cid, c, s =>
    some (if c.fault then 0 else s.count_by_conversation cid,
      { s with
        repins := if s.repinned i then i :: s.repins else s.repins
        standing := if c.fault then s.standing else (i, cid) :: s.standing })
  | .insertPin p, c, s =>
    match s.pins.insert p with
    | none => some (!c.fault, s)
    | some pins => some (!c.fault, if c.acts then
        { s with pins, standing := s.standing.filter (·.2 ≠ p.session_id) } else s)
  | .removePin cid mid, c, s =>
    some (!c.fault, if c.acts then { s with pins := s.pins.erase (cid, mid) } else s)
  | .publish n, _, s => some ((), { s with published := (i, n) :: s.published })
  | .respond rsp, _, s => some ((), { s with answers := (i, rsp) :: s.answers })

end MsgState

/-- What can happen beside the calls. -/
inductive MsgEv
  /-- A request arrives. -/
  | arrive (c : MsgCall)
  /-- A message is stored. -/
  | store (m : MessageRow)
  /-- A thread is gone. -/
  | crash (i : ℕ)

abbrev MsgPool := Pool MsgOp MsgOp.Res MsgState

/-- The effect of an event. -/
def MsgState.env : MsgEv → MsgPool → Option MsgPool
  | .arrive c, p =>
    some ⟨p.threads ++ [c.text], { p.shared with calls := p.shared.calls ++ [c] }⟩
  | .store m, p =>
    (p.shared.messages.insert m).map fun messages ↦ ⟨p.threads, { p.shared with messages }⟩
  | .crash i, p => some ⟨p.threads.set i (.ret ()), p.shared⟩

/-- The message service. -/
def messageService : Machine MsgOp MsgOp.Res MsgState MsgChoice MsgEv :=
  ⟨MsgState.exec, MsgState.env⟩

/-- No call has begun. -/
structure MsgState.Fresh (s : MsgState) : Prop where
  calls : s.calls = []
  tried : s.tried = []
  revoked : s.revoked = []
  repins : s.repins = []
  standing : s.standing = []
  published : s.published = []
  answers : s.answers = []

end ChatNow
