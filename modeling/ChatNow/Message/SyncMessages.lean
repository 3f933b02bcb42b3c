import ChatNow.Common.ErrorCodes
import ChatNow.Message.OnDBMessage

/-!
# SyncMessages

`MessageServiceImpl::SyncMessages` of `message/source/message_server.h` with `select_after` of
`common/dao/mysql_message.hpp`: the page of a conversation after a sequence number. One row more
than the limit is read to tell whether there are more, and dropped again. The reactions and pin
flags that decorate the messages of the page are left out.

`sync_call` is a client's call: the answer reaches the client's inbox.
-/

namespace ChatNow

open Prog PipeOp

/-- `kMaxLimit`. -/
def kMaxLimit : ℤ := 100

namespace SyncMessages

/-- A response that carries an error. -/
def failed (rid : String) (e : ServiceError) : SyncMessagesRsp :=
  { header := { request_id := rid, success := false, error_code := e.code,
                error_message := e.message } }

/-- The page and the flag, from the rows that were read. -/
def page (limit : ℕ) (db_msgs : List MessageRow) : List MessageRow × Bool :=
  if limit < db_msgs.length then (db_msgs.dropLast, true) else (db_msgs, false)

end SyncMessages

open SyncMessages

/-- `SyncMessages` for an authenticated caller. -/
def SyncMessages (rid uid cid : String) (after_seq : UInt64) (limit : Int32) :
    PipeM SyncMessagesRsp := do
  if limit.toInt ≤ 0 ∨ kMaxLimit < limit.toInt then
    return failed rid ⟨error.kSystemInvalidArgument, "limit out of range"⟩
  if !(← op (requireMember cid uid)) then
    return failed rid ⟨error.kConversationNotMember, "user not member of conversation"⟩
  let db_msgs ← op (selectAfter cid after_seq (limit.toInt.toNat + 1))
  let (db_msgs, has_more) := page limit.toInt.toNat db_msgs
  let latest_seq ← op (selectMaxSeq cid)
  return { header := { request_id := rid, success := true }
           messages := db_msgs.map convert_db_message_to_proto_
           has_more := has_more
           latest_seq := latest_seq }

/-- A call of `SyncMessages` by a client, with the answer delivered. -/
def sync_call (client : ℕ) (rid uid cid : String) (after_seq : UInt64) (limit : Int32) :
    PipeM Unit := do
  let rsp ← SyncMessages rid uid cid after_seq limit
  op (syncReply client cid rsp)

/-! ### What a call does -/

/-- Where a call stands. -/
inductive SyncPhase
  /-- Before the read. -/
  | asking
  /-- The page has been read. -/
  | read (page : List MessageRow)
  /-- The answer has been delivered. -/
  | answered

/-- The contract of a call: it reads one page after its sequence number, and delivers that page, or
nothing. -/
def syncContract (client : ℕ) (cid : String) (after_seq : UInt64) :
    Contract PipeOp PipeOp.Res SyncPhase where
  allowed ph o :=
    match ph, o with
    | _, requireMember _ _ => True
    | .asking, selectAfter c a _ => c = cid ∧ a = after_seq
    | .read _, selectMaxSeq _ => True
    | .asking, syncReply n c rsp => n = client ∧ c = cid ∧ rsp.messages = []
    | .read page, syncReply n c rsp =>
      n = client ∧ c = cid ∧ rsp.messages = page.map convert_db_message_to_proto_
    | _, _ => False
  admits _ _ _ := True
  next ph o r :=
    match ph, o, r with
    | .asking, selectAfter _ _ limit, rows => .read (page (limit - 1) rows).1
    | _, syncReply _ _ _, _ => .answered
    | ph, _, _ => ph

theorem SyncMessages.page_isPrefix (limit : ℕ) (rows : List MessageRow) :
    (page limit rows).1 <+: rows := by
  rw [page]
  split
  · exact List.dropLast_prefix rows
  · exact List.prefix_refl rows

/-- A call follows its contract. -/
theorem sync_call_meets (client : ℕ) (rid uid cid : String) (after_seq : UInt64) (limit : Int32) :
    (sync_call client rid uid cid after_seq limit).Meets (syncContract client cid after_seq) .asking
      fun _ _ ↦ True := by
  rw [sync_call, SyncMessages]
  split
  · exact ⟨⟨rfl, rfl, rfl⟩, fun _ _ ↦ trivial⟩
  · refine meets_op_bind.2 ⟨trivial, fun member _ ↦ ?_⟩
    cases member with
    | false => exact ⟨⟨rfl, rfl, rfl⟩, fun _ _ ↦ trivial⟩
    | true =>
      refine meets_op_bind.2 ⟨⟨rfl, rfl⟩, fun rows _ ↦ ?_⟩
      refine meets_op_bind.2 ⟨trivial, fun latest _ ↦ ?_⟩
      exact ⟨⟨rfl, rfl, rfl⟩, fun _ _ ↦ trivial⟩

end ChatNow
