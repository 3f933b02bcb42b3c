import ChatNow.Common.Snowflake
import ChatNow.Lib.Prog
import ChatNow.Proto.Message

/-!
# The operations of the message pipeline

A message travels from `SendMessage` (Transmite) through the broker to `onDBMessage` (message
service), into the message table, and from there to the push exchange; clients read the table back
with `SyncMessages`. The handlers are programs over one signature, `PipeOp`: every call that leaves
the process or reads a clock is an operation, and whatever can throw answers with a `Reply`.

The granularity is that of the source: one Redis command, one database transaction, one RPC, one
publish is one operation. Between two of them any other handler may run. The one exception is
`next_user_seq_batch`, a loop of `INCR`s on counters that no other modelled call reads.
-/

namespace ChatNow

/-- The outcome of a call that may throw. -/
inductive Reply (α : Type)
  | ok (a : α)
  | thrown
  deriving DecidableEq

/-- `PublishStatus`: what a publisher confirm callback is told. -/
inductive PublishStatus
  /-- The broker has confirmed receipt. -/
  | Acked
  /-- The broker has refused the message. -/
  | Nacked
  /-- The channel was lost: whether the broker has the message is unknown. -/
  | Lost
  /-- The channel failed while publishing. -/
  | Error
  deriving DecidableEq

/-- `ConsumeAction`: what a consumer callback tells the broker to do with its delivery. -/
inductive ConsumeAction
  | Ack
  | NackRequeue
  | NackDiscard
  deriving DecidableEq

/-- `MembersResult`. -/
structure MembersResult where
  members : List String := []
  confirmed_empty : Bool := false
  version : ℕ := 0
  deriving DecidableEq

/-- The `status` column of the message table. -/
inductive RowStatus
  | NORMAL
  | REVOKED
  | DELETED
  | AUDITING
  deriving DecidableEq

/-- The number of a status, the same in the column and on the wire. -/
def RowStatus.num : RowStatus → Int32
  | NORMAL => 0
  | REVOKED => 1
  | DELETED => 2
  | AUDITING => 3

/-- A row of the message table, with the columns that `onDBMessage` writes. -/
structure MessageRow where
  message_id : UInt64
  seq_id : UInt64
  session_id : String
  user_id : String
  message_type : Int32
  create_time : Int64
  content : String
  client_msg_id : Option String
  file_id : String
  file_name : String
  file_size : UInt64
  status : RowStatus
  deriving DecidableEq

/-- A row of the user timeline, with the columns that `onDBMessage` writes. -/
structure UserTimeline where
  user_id : String
  session_id : String
  message_id : UInt64
  message_time : Int64
  session_seq : UInt64
  user_seq : UInt64
  deriving DecidableEq

/-- How the transaction of `onDBMessage` ends. -/
inductive InsertOutcome
  /-- Both tables were written and committed. -/
  | inserted
  /-- A unique index refused the row (`odb::object_already_persistent`). -/
  | alreadyPersistent
  /-- Any other exception; a `COMMIT` whose answer is lost is one. -/
  | failed
  deriving DecidableEq

/-- `SyncMessagesRsp`, without the reactions and pin flags that decorate its messages. -/
structure SyncMessagesRsp where
  header : ResponseHeader := {}
  messages : List Message := []
  has_more : Bool := false
  latest_seq : UInt64 := 0
  deriving DecidableEq

/-- The operations of the pipeline's handlers. -/
inductive PipeOp
  /-- `SET key value NX`. -/
  | redisSetNx (key value : String)
  | redisGet (key : String)
  | redisDel (key : String)
  | redisSet (key value : String)
  /-- The `SelectByClientMsgId` call of `select_existing_message_by_client_msg_`. -/
  | selectByClientMsg (uid client_msg_id : String)
  /-- `RateLimiter::allow_user`. -/
  | allowUser (uid : String)
  /-- `RateLimiter::allow_session`. -/
  | allowSession (ssid : String)
  /-- `resolve_user_info`, as far as SendMessage looks at it: whether it yields a profile. -/
  | resolveUserInfo (uid : String)
  /-- `resolve_members`. -/
  | resolveMembers (ssid : String)
  /-- `SeqGen::next_session_seq`, zero on failure. -/
  | nextSessionSeq (ssid : String)
  /-- `SeqGen::next_user_seq_batch`, empty on failure. -/
  | nextUserSeqBatch (uids : List String)
  /-- `SnowflakeId::Next`. -/
  | nextId
  /-- The system clock, in milliseconds. -/
  | nowMs
  /-- `publish_confirm` to the message exchange. -/
  | publishConfirm (msg : InternalMessage)
  /-- The invocation of the confirm callback. -/
  | awaitConfirm
  /-- Running the closure of a SendMessage call: the response leaves. -/
  | reply (rsp : SendMessageRsp)
  /-- The transaction of `onDBMessage`. -/
  | insertMessage (row : MessageRow) (timeline : List UserTimeline)
  /-- `MessageTable::select_by_id`, as far as `onDBMessage` looks at it: whether it found a row. -/
  | selectById (mid : UInt64)
  /-- `publish_confirm` to the push exchange. -/
  | pushPublish (payload : InternalMessage)
  /-- `PushOutbox::enqueue`. -/
  | pushEnqueue (payload : InternalMessage)
  /-- `publish_confirm` to the index exchange. -/
  | esPublish (event : ESIndexEvent)
  /-- `ESOutbox::enqueue`. -/
  | esEnqueue (event : ESIndexEvent)
  /-- What the consumer wrapper tells the broker about its delivery. -/
  | settle (action : ConsumeAction)
  /-- `require_member_`, `true` when it does not throw. -/
  | requireMember (cid uid : String)
  /-- `MessageTable::select_after`. -/
  | selectAfter (cid : String) (after_seq : UInt64) (limit : ℕ)
  /-- `MessageTable::select_max_seq_by_conversation`. -/
  | selectMaxSeq (cid : String)
  /-- The response of a SyncMessages call reaches the client that made it. -/
  | syncReply (client : ℕ) (cid : String) (rsp : SyncMessagesRsp)

/-- What each operation answers. -/
@[reducible]
def PipeOp.Res : PipeOp → Type
  | redisSetNx _ _ => Reply Bool
  | redisGet _ => Reply (Option String)
  | redisDel _ => Reply Unit
  | redisSet _ _ => Reply Unit
  | selectByClientMsg _ _ => Option Message
  | allowUser _ => Bool
  | allowSession _ => Bool
  | resolveUserInfo _ => Reply Bool
  | resolveMembers _ => Reply MembersResult
  | nextSessionSeq _ => ℕ
  | nextUserSeqBatch _ => List ℕ
  | nextId => Reply ℕ
  | nowMs => Int64
  | publishConfirm _ => Reply Unit
  | awaitConfirm => PublishStatus
  | reply _ => Unit
  | insertMessage _ _ => InsertOutcome
  | selectById _ => Bool
  | pushPublish _ => Reply Unit
  | pushEnqueue _ => Unit
  | esPublish _ => Reply Unit
  | esEnqueue _ => Unit
  | settle _ => Unit
  | requireMember _ _ => Bool
  | selectAfter _ _ _ => List MessageRow
  | selectMaxSeq _ => UInt64
  | syncReply _ _ _ => Unit

/-- Programs of the pipeline. -/
abbrev PipeM := Prog PipeOp PipeOp.Res

end ChatNow
